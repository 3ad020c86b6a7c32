import Livezure.Core.Literal
import Livezure.Db.Account
import Livezure.Service.Decimal

/-! The texts that `db_account.c` prints its statements to, and what a lexer makes of them. -/
namespace Livezure.Db
open Livezure.Core

def singleQuote : UInt8 := 39

def sql (text : String) : Piece UInt8 := .plain (ascii text)

def number (value : Int) : Piece UInt8 := .plain (Service.decimal value)

def quoted (text : Bytes) : Piece UInt8 := .literal text

/-- The calls of `sprintf` in `db_account.c`, with the arguments they are given. -/
inductive Statement where
  | adminAdd (uuid hashpwd nickname comment : Bytes)
  | adminDelBasic (uuid : Bytes)
  | adminDelAdmin (uuid : Bytes)
  | childAddBasic (uuid hashpwd nickname comment : Bytes)
  | childAddChild (uuid refAdminUuid : Bytes)
  | childDelOne (refAdminUuid specifiedUuid : Bytes)
  | childDelAll (refAdminUuid : Bytes)
  | childDelBasicOne (specifiedUuid : Bytes)
  | childDelBasicAll (refAdminUuid : Bytes)
  | checkUserExist (uuid : Bytes)
  | checkUserExistChild (uuid : Bytes)
  | checkUserIsOk (uuid hashpwd : Bytes)
  | update (hashpwd nickname comment uuid : Bytes)
  | licenseSet (refAdminUuid : Bytes) (licenseType : Int) (licensedTime expiredTime : Bytes)
  | licenseGet (refAdminUuid : Bytes)
  | licenseDel (refAdminUuid : Bytes)
  | listAdminGetAll
  | listAdminGetOne (specifiedUuid : Bytes)
  | listChildGetAll (refAdminUuid : Bytes)
  | listChildGetOne (refAdminUuid specifiedUuid : Bytes)
  | deviceAddBasic (uuid pluginName ip : Bytes) (port : Int) (user pwd : Bytes) (channel : Int)
      (segFolder : Bytes) (segInCount segPerSec : Int)
  | deviceAddAccount (uuid refAdminUuid nickname comment : Bytes) (isTopLevel : Bool)
      (refParentUuid : Bytes)
  | deviceDelBasicOne (specifiedUuid refAdminUuid : Bytes)
  | deviceDelOne (specifiedUuid refAdminUuid : Bytes)
  | deviceDelBasicAll (refAdminUuid : Bytes)
  | deviceDelAll (refAdminUuid : Bytes)
  | deviceCheckExist (ip : Bytes) (port channel : Int) (refAdminUuid : Bytes)
  | deviceWorkpathValid (workpath : Bytes)
  | deviceGetAll (refAdminUuid : Bytes)
  | deviceGetOne (refAdminUuid specifiedUuid : Bytes)

/-- What both queries of `db_account_device_get` start with. -/
def deviceGetQuery : List (Piece UInt8) :=
  [sql "SELECT t_device_basic.uuid,t_device_basic.plugin_name,t_device_basic.ip,",
    sql "t_device_basic.port,t_device_basic.user,t_device_basic.pwd,t_device_basic.channel,",
    sql "t_device_basic.seg_folder,t_device_basic.seg_in_count,t_device_basic.seg_per_sec,",
    sql "t_device_basic.create_time,t_account_device.nickname,t_account_device.comment,",
    sql "t_account_device.is_top_level,t_account_device.ref_parent_uuid",
    sql " FROM t_device_basic JOIN t_account_device",
    sql " ON t_account_device.uuid==t_device_basic.uuid",
    sql " WHERE t_account_device.ref_admin_uuid="]

/-- The format of each call, with its arguments in place. -/
def Statement.format : Statement → List (Piece UInt8)
  | adminAdd uuid hashpwd nickname comment =>
    [sql "INSERT INTO t_account_basic(uuid,pwd,nickname,comment) VALUES (", quoted uuid, sql ",",
      quoted hashpwd, sql ",", quoted nickname, sql ",", quoted comment, sql ")"]
  | adminDelBasic uuid => [sql "DELETE FROM t_account_basic WHERE uuid=", quoted uuid]
  | adminDelAdmin uuid => [sql "DELETE FROM t_account_admin WHERE uuid=", quoted uuid]
  | childAddBasic uuid hashpwd nickname comment =>
    [sql "INSERT INTO t_account_basic (uuid,pwd,nickname,comment) VALUES (", quoted uuid, sql ",",
      quoted hashpwd, sql ",", quoted nickname, sql ",", quoted comment, sql ")"]
  | childAddChild uuid refAdminUuid =>
    [sql "INSERT INTO t_account_child (uuid,ref_admin_uuid) VALUES (", quoted uuid, sql ",",
      quoted refAdminUuid, sql ")"]
  | childDelOne refAdminUuid specifiedUuid =>
    [sql "DELETE FROM t_account_child WHERE ref_admin_uuid=", quoted refAdminUuid,
      sql " AND uuid=", quoted specifiedUuid]
  | childDelAll refAdminUuid =>
    [sql "DELETE FROM t_account_child WHERE ref_admin_uuid=", quoted refAdminUuid]
  | childDelBasicOne specifiedUuid =>
    [sql "DELETE FROM t_account_basic WHERE uuid=", quoted specifiedUuid]
  | childDelBasicAll refAdminUuid =>
    [sql "DELETE FROM t_account_basic WHERE uuid IN (SELECT uuid FROM t_account_admin WHERE uuid=",
      quoted refAdminUuid, sql ")"]
  | checkUserExist uuid => [sql "SELECT * FROM t_account_basic WHERE uuid=", quoted uuid]
  | checkUserExistChild uuid => [sql "SELECT * FROM t_account_child WHERE uuid=", quoted uuid]
  | checkUserIsOk uuid hashpwd =>
    [sql "SELECT * FROM t_account_basic WHERE uuid=", quoted uuid, sql " AND pwd=", quoted hashpwd]
  | update hashpwd nickname comment uuid =>
    [sql "UPDATE t_account_basic SET pwd=", quoted hashpwd, sql ",nickname=", quoted nickname,
      sql ",comment=", quoted comment, sql " WHERE uuid=", quoted uuid]
  | licenseSet refAdminUuid licenseType licensedTime expiredTime =>
    [sql "INSERT INTO t_account_admin (uuid,license_type,licensed_time,expired_time) VALUES (",
      quoted refAdminUuid, sql ",", number licenseType, sql ",", quoted licensedTime, sql ",",
      quoted expiredTime, sql ")"]
  | licenseGet refAdminUuid => [sql "SELECT * FROM t_account_admin WHERE uuid=", quoted refAdminUuid]
  | licenseDel refAdminUuid => [sql "DELETE FROM t_account_admin WHERE uuid=", quoted refAdminUuid]
  | listAdminGetAll =>
    [sql "SELECT * FROM t_account_basic WHERE uuid IN (SELECT uuid FROM ", sql "t_account_admin",
      sql ")"]
  | listAdminGetOne specifiedUuid =>
    [sql "SELECT * FROM t_account_basic WHERE uuid IN (SELECT uuid FROM ", sql "t_account_admin",
      sql " WHERE uuid=", quoted specifiedUuid, sql ")"]
  | listChildGetAll refAdminUuid =>
    [sql "SELECT * FROM t_account_basic WHERE uuid IN ",
      sql "(SELECT uuid FROM t_account_child WHERE ref_admin_uuid=", quoted refAdminUuid, sql ")"]
  | listChildGetOne refAdminUuid specifiedUuid =>
    [sql "SELECT * FROM t_account_basic WHERE uuid IN ",
      sql "(SELECT uuid FROM t_account_child WHERE ref_admin_uuid=", quoted refAdminUuid,
      sql " AND uuid=", quoted specifiedUuid, sql ")"]
  | deviceAddBasic uuid pluginName ip port user pwd channel segFolder segInCount segPerSec =>
    [sql "INSERT INTO t_device_basic (uuid,plugin_name,ip,port,user,pwd,channel,seg_folder,",
      sql "seg_in_count,seg_per_sec) VALUES (", quoted uuid, sql ",", quoted pluginName, sql ",",
      quoted ip, sql ",", number port, sql ",", quoted user, sql ",", quoted pwd, sql ",",
      number channel, sql ",", quoted segFolder, sql ",", number segInCount, sql ",",
      number segPerSec, sql ")"]
  | deviceAddAccount uuid refAdminUuid nickname comment isTopLevel refParentUuid =>
    [sql "INSERT INTO t_account_device (uuid,ref_admin_uuid,nickname,comment,is_top_level,",
      sql "ref_parent_uuid) VALUES (", quoted uuid, sql ",", quoted refAdminUuid, sql ",",
      quoted nickname, sql ",", quoted comment, sql ",", number (if isTopLevel then 1 else 0),
      sql ",", quoted refParentUuid, sql ")"]
  | deviceDelBasicOne specifiedUuid refAdminUuid =>
    [sql "DELETE FROM t_device_basic WHERE uuid IN (SELECT uuid FROM t_account_device WHERE uuid=",
      quoted specifiedUuid, sql " AND ref_admin_uuid=", quoted refAdminUuid, sql ")"]
  | deviceDelOne specifiedUuid refAdminUuid =>
    [sql "DELETE FROM t_account_device WHERE uuid=", quoted specifiedUuid,
      sql " AND ref_admin_uuid=", quoted refAdminUuid]
  | deviceDelBasicAll refAdminUuid =>
    [sql "DELETE FROM t_device_basic WHERE uuid IN ",
      sql "(SELECT uuid FROM t_account_device WHERE ref_admin_uuid=", quoted refAdminUuid, sql ")"]
  | deviceDelAll refAdminUuid =>
    [sql "DELETE FROM t_account_device WHERE ref_admin_uuid=", quoted refAdminUuid]
  | deviceCheckExist ip port channel refAdminUuid =>
    [sql "SELECT * FROM t_device_basic WHERE ip=", quoted ip, sql " AND port=", number port,
      sql " AND channel=", number channel,
      sql " AND uuid IN (SELECT uuid FROM t_account_device WHERE ref_admin_uuid=",
      quoted refAdminUuid, sql ")"]
  | deviceWorkpathValid workpath =>
    [sql "SELECT * FROM t_device_basic WHERE seg_folder=", quoted workpath]
  | deviceGetAll refAdminUuid => deviceGetQuery ++ [quoted refAdminUuid]
  | deviceGetOne refAdminUuid specifiedUuid =>
    deviceGetQuery ++ [quoted refAdminUuid, sql " AND t_account_device.uuid=", quoted specifiedUuid]

/-- The size of `sqlbuf`. -/
def Statement.sqlbuf : Statement → Nat
  | deviceGetAll _ => 1024
  | deviceGetOne _ _ => 1024
  | _ => 4096

/-- `sprintf` to `sqlbuf`: the text without its NUL. -/
def Statement.print (statement : Statement) : Except Fault Bytes :=
  let text := render singleQuote statement.format
  if text.length < statement.sqlbuf then .ok text else .error .outOfBounds

/-- The text denotes the arguments: each literal is a field, and the other tokens
are those of the format. -/
def Statement.Denotes (statement : Statement) : Prop :=
  ∃ text, statement.print = .ok text ∧
    lex singleQuote none text = some (meant statement.format)

/-- No field has a quote. -/
def Statement.Literal (statement : Statement) : Prop :=
  ∀ field ∈ fields statement.format, singleQuote ∉ field

instance (statement : Statement) : Decidable statement.Literal :=
  inferInstanceAs (Decidable (∀ field ∈ fields statement.format, _))

/-- No field has a quote, and the text fits its buffer. -/
structure Statement.Plain (statement : Statement) : Prop where
  unquoted : statement.Literal
  fits : (render singleQuote statement.format).length < statement.sqlbuf

/-! ### What the texts denote -/

theorem decimal_unquoted (value : Int) : singleQuote ∉ Service.decimal value := by
  have digits : ∀ value : Nat, singleQuote ∉ Service.digitsOf value := fun value member =>
    absurd (Service.digitsOf_digit member).1 (by decide)
  cases value with
  | ofNat value => exact digits value
  | negSucc value =>
    rw [Service.decimal_negSucc]
    intro member
    rcases List.mem_cons.mp member with same | later
    · cases same
    · exact digits _ later

/-- A character of a format that is not a single quote. -/
def plainChar (char : Char) : Bool := Nat.ble char.toNat 255 && !Nat.beq char.toNat 39

theorem plainChar_byte {char : Char} (plain : plainChar char = true) :
    UInt8.ofNat char.toNat ≠ singleQuote := by
  obtain ⟨small, different⟩ := Bool.and_eq_true_iff.mp plain
  intro same
  have value := congrArg UInt8.toNat same
  rw [UInt8.toNat_ofNat', Nat.mod_eq_of_lt (by have := Nat.le_of_ble_eq_true small; omega)] at value
  rw [value] at different
  cases different

section Formats
variable {chars : List Char} {text : String} {field : Bytes} {rest : List (Piece UInt8)}

theorem sql_unquoted (plain : chars.all plainChar = true) :
    singleQuote ∉ ascii (String.ofList chars) := by
  rw [ascii, String.toList_ofList]
  intro member
  obtain ⟨char, inside, same⟩ := List.mem_map.mp member
  exact plainChar_byte (List.all_eq_true.mp plain char inside) same

theorem sql_starts (plain : chars.head?.any plainChar = true) :
    ∃ byte, (ascii (String.ofList chars)).head? = some byte ∧ byte ≠ singleQuote := by
  cases chars with
  | nil => cases plain
  | cons char chars =>
    refine ⟨UInt8.ofNat char.toNat, ?_, plainChar_byte plain⟩
    rw [ascii, String.toList_ofList]
    rfl

private theorem separated_sql (clean : singleQuote ∉ ascii text) :
    Separated singleQuote (sql text :: rest) ↔ Separated singleQuote rest :=
  and_iff_right clean

private theorem separated_number {value : Int} :
    Separated singleQuote (number value :: rest) ↔ Separated singleQuote rest :=
  and_iff_right (decimal_unquoted value)

private theorem separated_quoted_sql
    (starts : ∃ byte, (ascii text).head? = some byte ∧ byte ≠ singleQuote) :
    Separated singleQuote (quoted field :: sql text :: rest) ↔
      Separated singleQuote (sql text :: rest) := by
  apply and_iff_right
  obtain ⟨byte, first, different⟩ := starts
  rw [sql, render, List.head?_append, first]
  exact fun same => different (Option.some.inj same)

private theorem separated_quoted_last : Separated singleQuote [quoted field] ↔ True :=
  iff_true_intro ⟨by simp [render], trivial⟩

private theorem separated_nil : Separated singleQuote [] ↔ True := Iff.rfl

end Formats

/-- The formats have quotes around their strings only. -/
theorem Statement.separated (statement : Statement) : Separated singleQuote statement.format := by
  cases statement <;>
    simp (disch := first | exact sql_unquoted rfl | exact sql_starts rfl) only [Statement.format,
      deviceGetQuery, List.cons_append, List.nil_append, separated_sql, separated_number,
      separated_quoted_sql, separated_quoted_last, separated_nil]

theorem Statement.denotes_iff (statement : Statement) : statement.Denotes ↔ statement.Plain := by
  unfold Statement.Denotes Statement.print
  constructor
  · rintro ⟨text, printed, lexed⟩
    dsimp only at printed
    split at printed
    · rename_i fits
      obtain rfl := Except.ok.inj printed
      exact ⟨(lex_render_iff statement.separated).mp lexed, fits⟩
    · cases printed
  · rintro ⟨unquoted, fits⟩
    exact ⟨_, if_pos fits, (lex_render_iff statement.separated).mpr unquoted⟩

instance (statement : Statement) : Decidable statement.Plain :=
  decidable_of_iff (statement.Literal ∧ (render singleQuote statement.format).length < statement.sqlbuf)
    ⟨fun both => ⟨both.1, both.2⟩, fun plain => ⟨plain.unquoted, plain.fits⟩⟩

/-- No text in the statements has a quote, and each of them fits its buffer. -/
def AllPlain (statements : List Statement) : Prop := ∀ statement ∈ statements, statement.Plain

instance (statements : List Statement) : Decidable (AllPlain statements) :=
  inferInstanceAs (Decidable (∀ statement ∈ statements, statement.Plain))

/-- The data base gets the statements that are meant. -/
def AllDenote (statements : List Statement) : Prop := ∀ statement ∈ statements, statement.Denotes

theorem allDenote_iff {statements : List Statement} : AllDenote statements ↔ AllPlain statements :=
  forall₂_congr fun statement _ => statement.denotes_iff

/-! ### Checking a password -/

/-- Whether a query gives a row: `sqlite3_step` on a text that reads the tables. -/
abbrev Exec := Store → Bytes → Bool

/-- `SELECT * FROM t_account_basic WHERE ..` gives a row exactly if a row meets the
condition that its tokens denote. -/
structure Exec.SelectsRows (exec : Exec) : Prop where
  userIsOk : ∀ store uuid hashpwd text,
    lex singleQuote none text = some (meant (Statement.checkUserIsOk uuid hashpwd).format) →
      (exec store text = true ↔ ∃ row ∈ store.basic.rows, row.uuid = uuid ∧ row.pwd = hashpwd)
  userExist : ∀ store uuid text,
    lex singleQuote none text = some (meant (Statement.checkUserExist uuid).format) →
      (exec store text = true ↔ ∃ row ∈ store.basic.rows, row.uuid = uuid)

/-- `db_exec`, as far as it tells a row from none. -/
def dbExec (exec : Exec) (store : Store) (statement : Statement) : Except Fault Bool := do
  let text ← statement.print
  return exec store text

/-- The result of `db_account_check_user_is_ok`, by the texts of its queries. -/
def printedCheckUserIsOk (exec : Exec) (hash : Bytes → Bytes) (store : Store)
    (uuid pwd : Bytes) : Except Fault Bool := do
  let r ← dbExec exec store (.checkUserIsOk uuid (hash pwd))
  if r then dbExec exec store (.checkUserExist uuid) else return false

section Check
variable {exec : Exec} {hash : Bytes → Bytes} {uuid pwd : Bytes}

theorem Statement.Plain.exist (plain : (Statement.checkUserIsOk uuid pwd).Plain) :
    (Statement.checkUserExist uuid).Plain := by
  obtain ⟨unquoted, fits⟩ := plain
  refine ⟨fun field member => unquoted field ?_, ?_⟩
  · rw [List.mem_singleton.mp member]
    exact List.mem_cons_self
  · refine Nat.lt_of_le_of_lt ?_ fits
    simp only [Statement.format, render, sql, quoted, List.length_append, List.length_cons]
    omega

theorem dbExec_plain {statement : Statement} (plain : statement.Plain) (exec : Exec) (store : Store) :
    ∃ text, dbExec exec store statement = .ok (exec store text) ∧
      lex singleQuote none text = some (meant statement.format) := by
  obtain ⟨text, printed, lexed⟩ := statement.denotes_iff.mpr plain
  exact ⟨text, by rw [dbExec, printed]; rfl, lexed⟩

/-- Without quotes the printed queries do what the queries on the tables do. -/
theorem printedCheckUserIsOk_refines (selects : exec.SelectsRows) (store : Store)
    (ambient : Ambient) (plain : (Statement.checkUserIsOk uuid (hash pwd)).Plain) :
    printedCheckUserIsOk exec hash store uuid pwd =
      .ok (dbAccountCheckUserIsOk store hash ambient uuid pwd).isSome := by
  obtain ⟨okText, okDone, okLexed⟩ := dbExec_plain plain exec store
  obtain ⟨existText, existDone, existLexed⟩ := dbExec_plain plain.exist exec store
  have ok := selects.userIsOk store _ _ _ okLexed
  have exist : exec store existText = (dbAccountCheckUserExist store ambient uuid).isSome := by
    rw [Bool.eq_iff_iff, selects.userExist store _ _ existLexed, dbAccountCheckUserExist_isSome]
    exact List.mem_map.symm
  unfold printedCheckUserIsOk dbAccountCheckUserIsOk
  rw [okDone]
  by_cases selected : store.basic.select (fun row =>
      decide (row.uuid = uuid) && decide (row.pwd = hash pwd)) = []
  · have none : ¬ exec store okText = true := by
      rw [ok]
      rintro ⟨row, member, named, hashed⟩
      refine List.ne_nil_of_mem (Table.mem_select.mpr ⟨member, ?_⟩) selected
      simp [named, hashed]
    simp only [bind, Except.bind, if_neg none, if_pos selected]
    rfl
  · obtain ⟨row, member⟩ := List.exists_mem_of_ne_nil _ selected
    obtain ⟨listed, condition⟩ := Table.mem_select.mp member
    have found : exec store okText = true := ok.mpr ⟨row, listed, by simpa using condition⟩
    simp only [bind, Except.bind, if_pos found, if_neg selected, existDone, exist]

/-- The texts denote their arguments exactly if these have no quotes, and with such
arguments a user that is ok has a row. -/
theorem accountTexts_iff (selects : exec.SelectsRows) (hash : Bytes → Bytes) :
    (∀ statement : Statement, statement.Denotes ↔ statement.Plain) ∧
      ∀ store uuid pwd, (Statement.checkUserIsOk uuid (hash pwd)).Plain →
        printedCheckUserIsOk exec hash store uuid pwd = .ok true →
          ∃ row ∈ store.basic.rows, row.uuid = uuid ∧ row.pwd = hash pwd := by
  refine ⟨Statement.denotes_iff, fun store uuid pwd plain done => ?_⟩
  rw [printedCheckUserIsOk_refines selects store ⟨[], [], []⟩ plain] at done
  exact (dbAccountCheckUserIsOk_isSome store hash ⟨[], [], []⟩ uuid pwd).mp (Except.ok.inj done)

end Check

section Meant
variable {uuid pwd otherUuid otherPwd : Bytes}

private theorem meant_checkUserIsOk_inj :
    meant (Statement.checkUserIsOk uuid pwd).format =
        meant (Statement.checkUserIsOk otherUuid otherPwd).format ↔
      otherUuid = uuid ∧ otherPwd = pwd := by
  simp only [Statement.format, meant, sql, quoted, List.append_cancel_left_eq, List.cons.injEq,
    Token.literal.injEq, and_true]
  exact and_congr eq_comm eq_comm

private theorem meant_checkUserExist_inj :
    meant (Statement.checkUserExist uuid).format = meant (Statement.checkUserExist otherUuid).format ↔
      otherUuid = uuid := by
  simp only [Statement.format, meant, sql, quoted, List.append_cancel_left_eq, List.cons.injEq,
    Token.literal.injEq, and_true]
  exact eq_comm

private theorem meant_apart :
    meant (Statement.checkUserIsOk uuid pwd).format ≠
      meant (Statement.checkUserExist otherUuid).format := by
  simp only [Statement.format, meant, sql, quoted, ne_eq, List.append_cancel_left_eq,
    List.cons.injEq, List.append_eq_nil_iff]
  exact fun same => List.cons_ne_nil _ _ same.2.2

end Meant

/-- Reads the two queries back from their tokens. -/
private def execTokens : Exec := fun store text =>
  match lex singleQuote none text with
  | none => false
  | some tokens => store.basic.rows.any fun row =>
    decide (tokens = meant (Statement.checkUserIsOk row.uuid row.pwd).format) ||
      decide (tokens = meant (Statement.checkUserExist row.uuid).format)

private theorem execTokens_selects : execTokens.SelectsRows where
  userIsOk store uuid hashpwd text lexed := by
    simp only [execTokens, lexed, List.any_eq_true, Bool.or_eq_true, decide_eq_true_eq,
      meant_checkUserIsOk_inj, meant_apart, or_false]
  userExist store uuid text lexed := by
    simp only [execTokens, lexed, List.any_eq_true, Bool.or_eq_true, decide_eq_true_eq,
      meant_checkUserExist_inj, meant_apart.symm, false_or]

private def accountStore : Store := (dbAccountAdminAdd .init id ⟨[50], [], []⟩
  ⟨ascii "admin", ascii "secret", [], []⟩).2

/-- The password of `admin` is checked against its row. -/
theorem accountTexts_admin :
    printedCheckUserIsOk execTokens id accountStore (ascii "admin") (ascii "secret") = .ok true ∧
      ∃ row ∈ accountStore.basic.rows, row.uuid = ascii "admin" ∧ row.pwd = ascii "secret" := by
  have done : printedCheckUserIsOk execTokens id accountStore (ascii "admin") (ascii "secret") =
      .ok true := by decide
  have plain : (Statement.checkUserIsOk (ascii "admin") (ascii "secret")).Plain := by
    refine ⟨?_, ?_⟩ <;> decide
  exact ⟨done, (accountTexts_iff execTokens_selects id).2 _ _ _ plain done⟩

/-- With the uuid `' OR 1=1 --` the condition is no longer about a uuid and a password. -/
theorem uuid_ends_literal :
    ¬ (Statement.checkUserIsOk (ascii "' OR 1=1 --") (ascii "w")).Denotes := by
  rw [Statement.denotes_iff]
  intro plain
  exact absurd (plain.unquoted (ascii "' OR 1=1 --") List.mem_cons_self) (by decide)

end Livezure.Db
