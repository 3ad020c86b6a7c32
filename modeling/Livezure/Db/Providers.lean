import Livezure.Db.Account

/-! The two data base providers: `sql_query` and `sql_fetch_row` over MySQL and over SQLite,
and the checks of the account store over either. -/
namespace Livezure.Db
open Livezure.Core

/-- A column of a row; `none` is an SQL NULL. -/
abbrev Cell := Option Bytes

structure ResultSet where
  fields : Nat
  rows : List (List Cell)

/-- What the backend makes of a statement. -/
inductive Outcome where
  | failed
  | done
  | selected (set : ResultSet)

/-- `e_sql_query_result`. -/
inductive QueryResult where
  | error
  | done
  | row
  deriving DecidableEq

/-- `sql_row_t`, one for each column. -/
structure SqlCell where
  data : Option Bytes
  length : Nat
  deriving DecidableEq

/-- The functions of a `sql_provider_type_t` that read results. -/
structure Provider where
  Param : Type
  sqlQuery : Outcome → QueryResult × Param
  sqlNumFields : Param → Nat
  sqlFetchRow : Param → Except Fault (Option (List SqlCell) × Param)

/-! ### SQLite -/

/-- What `sqlite3_step` yields. -/
inductive SqliteStep where
  | error
  | done
  | row (current : List Cell) (rest : List (List Cell))

def sqlite3Step : List (List Cell) → SqliteStep
  | [] => .done
  | current :: rest => .row current rest

/-- `sqlite_param_t`. -/
structure SqliteParam where
  row : SqliteStep
  fields : Nat

def sqlQuerySqlite (outcome : Outcome) : QueryResult × SqliteParam :=
  match outcome with
  | .failed => (.error, ⟨.error, 0⟩)
  | .done => (.done, ⟨.done, 0⟩)
  | .selected set =>
    match sqlite3Step set.rows with
    | .row current rest => (.row, ⟨.row current rest, set.fields⟩)
    | step => (.done, ⟨step, 0⟩)

/-- `strdup` of the text of each column. -/
def copyCells : List Cell → Except Fault (List SqlCell)
  | [] => .ok []
  | none :: _ => .error .nullPointer
  | some text :: cells => do
    let copied ← copyCells cells
    return ⟨some text, text.length⟩ :: copied

def sqlFetchRowSqlite (param : SqliteParam) : Except Fault (Option (List SqlCell) × SqliteParam) :=
  match param.row with
  | .row current rest => do
    let row ← copyCells current
    return (some row, { param with row := sqlite3Step rest })
  | _ => .ok (none, param)

@[reducible] def sqliteProvider : Provider where
  Param := SqliteParam
  sqlQuery := sqlQuerySqlite
  sqlNumFields := SqliteParam.fields
  sqlFetchRow := sqlFetchRowSqlite

/-! ### MySQL -/

/-- `mysql_param_t`: the stored result with the rows that are left. -/
structure MysqlParam where
  result : Option ResultSet

/-- `mysql_store_result`: not NULL for every `SELECT`. -/
def mysqlStoreResult : Outcome → Option ResultSet
  | .selected set => some set
  | _ => none

def sqlQueryMysql (outcome : Outcome) : QueryResult × MysqlParam :=
  match outcome with
  | .failed => (.error, ⟨none⟩)
  | outcome =>
    match mysqlStoreResult outcome with
    | some set => (.row, ⟨some set⟩)
    | none => (.done, ⟨none⟩)

/-- The columns point into the stored result. -/
def pointCells (cells : List Cell) : List SqlCell :=
  cells.map fun cell => ⟨cell, (cell.map List.length).getD 0⟩

def sqlFetchRowMysql (param : MysqlParam) : Except Fault (Option (List SqlCell) × MysqlParam) :=
  match param.result with
  | none => .error .nullPointer
  | some set =>
    match set.rows with
    | [] => .ok (none, param)
    | row :: rest => .ok (some (pointCells row), ⟨some { set with rows := rest }⟩)

@[reducible] def mysqlProvider : Provider where
  Param := MysqlParam
  sqlQuery := sqlQueryMysql
  sqlNumFields := fun param => (param.result.map ResultSet.fields).getD 0
  sqlFetchRow := sqlFetchRowMysql

/-! ### Over either provider -/

/-- A `SELECT` of text columns. -/
def selectTexts (fields : Nat) (rows : List (List Bytes)) : Outcome :=
  .selected ⟨fields, rows.map fun row => row.map some⟩

def AccountBasic.texts (row : AccountBasic) : List Bytes :=
  [row.uuid, row.pwd, row.nickname, row.comment, row.createdTime]

def AccountAdmin.texts (row : AccountAdmin) : List Bytes :=
  [row.uuid, ascii (toString row.licenseType), row.licensedTime, row.expiredTime, row.createTime]

def AccountChild.texts (row : AccountChild) : List Bytes :=
  [row.uuid, row.refAdminUuid, row.createTime]

def DeviceBasic.texts (row : DeviceBasic) : List Bytes :=
  [row.uuid, row.pluginName, row.ip, ascii (toString row.port), row.user, row.pwd,
    ascii (toString row.channel), row.segFolder, ascii (toString row.segInCount),
    ascii (toString row.segPerSec), row.createdTime]

namespace Provider
variable (provider : Provider)

/-- `while (sql_fetch_row(sql, &row))`, the rows in order. -/
def fetchLoop : Nat → provider.Param → Except Fault (Option (List (List SqlCell)))
  | 0, _ => .ok none
  | fuel + 1, param => do
    let (row, param) ← provider.sqlFetchRow param
    match row with
    | none => return some []
    | some row =>
      let rows ← fetchLoop fuel param
      return rows.map (row :: ·)

def dbExec (outcome : Outcome) : QueryResult := (provider.sqlQuery outcome).1

variable (store : Store)

/-- Whether `db_account_license_get` finds one; the callers here read nothing else of it. -/
def dbAccountLicenseGet (uuid : Bytes) : Except Fault Bool :=
  let (queryR, param) := provider.sqlQuery (selectTexts 5
    ((store.admin.select fun row => decide (row.uuid = uuid)).map AccountAdmin.texts))
  if queryR ≠ .row then .ok false
  else if provider.sqlNumFields param ≠ 5 then .ok false
  else do
    let (row, _) ← provider.sqlFetchRow param
    return row.isSome

/-- The admin of a child, if it is in `t_account_child`. -/
def refAdminUuid (ambient : Ambient) (uuid : Bytes) : Except Fault Bytes :=
  let (queryR, param) := provider.sqlQuery (selectTexts 3
    ((store.child.select fun row => decide (row.uuid = uuid)).map AccountChild.texts))
  if queryR ≠ .row then .ok []
  else if provider.sqlNumFields param ≠ 3 then .ok []
  else do
    let (row, _) ← provider.sqlFetchRow param
    match row with
    | none => return []
    | some row =>
      match (row[1]? : Option SqlCell) with
      | some ⟨some data, _⟩ => return strncpyUuid data ambient.junkRef
      | some ⟨none, _⟩ => .error .nullPointer
      | none => .error .outOfBounds

def dbAccountCheckUserExist (ambient : Ambient) (uuid : Bytes) : Except Fault (Option UserExist) :=
  if provider.dbExec (selectTexts 5
      ((store.basic.select fun row => decide (row.uuid = uuid)).map AccountBasic.texts)) = .row then do
    let rootR ← provider.dbAccountLicenseGet store uuid
    if rootR then return some ⟨true, []⟩
    else
      let refAdminUuid ← provider.refAdminUuid store ambient uuid
      return some ⟨false, refAdminUuid⟩
  else .ok none

def dbAccountCheckUserIsOk (hash : Bytes → Bytes) (ambient : Ambient) (uuid pwd : Bytes) :
    Except Fault (Option UserExist) :=
  if provider.dbExec (selectTexts 5 ((store.basic.select fun row =>
      decide (row.uuid = uuid) && decide (row.pwd = hash pwd)).map AccountBasic.texts)) = .row then
    provider.dbAccountCheckUserExist store ambient uuid
  else .ok none

def dbAccountDeviceCheckExist (refAdminUuid ip : Bytes) (port channel : Int) : Bool :=
  provider.dbExec (selectTexts 11 ((store.deviceBasic.select fun row =>
    decide (row.ip = ip) && decide (row.port = port) && decide (row.channel = channel) &&
      decide (row.uuid ∈ (store.accountDevice.select fun device =>
        decide (device.refAdminUuid = refAdminUuid)).map AccountDevice.uuid)).map
          DeviceBasic.texts)) = .row

def dbAccountDeviceWorkpathValid (workpath : Bytes) : Bool :=
  provider.dbExec (selectTexts 11 ((store.deviceBasic.select fun row =>
    decide (row.segFolder = workpath)).map DeviceBasic.texts)) = .row

end Provider

/-- A statement through the providers, or one of the checks. -/
inductive ProviderUse where
  | statement (outcome : Outcome)
  | checkUserExist (uuid : Bytes)
  | checkUserIsOk (uuid pwd : Bytes)
  | deviceCheckExist (refAdminUuid ip : Bytes) (port channel : Int)
  | deviceWorkpathValid (workpath : Bytes)

/-- A statement gives the same result over both providers, `e_query_row` exactly if there is a
row, and then the loop gets the same rows. -/
structure SameStatement (outcome : Outcome) : Prop where
  result : (mysqlProvider.sqlQuery outcome).1 = (sqliteProvider.sqlQuery outcome).1
  row_iff : (mysqlProvider.sqlQuery outcome).1 = .row ↔
    ∃ set, outcome = .selected set ∧ set.rows ≠ []
  rows : (mysqlProvider.sqlQuery outcome).1 = .row → ∀ fuel,
    mysqlProvider.fetchLoop fuel (mysqlProvider.sqlQuery outcome).2 =
      sqliteProvider.fetchLoop fuel (sqliteProvider.sqlQuery outcome).2

namespace ProviderUse

def Same (hash : Bytes → Bytes) (ambient : Ambient) (store : Store) : ProviderUse → Prop
  | .statement outcome => SameStatement outcome
  | .checkUserExist uuid =>
    mysqlProvider.dbAccountCheckUserExist store ambient uuid =
      sqliteProvider.dbAccountCheckUserExist store ambient uuid
  | .checkUserIsOk uuid pwd =>
    mysqlProvider.dbAccountCheckUserIsOk store hash ambient uuid pwd =
      sqliteProvider.dbAccountCheckUserIsOk store hash ambient uuid pwd
  | .deviceCheckExist refAdminUuid ip port channel =>
    mysqlProvider.dbAccountDeviceCheckExist store refAdminUuid ip port channel =
      sqliteProvider.dbAccountDeviceCheckExist store refAdminUuid ip port channel
  | .deviceWorkpathValid workpath =>
    mysqlProvider.dbAccountDeviceWorkpathValid store workpath =
      sqliteProvider.dbAccountDeviceWorkpathValid store workpath

/-- A `SELECT` has a row and its columns are not NULL; of a check, the first `SELECT` has a row. -/
def HasRow (hash : Bytes → Bytes) (store : Store) : ProviderUse → Prop
  | .statement outcome => ∀ set, outcome = .selected set →
      set.rows ≠ [] ∧ ∀ row ∈ set.rows, none ∉ row
  | .checkUserExist uuid => ∃ row ∈ store.basic.rows, row.uuid = uuid
  | .checkUserIsOk uuid pwd => ∃ row ∈ store.basic.rows, row.uuid = uuid ∧ row.pwd = hash pwd
  | .deviceCheckExist refAdminUuid ip port channel => ∃ row ∈ store.deviceBasic.rows,
      row.ip = ip ∧ row.port = port ∧ row.channel = channel ∧
        ∃ device ∈ store.accountDevice.rows, device.refAdminUuid = refAdminUuid ∧
          device.uuid = row.uuid
  | .deviceWorkpathValid workpath => ∃ row ∈ store.deviceBasic.rows, row.segFolder = workpath

end ProviderUse

/-! ### The loop -/

section Loop
variable {provider : Provider} {param next : provider.Param}

theorem Provider.fetchLoop_next {row : List SqlCell}
    (first : provider.sqlFetchRow param = .ok (some row, next)) (fuel : Nat) :
    provider.fetchLoop (fuel + 1) param =
      (fun rows => rows.map (row :: ·)) <$> provider.fetchLoop fuel next := by
  rw [Provider.fetchLoop, first]
  rfl

theorem Provider.fetchLoop_fault {fault : Fault} (first : provider.sqlFetchRow param = .error fault)
    (fuel : Nat) : provider.fetchLoop (fuel + 1) param = .error fault := by
  rw [Provider.fetchLoop, first]
  rfl

end Loop

theorem fetchLoop_mysql (set : ResultSet) (fuel : Nat) :
    mysqlProvider.fetchLoop fuel (⟨some set⟩ : MysqlParam) =
      .ok (if set.rows.length < fuel then some (set.rows.map pointCells) else none) := by
  obtain ⟨fields, rows⟩ := set
  induction rows generalizing fuel with
  | nil => cases fuel <;> rfl
  | cons row rows ih =>
    cases fuel with
    | zero => rfl
    | succ fuel =>
      have first : mysqlProvider.sqlFetchRow (⟨some ⟨fields, row :: rows⟩⟩ : MysqlParam) =
        .ok (some (pointCells row), (⟨some ⟨fields, rows⟩⟩ : MysqlParam)) := rfl
      apply (Provider.fetchLoop_next first fuel).trans
      rw [ih fuel]
      simp only [List.length_cons, Nat.add_lt_add_iff_right]
      split <;> rfl

theorem copyCells_ok {cells : List Cell} (known : none ∉ cells) :
    copyCells cells = .ok (pointCells cells) := by
  induction cells with
  | nil => rfl
  | cons cell cells ih =>
    obtain ⟨first, later⟩ := not_or.mp (mt List.mem_cons.mpr known)
    cases cell with
    | none => exact absurd rfl first
    | some text =>
      rw [copyCells, ih later]
      rfl

theorem copyCells_null {cells : List Cell} (null : none ∈ cells) :
    copyCells cells = .error .nullPointer := by
  induction cells with
  | nil => cases null
  | cons cell cells ih =>
    cases cell with
    | none => rfl
    | some text =>
      rcases List.mem_cons.mp null with impossible | later
      · cases impossible
      · rw [copyCells, ih later]
        rfl

theorem sqlFetchRowSqlite_row {current : List Cell} (known : none ∉ current)
    (rest : List (List Cell)) (fields : Nat) :
    sqlFetchRowSqlite ⟨.row current rest, fields⟩ =
      .ok (some (pointCells current), ⟨sqlite3Step rest, fields⟩) := by
  simp only [sqlFetchRowSqlite, copyCells_ok known]
  rfl

theorem fetchLoop_sqlite {rows : List (List Cell)} (known : ∀ row ∈ rows, none ∉ row)
    (fields fuel : Nat) : sqliteProvider.fetchLoop fuel (⟨sqlite3Step rows, fields⟩ : SqliteParam) =
      .ok (if rows.length < fuel then some (rows.map pointCells) else none) := by
  induction rows generalizing fuel with
  | nil => cases fuel <;> rfl
  | cons row rows ih =>
    cases fuel with
    | zero => rfl
    | succ fuel =>
      have first := sqlFetchRowSqlite_row (known row List.mem_cons_self) rows fields
      apply (Provider.fetchLoop_next first fuel).trans
      rw [ih (fun other member => known other (List.mem_cons_of_mem _ member)) fuel]
      simp only [List.length_cons, Nat.add_lt_add_iff_right]
      split <;> rfl

theorem fetchLoop_null {rows : List (List Cell)} (null : ∃ row ∈ rows, none ∈ row) (fields : Nat) :
    sqliteProvider.fetchLoop (rows.length + 1) (⟨sqlite3Step rows, fields⟩ : SqliteParam) =
      .error .nullPointer := by
  induction rows with
  | nil =>
    obtain ⟨row, member, _⟩ := null
    cases member
  | cons row rows ih =>
    by_cases here : none ∈ row
    · have first : sqlFetchRowSqlite ⟨.row row rows, fields⟩ = .error .nullPointer := by
        simp only [sqlFetchRowSqlite, copyCells_null here]
        rfl
      exact Provider.fetchLoop_fault first _
    · have first := sqlFetchRowSqlite_row here rows fields
      have rest : ∃ row ∈ rows, none ∈ row := by
        obtain ⟨other, member, found⟩ := null
        rcases List.mem_cons.mp member with rfl | later
        · exact absurd found here
        · exact ⟨other, later, found⟩
      rw [List.length_cons]
      apply (Provider.fetchLoop_next first _).trans
      rw [ih rest]
      rfl

/-! ### Statements -/

theorem sqlQuerySqlite_empty {set : ResultSet} (none : set.rows = []) :
    sqlQuerySqlite (.selected set) = (.done, ⟨.done, 0⟩) := by
  rw [sqlQuerySqlite, none]
  rfl

theorem sqlQuerySqlite_rows {set : ResultSet} (some : set.rows ≠ []) :
    sqlQuerySqlite (.selected set) = (.row, ⟨sqlite3Step set.rows, set.fields⟩) := by
  obtain ⟨row, rows, split⟩ := List.exists_cons_of_ne_nil some
  rw [sqlQuerySqlite, split]
  rfl

private theorem sameStatement_iff (outcome : Outcome) : SameStatement outcome ↔
    ∀ set, outcome = .selected set → set.rows ≠ [] ∧ ∀ row ∈ set.rows, none ∉ row := by
  cases outcome with
  | failed =>
    refine iff_of_true ⟨rfl, ?_, fun row => nomatch row⟩ fun set same => nomatch same
    exact iff_of_false (fun row => nomatch row) fun ⟨_, same, _⟩ => nomatch same
  | done =>
    refine iff_of_true ⟨rfl, ?_, fun row => nomatch row⟩ fun set same => nomatch same
    exact iff_of_false (fun row => nomatch row) fun ⟨_, same, _⟩ => nomatch same
  | selected set =>
    constructor
    · rintro ⟨result, _, rows⟩ other same
      cases same
      have filled : set.rows ≠ [] := by
        intro none
        have empty := congrArg Prod.fst (sqlQuerySqlite_empty none)
        cases result.trans empty
      refine ⟨filled, fun row member null => ?_⟩
      have loops := rows rfl (set.rows.length + 1)
      have over_sqlite := fetchLoop_null ⟨row, member, null⟩ set.fields
      have param := congrArg Prod.snd (sqlQuerySqlite_rows filled)
      change mysqlProvider.fetchLoop _ (⟨some set⟩ : MysqlParam) =
        sqliteProvider.fetchLoop _ (sqlQuerySqlite (.selected set)).2 at loops
      rw [param, over_sqlite, fetchLoop_mysql] at loops
      cases loops
    · intro clean
      obtain ⟨filled, known⟩ := clean set rfl
      have query := sqlQuerySqlite_rows filled
      refine ⟨(congrArg Prod.fst query).symm, iff_of_true rfl ⟨set, rfl, filled⟩, fun _ fuel => ?_⟩
      change mysqlProvider.fetchLoop _ (⟨some set⟩ : MysqlParam) =
        sqliteProvider.fetchLoop _ (sqlQuerySqlite (.selected set)).2
      rw [query, fetchLoop_mysql, fetchLoop_sqlite known]

/-! ### Checks -/

theorem dbExec_mysql (fields : Nat) (rows : List (List Bytes)) :
    mysqlProvider.dbExec (selectTexts fields rows) = .row := rfl

theorem dbExec_sqlite (fields : Nat) (rows : List (List Bytes)) :
    sqliteProvider.dbExec (selectTexts fields rows) = if rows = [] then .done else .row := by
  cases rows <;> rfl

theorem select_account {store : Store} {uuid : Bytes} :
    (store.basic.select fun row => decide (row.uuid = uuid)) ≠ [] ↔ uuid ∈ store.basic.keys := by
  rw [Table.select_ne_nil, Table.mem_keys]
  simp

def Provider.Known (provider : Provider) : Prop :=
  provider = mysqlProvider ∨ provider = sqliteProvider

section Known
variable {provider : Provider} (known : provider.Known) (store : Store)
include known

theorem dbAccountLicenseGet_known (uuid : Bytes) : provider.dbAccountLicenseGet store uuid =
    .ok (Db.dbAccountLicenseGet store uuid).isSome := by
  unfold Provider.dbAccountLicenseGet Db.dbAccountLicenseGet
  cases store.admin.select fun row => decide (row.uuid = uuid) with
  | nil => rcases known with rfl | rfl <;> rfl
  | cons row rows => rcases known with rfl | rfl <;> rfl

theorem refAdminUuid_known (ambient : Ambient) (uuid : Bytes) :
    provider.refAdminUuid store ambient uuid =
      .ok (((store.child.select fun row => decide (row.uuid = uuid)).head?.map fun row =>
        strncpyUuid row.refAdminUuid ambient.junkRef).getD []) := by
  unfold Provider.refAdminUuid
  cases store.child.select fun row => decide (row.uuid = uuid) with
  | nil => rcases known with rfl | rfl <;> rfl
  | cons row rows => rcases known with rfl | rfl <;> rfl

/-- Of an account that is listed, either provider says what the store does. -/
theorem dbAccountCheckUserExist_listed (ambient : Ambient) {uuid : Bytes}
    (listed : uuid ∈ store.basic.keys) : provider.dbAccountCheckUserExist store ambient uuid =
      .ok (Db.dbAccountCheckUserExist store ambient uuid) := by
  have some := select_account.mpr listed
  have rows : provider.dbExec (selectTexts 5 ((store.basic.select fun row =>
      decide (row.uuid = uuid)).map AccountBasic.texts)) = .row := by
    rcases known with rfl | rfl
    · rfl
    · rw [dbExec_sqlite, if_neg (mt List.map_eq_nil_iff.mp some)]
  rw [Provider.dbAccountCheckUserExist, if_pos rows, dbAccountLicenseGet_known known,
    refAdminUuid_known known, Db.dbAccountCheckUserExist, if_pos listed]
  cases Db.dbAccountLicenseGet store uuid with
  | some license => rfl
  | none =>
    cases (store.child.select fun row => decide (row.uuid = uuid)).head? <;> rfl

end Known

private theorem sqlite_dbAccountCheckUserExist (store : Store) (ambient : Ambient) (uuid : Bytes) :
    sqliteProvider.dbAccountCheckUserExist store ambient uuid =
      .ok (Db.dbAccountCheckUserExist store ambient uuid) := by
  by_cases listed : uuid ∈ store.basic.keys
  · exact dbAccountCheckUserExist_listed (.inr rfl) store ambient listed
  · have none : (store.basic.select fun row => decide (row.uuid = uuid)) = [] := by
      by_contra some
      exact listed (select_account.mp some)
    rw [Provider.dbAccountCheckUserExist, dbExec_sqlite, none, Db.dbAccountCheckUserExist,
      if_neg listed]
    rfl

private theorem mysql_dbAccountCheckUserExist (store : Store) (ambient : Ambient) (uuid : Bytes) :
    ∃ user, mysqlProvider.dbAccountCheckUserExist store ambient uuid = .ok (some user) := by
  rw [Provider.dbAccountCheckUserExist, if_pos (dbExec_mysql _ _), dbAccountLicenseGet_known (.inl rfl),
    refAdminUuid_known (.inl rfl)]
  cases Db.dbAccountLicenseGet store uuid with
  | some license => exact ⟨_, rfl⟩
  | none => exact ⟨_, rfl⟩

private theorem checkUserExist_same_iff (store : Store) (ambient : Ambient) (uuid : Bytes) :
    mysqlProvider.dbAccountCheckUserExist store ambient uuid =
      sqliteProvider.dbAccountCheckUserExist store ambient uuid ↔ uuid ∈ store.basic.keys := by
  constructor
  · intro same
    obtain ⟨user, found⟩ := mysql_dbAccountCheckUserExist store ambient uuid
    rw [found, sqlite_dbAccountCheckUserExist] at same
    rw [← dbAccountCheckUserExist_isSome store ambient, ← Except.ok.inj same]
    rfl
  · intro listed
    rw [sqlite_dbAccountCheckUserExist, dbAccountCheckUserExist_listed (.inl rfl) store ambient listed]

private theorem checkUserIsOk_same_iff (hash : Bytes → Bytes) (store : Store) (ambient : Ambient)
    (uuid pwd : Bytes) : mysqlProvider.dbAccountCheckUserIsOk store hash ambient uuid pwd =
      sqliteProvider.dbAccountCheckUserIsOk store hash ambient uuid pwd ↔
        ∃ row ∈ store.basic.rows, row.uuid = uuid ∧ row.pwd = hash pwd := by
  rw [Provider.dbAccountCheckUserIsOk, if_pos (dbExec_mysql _ _), Provider.dbAccountCheckUserIsOk,
    dbExec_sqlite]
  have row_iff : (store.basic.select fun row =>
      decide (row.uuid = uuid) && decide (row.pwd = hash pwd)) ≠ [] ↔
        ∃ row ∈ store.basic.rows, row.uuid = uuid ∧ row.pwd = hash pwd := by
    rw [Table.select_ne_nil]
    simp only [Bool.and_eq_true, decide_eq_true_eq]
  rw [← row_iff]
  cases rows : store.basic.select fun row =>
      decide (row.uuid = uuid) && decide (row.pwd = hash pwd) with
  | nil =>
    apply iff_of_false
    · intro same
      obtain ⟨user, found⟩ := mysql_dbAccountCheckUserExist store ambient uuid
      rw [found] at same
      cases same
    · exact fun some => some rfl
  | cons row rest =>
    have some := List.cons_ne_nil row rest
    rw [← rows] at some
    obtain ⟨account, listed, same, _⟩ := row_iff.mp some
    apply iff_of_true
    · exact (checkUserExist_same_iff store ambient uuid).mpr (same ▸ Table.key_mem listed)
    · exact List.cons_ne_nil row rest

theorem dbExec_same_iff (fields : Nat) (rows : List (List Bytes)) :
    decide (mysqlProvider.dbExec (selectTexts fields rows) = .row) =
      decide (sqliteProvider.dbExec (selectTexts fields rows) = .row) ↔ rows ≠ [] := by
  rw [dbExec_mysql, dbExec_sqlite]
  cases rows <;> simp

theorem use_same_iff (hash : Bytes → Bytes) (ambient : Ambient) (store : Store) (use : ProviderUse) :
    use.Same hash ambient store ↔ use.HasRow hash store := by
  cases use with
  | statement outcome => exact sameStatement_iff outcome
  | checkUserExist uuid =>
    exact (checkUserExist_same_iff store ambient uuid).trans Table.mem_keys
  | checkUserIsOk uuid pwd => exact checkUserIsOk_same_iff hash store ambient uuid pwd
  | deviceCheckExist refAdminUuid ip port channel =>
    apply (dbExec_same_iff _ _).trans
    rw [ne_eq, List.map_eq_nil_iff, ← ne_eq, Table.select_ne_nil]
    simp only [Bool.and_eq_true, decide_eq_true_eq, List.mem_map, Table.mem_select, and_assoc,
      ProviderUse.HasRow]
  | deviceWorkpathValid workpath =>
    apply (dbExec_same_iff _ _).trans
    rw [ne_eq, List.map_eq_nil_iff, ← ne_eq, Table.select_ne_nil]
    simp only [decide_eq_true_eq, ProviderUse.HasRow]

/-- Over MySQL every password is right. -/
theorem not_same_password : ¬ (ProviderUse.checkUserIsOk (ascii "adm") (ascii "guess")).Same id
    ⟨[50], [], []⟩ .init := by
  intro same
  cases same

end Livezure.Db
