import Livezure.Db.Devices
import Livezure.Db.Statements

/-! The statements that each call of `db_account.c` prints to its `sqlbuf`, and how long they get. -/
namespace Livezure.Db
open Livezure.Core

/-- The text and its NUL are within `sqlbuf`. -/
def Statement.Fits (statement : Statement) : Prop :=
  (render singleQuote statement.format).length + 1 ≤ statement.sqlbuf

instance (statement : Statement) : Decidable statement.Fits := inferInstanceAs (Decidable (_ ≤ _))

theorem Statement.fits_iff_print (statement : Statement) :
    statement.Fits ↔ ∃ text, statement.print = .ok text := by
  unfold Statement.Fits Statement.print
  dsimp only
  constructor
  · exact fun fits => ⟨_, if_pos fits⟩
  · rintro ⟨text, printed⟩
    split at printed
    · rename_i fits
      exact fits
    · cases printed

/-- What is given for `%d`. -/
def Statement.numbers : Statement → List Int
  | licenseSet _ licenseType _ _ => [licenseType]
  | deviceAddBasic _ _ _ port _ _ channel _ segInCount segPerSec =>
    [port, channel, segInCount, segPerSec]
  | deviceCheckExist _ port channel _ => [port, channel]
  | _ => []

/-- No text is longer than the longest member of a struct, `comment`, and each number is an `int`. -/
structure Statement.Cut (statement : Statement) : Prop where
  texts : ∀ field ∈ fields statement.format, field.length ≤ 256
  numbers : ∀ value ∈ statement.numbers, Service.IsInt value

/-- A device as its handler has cut it. -/
structure Device.Cut (device : Device) : Prop where
  fits : device.Fits
  numbers : ∀ value ∈ [device.port, device.channel, device.segInCount, device.segPerSec],
    Service.IsInt value

/-! ### The calls -/

section
variable (store : Store) (ambient : Ambient)

/-- `db_account_check_user_exist`; either of its pointers may be NULL. -/
def userExistPrints (asksAdmin asksRef : Bool) (uuid : Bytes) : List Statement :=
  .checkUserExist uuid ::
    if uuid ∈ store.basic.keys then
      (if asksAdmin then [.licenseGet uuid] else []) ++
        if asksRef && !(asksAdmin && (dbAccountLicenseGet store uuid).isSome) then
          [.checkUserExistChild uuid]
        else []
    else []

def userIsOkPrints (hash : Bytes → Bytes) (asksAdmin asksRef : Bool) (uuid pwd : Bytes) :
    List Statement :=
  .checkUserIsOk uuid (hash pwd) ::
    if (store.basic.select fun row =>
        decide (row.uuid = uuid) && decide (row.pwd = hash pwd)) = [] then []
    else userExistPrints store asksAdmin asksRef uuid

/-- `db_account_license_set`, with the deletion of a license that is there. -/
def licenseSetPrints (uuid : Bytes) (license : AccountLicense) : List Statement :=
  .licenseGet uuid ::
    (match dbAccountLicenseGet store uuid with
      | none => []
      | some _ => .checkUserExist uuid :: if uuid ∈ store.basic.keys then [.licenseDel uuid] else []) ++
    [.licenseSet uuid license.licenseType license.licensedTime license.expiredTime]

def adminAddPrints (hash : Bytes → Bytes) (account : NewAccount) : List Statement :=
  .licenseGet account.uuid ::
    match dbAccountLicenseGet store account.uuid with
    | some _ => []
    | none =>
      let lowerUuid := worldTolower (strncpyUuid account.uuid ambient.junk)
      let (_, store) := insertBasic store
        ⟨lowerUuid, hash account.pwd, account.nickname, account.comment, ambient.now⟩
      .adminAdd lowerUuid (hash account.pwd) account.nickname account.comment ::
        licenseSetPrints store lowerUuid checkingLicense

def childAddPrints (hash : Bytes → Bytes) (refAdminUuid : Bytes) (account : NewAccount) :
    List Statement :=
  let lowerRefAdminUuid := worldTolower (strncpyUuid refAdminUuid ambient.junkRef)
  userExistPrints store false false lowerRefAdminUuid ++
    match dbAccountCheckUserExist store ambient lowerRefAdminUuid with
    | none => []
    | some _ =>
      let lowerUuid := worldTolower (strncpyUuid account.uuid ambient.junk)
      .childAddBasic lowerUuid (hash account.pwd) account.nickname account.comment ::
        match insertBasic store
            ⟨lowerUuid, hash account.pwd, account.nickname, account.comment, ambient.now⟩ with
        | (false, _) => []
        | (true, _) => [.childAddChild lowerUuid lowerRefAdminUuid]

def childDelPrints (refAdminUuid specifiedUuid : Bytes) : List Statement :=
  [.childDelOne refAdminUuid specifiedUuid, .childDelBasicOne specifiedUuid]

/-- `db_account_admin_del`; the account is gone when its license is asked for. -/
def adminDelPrints (uuid : Bytes) : List Statement :=
  [.adminDelBasic uuid, .adminDelAdmin uuid, .checkUserExist uuid, .childDelAll uuid,
    .childDelBasicAll uuid, .deviceDelBasicAll uuid, .deviceDelAll uuid]

/-- The list of one account: an admin, or a child whose admin's uuid has been copied. -/
def listOnePrint (user : UserExist) (uuid : Bytes) : Statement :=
  if user.isAdmin then .listAdminGetOne uuid else .listChildGetOne user.refAdminUuid uuid

def updatePrints (hash : Bytes → Bytes) (uuid : Bytes) (account : NewAccount) : List Statement :=
  userExistPrints store true true uuid ++
    match dbAccountCheckUserExist store ambient uuid with
    | none => []
    | some user =>
      let old := if user.isAdmin then dbAccountListAdminGet store (some uuid)
        else dbAccountListChildGet store user.refAdminUuid (some uuid)
      listOnePrint user uuid ::
        match old with
        | some [_] => [.update (hash account.pwd) account.nickname account.comment uuid]
        | _ => []

def deviceAddPrints (refAdminUuid : Bytes) (device : Device) : List Statement :=
  userExistPrints store true false refAdminUuid ++
    match dbAccountCheckUserExist store ambient refAdminUuid with
    | some ⟨true, _⟩ =>
      .deviceCheckExist device.ip device.port device.port refAdminUuid ::
        if dbAccountDeviceCheckExist store refAdminUuid device.ip device.port device.port then []
        else
          .deviceAddBasic device.uuid device.pluginName device.ip device.port device.user device.pwd
              device.channel device.segFolder device.segInCount device.segPerSec ::
            match store.deviceBasic.insert ⟨device.uuid, device.pluginName, device.ip, device.port,
                device.user, device.pwd, device.channel, device.segFolder, device.segInCount,
                device.segPerSec, ambient.now⟩ with
            | none => []
            | some _ => [.deviceAddAccount device.uuid refAdminUuid device.nickname device.comment
                device.isTopLevel device.refParentUuid]
    | _ => []

def deviceDelPrints (refAdminUuid specifiedUuid : Bytes) : List Statement :=
  [.deviceDelBasicOne specifiedUuid refAdminUuid, .deviceDelOne specifiedUuid refAdminUuid]

end

/-! ### Texts that nothing cuts -/

/-- The copy of a child's `ref_admin_uuid` that is not terminated, with what stands behind it. -/
def RefShort (store : Store) (ambient : Ambient) (uuid : Bytes) : Prop :=
  uuid ∈ store.basic.keys → uuid ∉ store.admin.keys → ∀ row ∈ store.child.rows, row.uuid = uuid →
    (strncpyUuid row.refAdminUuid ambient.junkRef).length + uuid.length ≤ 3981

/-- The copies that `db_account_child_add` makes, as far as it gets. -/
def CopiesShort (hash : Bytes → Bytes) (store : Store) (ambient : Ambient) (refAdminUuid : Bytes)
    (account : NewAccount) : Prop :=
  let lowerRefAdminUuid := worldTolower (strncpyUuid refAdminUuid ambient.junkRef)
  let lowerUuid := worldTolower (strncpyUuid account.uuid ambient.junk)
  lowerRefAdminUuid.length ≤ 4052 ∧ (lowerRefAdminUuid ∈ store.basic.keys →
    lowerUuid.length + (hash account.pwd).length + account.nickname.length +
        account.comment.length ≤ 4019 ∧
      (lowerUuid ∉ store.basic.keys → lowerUuid.length + lowerRefAdminUuid.length ≤ 4031))

/-! ### Exact lengths -/

section Lengths
variable {uuid refAdminUuid hashpwd nickname comment : Bytes}

private theorem checkUserExist_fits : (Statement.checkUserExist uuid).Fits ↔ uuid.length ≤ 4052 := by
  have length : (render singleQuote (Statement.checkUserExist uuid).format).length =
      43 + (uuid.length + 0) := length_render _ _
  rw [Statement.Fits, length]
  change 43 + (uuid.length + 0) + 1 ≤ 4096 ↔ _
  omega

private theorem childAddBasic_fits : (Statement.childAddBasic uuid hashpwd nickname comment).Fits ↔
    uuid.length + hashpwd.length + nickname.length + comment.length ≤ 4019 := by
  have length : (render singleQuote
      (Statement.childAddBasic uuid hashpwd nickname comment).format).length =
      76 + (uuid.length + (hashpwd.length + (nickname.length + (comment.length + 0)))) :=
    length_render _ _
  rw [Statement.Fits, length]
  change _ + 1 ≤ 4096 ↔ _
  omega

private theorem childAddChild_fits : (Statement.childAddChild uuid refAdminUuid).Fits ↔
    uuid.length + refAdminUuid.length ≤ 4031 := by
  have length : (render singleQuote (Statement.childAddChild uuid refAdminUuid).format).length =
      64 + (uuid.length + (refAdminUuid.length + 0)) := length_render _ _
  rw [Statement.Fits, length]
  change _ + 1 ≤ 4096 ↔ _
  omega

theorem listChildGetOne_fits : (Statement.listChildGetOne refAdminUuid uuid).Fits ↔
    refAdminUuid.length + uuid.length ≤ 3981 := by
  have length : (render singleQuote (Statement.listChildGetOne refAdminUuid uuid).format).length =
      114 + (refAdminUuid.length + (uuid.length + 0)) := length_render _ _
  rw [Statement.Fits, length]
  change _ + 1 ≤ 4096 ↔ _
  omega

private theorem deviceGetQuery_width : width deviceGetQuery = 502 := by decide +kernel

theorem deviceGetAll_fits : (Statement.deviceGetAll refAdminUuid).Fits ↔
    refAdminUuid.length ≤ 519 := by
  have length : (render singleQuote (Statement.deviceGetAll refAdminUuid).format).length =
      502 + 2 + (refAdminUuid.length + 0) := by
    rw [length_render, Statement.format, width_append, deviceGetQuery_width]
    rfl
  rw [Statement.Fits, length]
  change _ + 1 ≤ 1024 ↔ _
  omega

theorem deviceGetOne_fits : (Statement.deviceGetOne refAdminUuid uuid).Fits ↔
    refAdminUuid.length + uuid.length ≤ 490 := by
  have length : (render singleQuote (Statement.deviceGetOne refAdminUuid uuid).format).length =
      502 + 31 + (refAdminUuid.length + (uuid.length + 0)) := by
    rw [length_render, Statement.format, width_append, deviceGetQuery_width]
    rfl
  rw [Statement.Fits, length]
  change _ + 1 ≤ 1024 ↔ _
  omega

end Lengths

/-! ### Texts that are cut -/

theorem decimal_length {value : Int} (small : Service.IsInt value) :
    (Service.decimal value).length ≤ 11 := by
  have digits : ∀ value : Nat, value ≤ 2 ^ 31 → (Service.digitsOf value).length ≤ 10 := by
    intro value limit
    rw [Service.digitsOf_eq, List.length_map]
    exact (Nat.length_toDigits_le_iff (by decide) (by decide)).mpr (by omega)
  obtain ⟨low, high⟩ := small
  cases value with
  | ofNat value =>
    rw [Int.ofNat_eq_natCast] at high
    exact Nat.le_succ_of_le (digits value (by omega))
  | negSucc value =>
    rw [Service.decimal_negSucc, List.length_cons]
    exact Nat.succ_le_succ (digits (value + 1) (by omega))

section Parts
variable {chars : List Char} {text : String} {field : Bytes} {value : Int}
variable {rest : List (Piece UInt8)}

private theorem sql_short (short : Nat.ble chars.length 90 = true) :
    (ascii (String.ofList chars)).length ≤ 90 := by
  rw [ascii, String.toList_ofList, List.length_map]
  exact Nat.le_of_ble_eq_true short

private theorem shortParts_sql (short : (ascii text).length ≤ 90) :
    ShortParts 90 (sql text :: rest) ↔ ShortParts 90 rest := and_iff_right short

private theorem shortParts_number (small : Service.IsInt value) :
    ShortParts 90 (number value :: rest) ↔ ShortParts 90 rest :=
  and_iff_right (Nat.le_trans (decimal_length small) (by decide))

private theorem shortParts_quoted : ShortParts 90 (quoted field :: rest) ↔ ShortParts 90 rest := Iff.rfl

private theorem shortParts_nil : ShortParts 90 ([] : List (Piece UInt8)) ↔ True := Iff.rfl

end Parts

theorem Statement.shortParts (statement : Statement)
    (numbers : ∀ value ∈ statement.numbers, Service.IsInt value) :
    ShortParts 90 statement.format := by
  have level : ∀ isTopLevel : Bool, Service.IsInt (if isTopLevel then 1 else 0) := by decide
  cases statement <;>
    simp only [Statement.numbers, List.forall_mem_cons, List.not_mem_nil, false_implies,
      implies_true, and_true] at numbers <;>
    simp (disch := first | exact sql_short rfl | simp only [numbers, level]) only
      [Statement.format, deviceGetQuery, List.cons_append, List.nil_append, shortParts_sql,
      shortParts_number, shortParts_quoted, shortParts_nil]

theorem Statement.parts_le (statement : Statement) :
    statement.format.length ≤ 22 ∧ (fields statement.format).length ≤ 6 := by
  cases statement <;> exact ⟨Nat.le_of_ble_eq_true rfl, Nat.le_of_ble_eq_true rfl⟩

theorem Statement.fits_of_counts {statement : Statement} {largest : Nat}
    (texts : ∀ field ∈ fields statement.format, field.length ≤ largest)
    (numbers : ∀ value ∈ statement.numbers, Service.IsInt value)
    (room : 90 * statement.format.length + (largest + 2) * (fields statement.format).length <
      statement.sqlbuf) : statement.Fits :=
  Nat.lt_of_le_of_lt (length_render_le (statement.shortParts numbers) texts singleQuote) room

theorem Statement.Cut.fits {statement : Statement} (cut : statement.Cut)
    (large : statement.sqlbuf = 4096) : statement.Fits := by
  obtain ⟨parts, few⟩ := statement.parts_le
  refine fits_of_counts cut.texts cut.numbers ?_
  omega

/-- A statement without numbers, by its texts. -/
theorem Statement.fits_of_texts {statement : Statement} {texts : List Bytes}
    (same : fields statement.format = texts) (short : ∀ text ∈ texts, text.length ≤ 256)
    (plain : statement.numbers = []) (large : statement.sqlbuf = 4096) : statement.Fits := by
  refine Cut.fits ⟨same ▸ short, ?_⟩ large
  rw [plain]
  exact fun _ member => absurd member List.not_mem_nil

section Calls
variable {store : Store} {ambient : Ambient} {hash : Bytes → Bytes} {asksAdmin asksRef : Bool}
variable {uuid refAdminUuid pwd : Bytes} {account : NewAccount}

theorem fits_one {statement : Statement} (same : fields statement.format = [uuid])
    (short : uuid.length ≤ 256) (plain : statement.numbers = []) (large : statement.sqlbuf = 4096) :
    statement.Fits := by
  refine Statement.fits_of_texts same ?_ plain large
  rwa [List.forall_mem_singleton]

private theorem fits_two {statement : Statement} (same : fields statement.format = [uuid, refAdminUuid])
    (short : uuid.length ≤ 256) (shortRef : refAdminUuid.length ≤ 256)
    (plain : statement.numbers = []) (large : statement.sqlbuf = 4096) : statement.Fits := by
  refine Statement.fits_of_texts same ?_ plain large
  rw [List.forall_mem_cons, List.forall_mem_singleton]
  exact ⟨short, shortRef⟩

theorem fits_nil : ∀ statement ∈ ([] : List Statement), statement.Fits :=
  fun _ member => absurd member List.not_mem_nil

theorem userExistPrints_fit (short : uuid.length ≤ 256) :
    ∀ statement ∈ userExistPrints store asksAdmin asksRef uuid, statement.Fits := by
  intro statement member
  have listed : statement ∈ [Statement.checkUserExist uuid, .licenseGet uuid,
      .checkUserExistChild uuid] := by
    unfold userExistPrints at member
    rcases List.mem_cons.mp member with rfl | later
    · exact List.mem_cons_self
    · refine List.mem_cons_of_mem _ ?_
      split at later
      · rcases List.mem_append.mp later with license | child
        · split at license
          · rw [List.mem_singleton.mp license]
            exact List.mem_cons_self
          · cases license
        · split at child
          · rw [List.mem_singleton.mp child]
            exact List.mem_cons_of_mem _ (List.mem_singleton_self _)
          · cases child
      · cases later
  simp only [List.mem_cons, List.not_mem_nil, or_false] at listed
  rcases listed with rfl | rfl | rfl <;> exact fits_one rfl short rfl rfl

theorem userIsOkPrints_fit (short : uuid.length ≤ 256) (shortHash : (hash pwd).length ≤ 256) :
    ∀ statement ∈ userIsOkPrints store hash asksAdmin asksRef uuid pwd, statement.Fits := by
  unfold userIsOkPrints
  rw [List.forall_mem_cons]
  refine ⟨fits_two rfl short shortHash rfl rfl, ?_⟩
  split
  · exact fits_nil
  · exact userExistPrints_fit short

theorem childDelPrints_fit (short : uuid.length ≤ 256) (shortRef : refAdminUuid.length ≤ 256) :
    ∀ statement ∈ childDelPrints refAdminUuid uuid, statement.Fits := by
  rw [childDelPrints, List.forall_mem_cons, List.forall_mem_singleton]
  exact ⟨fits_two rfl shortRef short rfl rfl, fits_one rfl short rfl rfl⟩

theorem deviceDelPrints_fit (short : uuid.length ≤ 490) (shortRef : refAdminUuid.length ≤ 490) :
    ∀ statement ∈ deviceDelPrints refAdminUuid uuid, statement.Fits := by
  have texts : ∀ text ∈ [uuid, refAdminUuid], text.length ≤ 490 := by
    rw [List.forall_mem_cons, List.forall_mem_singleton]
    exact ⟨short, shortRef⟩
  have basic : 90 * 5 + (490 + 2) * 2 < 4096 := by decide
  have account : 90 * 4 + (490 + 2) * 2 < 4096 := by decide
  rw [deviceDelPrints, List.forall_mem_cons, List.forall_mem_singleton]
  exact ⟨Statement.fits_of_counts texts nofun basic, Statement.fits_of_counts texts nofun account⟩

theorem deviceAddPrints_fit {device : Device} (short : refAdminUuid.length ≤ 256)
    (cut : device.Cut) :
    ∀ statement ∈ deviceAddPrints store ambient refAdminUuid device, statement.Fits := by
  obtain ⟨⟨uuid, pluginName, ip, user, pwd, segFolder, nickname, comment, refParentUuid⟩,
    numbers⟩ := cut
  have port : Service.IsInt device.port := numbers _ List.mem_cons_self
  have checked : (Statement.deviceCheckExist device.ip device.port device.port refAdminUuid).Cut := by
    constructor
    · change ∀ text ∈ [device.ip, refAdminUuid], text.length ≤ 256
      rw [List.forall_mem_cons, List.forall_mem_singleton]
      omega
    · change ∀ value ∈ [device.port, device.port], Service.IsInt value
      rw [List.forall_mem_cons, List.forall_mem_singleton]
      exact ⟨port, port⟩
  have basic : (Statement.deviceAddBasic device.uuid device.pluginName device.ip device.port
      device.user device.pwd device.channel device.segFolder device.segInCount
      device.segPerSec).Cut := by
    refine ⟨?_, numbers⟩
    change ∀ text ∈ [device.uuid, device.pluginName, device.ip, device.user, device.pwd,
      device.segFolder], text.length ≤ 256
    simp only [List.forall_mem_cons, List.not_mem_nil, false_implies, implies_true, and_true]
    omega
  have account : (Statement.deviceAddAccount device.uuid refAdminUuid device.nickname device.comment
      device.isTopLevel device.refParentUuid).Cut := by
    refine ⟨?_, nofun⟩
    change ∀ text ∈ [device.uuid, refAdminUuid, device.nickname, device.comment,
      device.refParentUuid], text.length ≤ 256
    simp only [List.forall_mem_cons, List.not_mem_nil, false_implies, implies_true, and_true]
    omega
  unfold deviceAddPrints
  rw [List.forall_mem_append]
  refine ⟨userExistPrints_fit short, ?_⟩
  split
  · rw [List.forall_mem_cons]
    refine ⟨checked.fits rfl, ?_⟩
    split
    · exact fits_nil
    · rw [List.forall_mem_cons]
      refine ⟨basic.fits rfl, ?_⟩
      split
      · exact fits_nil
      · rw [List.forall_mem_singleton]
        exact account.fits rfl
  · exact fits_nil

/-! ### Texts that are not terminated -/

/-- What the list of one account is asked for with is what its buffer has been left with. -/
theorem listOnePrint_fits {user : UserExist}
    (found : dbAccountCheckUserExist store ambient uuid = some user) (short : uuid.length ≤ 256) :
    (listOnePrint user uuid).Fits ↔ RefShort store ambient uuid := by
  have known : uuid ∈ store.basic.keys := by
    rw [← dbAccountCheckUserExist_isSome store ambient, found]
    rfl
  have isAdmin := dbAccountCheckUserExist_isAdmin found
  unfold dbAccountCheckUserExist at found
  rw [if_pos known] at found
  unfold listOnePrint RefShort
  cases license : dbAccountLicenseGet store uuid with
  | some value =>
    rw [license] at found
    obtain rfl := Option.some.inj found
    exact iff_of_true (fits_one rfl short rfl rfl)
      fun _ noAdmin => absurd (isAdmin.mp rfl) noAdmin
  | none =>
    have noAdmin := dbAccountLicenseGet_none license
    rw [license] at found
    dsimp only at found
    rw [forall_prop_of_true known, forall_prop_of_true noAdmin]
    cases child : (store.child.select fun row => decide (row.uuid = uuid)).head? with
    | none =>
      rw [child] at found
      obtain rfl := Option.some.inj found
      refine iff_of_true (fits_two rfl (Nat.zero_le _) short rfl rfl) ?_
      rintro row listed rfl
      rw [Table.head_selectKey listed] at child
      cases child
    | some row =>
      rw [child] at found
      obtain rfl := Option.some.inj found
      obtain ⟨listed, same⟩ := Table.mem_select.mp (List.mem_of_mem_head? (Option.mem_def.mpr child))
      rw [decide_eq_true_iff] at same
      refine listChildGetOne_fits.trans ⟨fun room other member named => ?_, fun room => room row listed same⟩
      rw [Table.row_unique member listed (named.trans same.symm)]
      exact room

theorem updatePrints_fit_iff (known : uuid ∈ store.basic.keys) (short : uuid.length ≤ 256)
    (pwd : (hash account.pwd).length ≤ 256) (nickname : account.nickname.length ≤ 256)
    (comment : account.comment.length ≤ 256) :
    (∀ statement ∈ updatePrints store ambient hash uuid account, statement.Fits) ↔
      RefShort store ambient uuid := by
  obtain ⟨user, found⟩ := Option.isSome_iff_exists.mp
    ((dbAccountCheckUserExist_isSome store ambient uuid).mpr known)
  have updated : (Statement.update (hash account.pwd) account.nickname account.comment uuid).Fits := by
    refine Statement.fits_of_texts rfl ?_ rfl rfl
    change ∀ text ∈ [hash account.pwd, account.nickname, account.comment, uuid], text.length ≤ 256
    simp only [List.forall_mem_cons, List.not_mem_nil, false_implies, implies_true, and_true]
    exact ⟨pwd, nickname, comment, short⟩
  unfold updatePrints
  rw [List.forall_mem_append, and_iff_right (userExistPrints_fit short), found]
  dsimp only
  rw [List.forall_mem_cons, listOnePrint_fits found short]
  refine and_iff_left ?_
  split
  · rw [List.forall_mem_singleton]
    exact updated
  · exact fits_nil

theorem childAddPrints_fit_iff :
    (∀ statement ∈ childAddPrints store ambient hash refAdminUuid account, statement.Fits) ↔
      CopiesShort hash store ambient refAdminUuid account := by
  unfold childAddPrints CopiesShort
  dsimp only
  generalize worldTolower (strncpyUuid refAdminUuid ambient.junkRef) = lowerRefAdminUuid
  generalize worldTolower (strncpyUuid account.uuid ambient.junk) = lowerUuid
  have checks : userExistPrints store false false lowerRefAdminUuid =
      [.checkUserExist lowerRefAdminUuid] := by
    unfold userExistPrints
    split <;> rfl
  have exists_ := dbAccountCheckUserExist_isSome store ambient lowerRefAdminUuid
  rw [checks, List.forall_mem_append, List.forall_mem_singleton, checkUserExist_fits]
  refine and_congr_right fun _ => ?_
  cases known : dbAccountCheckUserExist store ambient lowerRefAdminUuid with
  | none =>
    rw [known] at exists_
    exact iff_of_true fits_nil fun listed => absurd (exists_.mpr listed) Bool.false_ne_true
  | some user =>
    rw [known] at exists_
    dsimp only
    rw [forall_prop_of_true (exists_.mp rfl), List.forall_mem_cons, childAddBasic_fits]
    refine and_congr_right fun _ => ?_
    unfold insertBasic
    cases inserted : store.basic.insert ⟨lowerUuid, hash account.pwd, account.nickname,
        account.comment, ambient.now⟩ with
    | none =>
      exact iff_of_true fits_nil fun fresh => absurd (Table.insert_eq_none.mp inserted) fresh
    | some basic =>
      dsimp only
      rw [List.forall_mem_singleton, childAddChild_fits,
        forall_prop_of_true (Table.insert_some inserted).1]

end Calls

end Livezure.Db
