import Livezure.Db.Printing

/-! The buffers of `char[17]` that uuids are lower-cased and handed back in, with whatever the stack
holds: `strncpy` copies 16 characters, and `world_tolower` runs to the first NUL. -/
namespace Livezure.Db
open Livezure.Core

/-- `strncpy(buffer, uuid, 16)`, which fills up with NULs behind a shorter text. -/
def strncpy16 (buffer uuid : Bytes) : Except Fault Bytes :=
  copyInto buffer 0 (uuid.take 16 ++ List.replicate (16 - uuid.length) 0)

def worldTolowerIn : Bytes → Except Fault Bytes
  | [] => .error .outOfBounds
  | byte :: rest =>
    if tolower byte = 0 then .ok (tolower byte :: rest)
    else do
      let rest ← worldTolowerIn rest
      return tolower byte :: rest

/-- What `%s` makes of a buffer. -/
def textOf (buffer : Bytes) : Except Fault Bytes :=
  if 0 ∈ buffer then .ok (cstring buffer) else .error .unterminated

/-- `strncpy(lower_uuid, uuid, sizeof(lower_uuid) - 1)` and `world_tolower(lower_uuid)`. -/
def lowerUuidIn (lowerUuid uuid : Bytes) : Except Fault Bytes := do
  let copied ← strncpy16 lowerUuid uuid
  worldTolowerIn copied

section
variable (store : Store)

/-- `lower_uuid` is what its buffer holds when the call begins. -/
def dbAccountAdminAddIn (hash : Bytes → Bytes) (ambient : Ambient) (lowerUuid : Bytes)
    (account : NewAccount) : Except Fault (Bool × Store) :=
  match dbAccountLicenseGet store account.uuid with
  | some _ => .ok (false, store)
  | none => do
    let lowerUuid ← lowerUuidIn lowerUuid account.uuid
    let uuid ← textOf lowerUuid
    let (r, store) := insertBasic store
      ⟨uuid, hash account.pwd, account.nickname, account.comment, ambient.now⟩
    return (r, (dbAccountLicenseSet store ambient uuid checkingLicense).2)

def dbAccountChildAddIn (hash : Bytes → Bytes) (ambient : Ambient)
    (lowerUuid lowerRefAdminUuid refAdminUuid : Bytes) (account : NewAccount) :
    Except Fault (Bool × Store) := do
  let lowerRefAdminUuid ← lowerUuidIn lowerRefAdminUuid refAdminUuid
  let ref ← textOf lowerRefAdminUuid
  match dbAccountCheckUserExist store ambient ref with
  | none => return (false, store)
  | some _ =>
    let lowerUuid ← lowerUuidIn lowerUuid account.uuid
    let uuid ← textOf lowerUuid
    match insertBasic store
        ⟨uuid, hash account.pwd, account.nickname, account.comment, ambient.now⟩ with
    | (false, store) => return (false, store)
    | (true, store) => return insertChild store ⟨uuid, ref, ambient.now⟩

/-- `db_account_check_user_exist` with a caller's buffer: whether the account is an admin, and what
the buffer holds afterwards. -/
def dbAccountCheckUserExistIn (refAdminUuid uuid : Bytes) : Except Fault (Option (Bool × Bytes)) := do
  let refAdminUuid ← copyInto refAdminUuid 0 [0]
  if uuid ∈ store.basic.keys then
    match dbAccountLicenseGet store uuid with
    | some _ => return some (true, refAdminUuid)
    | none =>
      match (store.child.select fun row => decide (row.uuid = uuid)).head? with
      | none => return some (false, refAdminUuid)
      | some row =>
        let refAdminUuid ← strncpy16 refAdminUuid row.refAdminUuid
        return some (false, refAdminUuid)
  else return none

end

/-- A uuid as the validators admit it. -/
def IsUuid (uuid : Bytes) : Prop := 0 ∉ uuid ∧ uuid.length ≤ 16

instance (uuid : Bytes) : Decidable (IsUuid uuid) := inferInstanceAs (Decidable (_ ∧ _))

/-- The copy of a uuid is terminated: by a NUL of its own, or by what was in the buffer. -/
def Terminates (buffer uuid : Bytes) : Prop := uuid.length < 16 ∨ buffer[16]? = some 0

/-- What is new in the tables has these uuids. -/
structure NewRows (before after : Store) (uuid : Bytes) (ref : Option Bytes) : Prop where
  basic : ∀ key ∈ after.basic.keys, key ∈ before.basic.keys ∨ key = uuid
  admin : ∀ key ∈ after.admin.keys, key ∈ before.admin.keys ∨ key = uuid
  child : ∀ row ∈ after.child.rows, row ∈ before.child.rows ∨
    row.uuid = uuid ∧ ref = some row.refAdminUuid

/-- The account is in the tables: as an admin, or as the child of one. -/
def Stored (store : Store) (uuid : Bytes) : Option Bytes → Prop
  | none => uuid ∈ store.basic.keys ∧ uuid ∈ store.admin.keys
  | some ref => uuid ∈ store.basic.keys ∧
      ∃ row ∈ store.child.rows, row.uuid = uuid ∧ row.refAdminUuid = ref

/-- A call stays within its buffers, and stores these uuids and no others. -/
def StoresUuids (before : Store) (uuid : Bytes) (ref : Option Bytes)
    (result : Except Fault (Bool × Store)) : Prop :=
  ∃ r after, result = .ok (r, after) ∧ NewRows before after uuid ref ∧
    (r = true → Stored after uuid ref)

/-- A child's `ref_admin_uuid` is handed back, terminated. -/
def ReturnsRef (store : Store) (uuid : Bytes) (result : Except Fault (Option (Bool × Bytes))) : Prop :=
  ∀ row ∈ store.child.rows, row.uuid = uuid → uuid ∈ store.basic.keys → uuid ∉ store.admin.keys →
    ∃ rest, result = .ok (some (false, row.refAdminUuid ++ 0 :: rest))

/-! ### One buffer -/

theorem tolower_zero {byte : UInt8} : tolower byte = 0 ↔ byte = 0 := by
  constructor
  · intro lower
    unfold tolower at lower
    split at lower
    · rename_i capital
      obtain ⟨low, high⟩ := capital
      rw [UInt8.le_iff_toNat_le] at low high
      have number := congrArg UInt8.toNat lower
      rw [UInt8.toNat_add] at number
      change 65 ≤ byte.toNat at low
      change byte.toNat ≤ 90 at high
      change (byte.toNat + 32) % 256 = 0 at number
      omega
    · exact lower
  · rintro rfl
    rfl

theorem worldTolowerIn_text {text rest : Bytes} (clean : 0 ∉ text) :
    worldTolowerIn (text ++ rest) = do
      let rest ← worldTolowerIn rest
      return worldTolower text ++ rest := by
  induction text with
  | nil =>
    rw [List.nil_append]
    cases worldTolowerIn rest <;> rfl
  | cons byte text ih =>
    obtain ⟨first, later⟩ := not_or.mp fun either => clean (List.mem_cons.mpr either)
    have goes : ¬tolower byte = 0 := fun zero => first (tolower_zero.mp zero).symm
    rw [List.cons_append, worldTolowerIn, if_neg goes, ih later]
    cases worldTolowerIn rest <;> rfl

section Buffer
variable {buffer uuid : Bytes}

/-- The buffer behind the copy of a uuid: its text, NULs, and the rest of the buffer. -/
theorem strncpy16_ok (isUuid : IsUuid uuid) (room : 16 < buffer.length) :
    strncpy16 buffer uuid =
      .ok (uuid ++ List.replicate (16 - uuid.length) 0 ++ buffer.drop 16) := by
  obtain ⟨_, short⟩ := isUuid
  have whole : uuid.take 16 = uuid := List.take_of_length_le short
  have size : (uuid ++ List.replicate (16 - uuid.length) 0).length = 16 := by
    rw [List.length_append, List.length_replicate]
    omega
  have fits : 0 + (uuid ++ List.replicate (16 - uuid.length) 0).length ≤ buffer.length := by omega
  rw [strncpy16, whole, copyInto_ok fits, splice, size, List.take_zero, List.nil_append, Nat.zero_add]

/-- Behind the text there is a NUL where the copy is terminated. -/
theorem copied_split (isUuid : IsUuid uuid) (room : 16 < buffer.length) :
    ∃ byte rest, List.replicate (16 - uuid.length) 0 ++ buffer.drop 16 = byte :: rest ∧
      (byte = 0 ↔ Terminates buffer uuid) ∧ (byte ≠ 0 → rest = buffer.drop 17) := by
  obtain ⟨_, short⟩ := isUuid
  have last : buffer.drop 16 = buffer[16] :: buffer.drop 17 := List.drop_eq_getElem_cons room
  by_cases shorter : uuid.length < 16
  · obtain ⟨more, pad⟩ : ∃ more, 16 - uuid.length = more + 1 := ⟨15 - uuid.length, by omega⟩
    refine ⟨0, List.replicate more 0 ++ buffer.drop 16, ?_, iff_of_true rfl (.inl shorter),
      fun other => absurd rfl other⟩
    rw [pad, List.replicate_succ, List.cons_append]
  · have none_ : 16 - uuid.length = 0 := by omega
    refine ⟨buffer[16], buffer.drop 17, ?_, ?_, fun _ => rfl⟩
    · rw [none_, List.replicate_zero, List.nil_append, last]
    · rw [Terminates, or_iff_right shorter, List.getElem?_eq_getElem room, Option.some.injEq]

private theorem worldTolower_clean {text : Bytes} (clean : 0 ∉ text) : 0 ∉ worldTolower text := by
  intro listed
  obtain ⟨byte, member, zero⟩ := List.mem_map.mp listed
  rw [tolower_zero.mp zero] at member
  exact clean member

theorem lowerUuidIn_ok (isUuid : IsUuid uuid) (size : buffer.length = 17)
    (terminates : Terminates buffer uuid) :
    ∃ lowered, lowerUuidIn buffer uuid = .ok lowered ∧ textOf lowered = .ok (worldTolower uuid) := by
  have room : 16 < buffer.length := by omega
  obtain ⟨byte, rest, behind, zero, _⟩ := copied_split isUuid room
  obtain rfl := zero.mpr terminates
  refine ⟨worldTolower uuid ++ 0 :: rest, ?_, ?_⟩
  · change (strncpy16 buffer uuid >>= worldTolowerIn) = _
    rw [strncpy16_ok isUuid room, List.append_assoc, behind]
    change worldTolowerIn (uuid ++ 0 :: rest) = _
    rw [worldTolowerIn_text isUuid.1]
    rfl
  · have ends : 0 ∈ worldTolower uuid ++ 0 :: rest :=
      List.mem_append_right _ (List.mem_cons_self ..)
    rw [textOf, if_pos ends, cstring_terminated _ _ (worldTolower_clean isUuid.1)]

theorem lowerUuidIn_past (isUuid : IsUuid uuid) (size : buffer.length = 17)
    (runs : ¬Terminates buffer uuid) : lowerUuidIn buffer uuid = .error .outOfBounds := by
  have room : 16 < buffer.length := by omega
  obtain ⟨byte, rest, behind, zero, last⟩ := copied_split isUuid room
  have other : byte ≠ 0 := fun same => runs (zero.mp same)
  have nothing : rest = [] := (last other).trans (List.drop_eq_nil_of_le (by omega))
  change (strncpy16 buffer uuid >>= worldTolowerIn) = _
  rw [strncpy16_ok isUuid room, List.append_assoc, behind, nothing]
  change worldTolowerIn (uuid ++ [byte]) = _
  rw [worldTolowerIn_text isUuid.1, worldTolowerIn,
    if_neg fun same => other (tolower_zero.mp same)]
  rfl

end Buffer

/-! ### The calls -/

theorem NewRows.refl (store : Store) (uuid : Bytes) (ref : Option Bytes) :
    NewRows store store uuid ref where
  basic := fun _ => .inl
  admin := fun _ => .inl
  child := fun _ => .inl

private theorem not_storesUuids_error {before : Store} {uuid : Bytes} {ref : Option Bytes} {fault : Fault} :
    ¬StoresUuids before uuid ref (.error fault) := by
  rintro ⟨_, _, same, _⟩
  cases same

section Calls
variable {store : Store} {hash : Bytes → Bytes} {ambient : Ambient}

theorem dbAccountAdminAddIn_stores {lowerUuid : Bytes} {account : NewAccount}
    (isUuid : IsUuid account.uuid) (size : lowerUuid.length = 17) :
    StoresUuids store (worldTolower account.uuid) none
        (dbAccountAdminAddIn store hash ambient lowerUuid account) ↔
      account.uuid ∈ store.admin.keys ∨ Terminates lowerUuid account.uuid := by
  unfold dbAccountAdminAddIn
  split
  · rename_i license known
    exact iff_of_true ⟨false, store, rfl, .refl .., fun done => absurd done Bool.false_ne_true⟩
      (.inl (dbAccountLicenseGet_some known))
  · rename_i unknown
    rw [or_iff_right (dbAccountLicenseGet_none unknown)]
    by_cases terminates : Terminates lowerUuid account.uuid
    · refine iff_of_true ?_ terminates
      obtain ⟨lowered, copied, text⟩ := lowerUuidIn_ok isUuid size terminates
      rw [copied]
      change StoresUuids _ _ _ (textOf lowered >>= _)
      rw [text]
      let row : AccountBasic := ⟨worldTolower account.uuid, hash account.pwd, account.nickname,
        account.comment, ambient.now⟩
      obtain ⟨adminBefore, childBefore, basicKeys⟩ := insertBasic_keys store row
      obtain ⟨basicSame, childSame, adminKeys⟩ := dbAccountLicenseSet_keys (insertBasic store row).2
        ambient (worldTolower account.uuid) checkingLicense
      rw [← basicSame] at basicKeys
      rw [adminBefore] at adminKeys
      rw [childBefore] at childSame
      refine ⟨(insertBasic store row).1, _, rfl, ⟨fun key => (basicKeys key).mp, fun key => (adminKeys key).mp, ?_⟩,
        fun _ => ⟨(basicKeys _).mpr (.inr rfl), (adminKeys _).mpr (.inr rfl)⟩⟩
      intro child member
      exact .inl (childSame ▸ member)
    · refine iff_of_false ?_ terminates
      rw [lowerUuidIn_past isUuid size terminates]
      exact not_storesUuids_error

private theorem insertBoth_stores (row : AccountBasic) (ref : Bytes) :
    StoresUuids store row.uuid (some ref)
      (match insertBasic store row with
        | (false, store) => .ok (false, store)
        | (true, store) => .ok (insertChild store ⟨row.uuid, ref, ambient.now⟩)) := by
  cases first : store.basic.insert row with
  | none =>
    rw [show insertBasic store row = (false, store) by rw [insertBasic, first]]
    exact ⟨false, store, rfl, .refl .., fun done => absurd done Bool.false_ne_true⟩
  | some basic =>
    rw [show insertBasic store row = (true, { store with basic }) by rw [insertBasic, first]]
    have basicKeys : ∀ key ∈ basic.keys, key ∈ store.basic.keys ∨ key = row.uuid :=
      fun _ => (Table.keys_insert first).mp
    cases second : store.child.insert ⟨row.uuid, ref, ambient.now⟩ with
    | none =>
      refine ⟨false, { store with basic }, ?_, ⟨basicKeys, fun _ => .inl, fun _ => .inl⟩,
        fun done => absurd done Bool.false_ne_true⟩
      simp only [insertChild, second]
    | some child =>
      have rows := (Table.insert_some second).2
      refine ⟨true, { store with basic, child }, ?_, ⟨basicKeys, fun _ => .inl, ?_⟩, fun _ =>
        ⟨(Table.keys_insert first).mpr (.inr rfl), ⟨row.uuid, ref, ambient.now⟩, ?_, rfl, rfl⟩⟩
      · simp only [insertChild, second]
      · intro row' member
        change row' ∈ child.rows at member
        rw [rows, List.mem_append, List.mem_singleton] at member
        exact member.imp_right fun same => by rw [same]; exact ⟨rfl, rfl⟩
      · rw [rows]
        exact List.mem_append_right _ (List.mem_singleton_self _)

theorem dbAccountChildAddIn_stores {lowerUuid lowerRefAdminUuid refAdminUuid : Bytes}
    {account : NewAccount} (isUuid : IsUuid account.uuid) (isRef : IsUuid refAdminUuid)
    (size : lowerUuid.length = 17) (sizeRef : lowerRefAdminUuid.length = 17) :
    StoresUuids store (worldTolower account.uuid) (some (worldTolower refAdminUuid))
        (dbAccountChildAddIn store hash ambient lowerUuid lowerRefAdminUuid refAdminUuid account) ↔
      Terminates lowerRefAdminUuid refAdminUuid ∧
        (worldTolower refAdminUuid ∈ store.basic.keys → Terminates lowerUuid account.uuid) := by
  unfold dbAccountChildAddIn
  by_cases terminatesRef : Terminates lowerRefAdminUuid refAdminUuid
  · rw [and_iff_right terminatesRef]
    obtain ⟨loweredRef, copiedRef, textRef⟩ := lowerUuidIn_ok isRef sizeRef terminatesRef
    rw [copiedRef]
    change StoresUuids _ _ _ (textOf loweredRef >>= _) ↔ _
    rw [textRef]
    change StoresUuids _ _ _ (match dbAccountCheckUserExist store ambient (worldTolower refAdminUuid)
      with | none => _ | some _ => _) ↔ _
    have exists_ := dbAccountCheckUserExist_isSome store ambient (worldTolower refAdminUuid)
    cases known : dbAccountCheckUserExist store ambient (worldTolower refAdminUuid) with
    | none =>
      rw [known] at exists_
      exact iff_of_true ⟨false, store, rfl, .refl .., fun done => absurd done Bool.false_ne_true⟩
        fun listed => absurd (exists_.mpr listed) Bool.false_ne_true
    | some user =>
      rw [known] at exists_
      rw [forall_prop_of_true (exists_.mp rfl)]
      by_cases terminates : Terminates lowerUuid account.uuid
      · refine iff_of_true ?_ terminates
        obtain ⟨lowered, copied, text⟩ := lowerUuidIn_ok isUuid size terminates
        dsimp only
        rw [copied]
        change StoresUuids _ _ _ (textOf lowered >>= _)
        rw [text]
        exact insertBoth_stores ⟨worldTolower account.uuid, hash account.pwd, account.nickname,
          account.comment, ambient.now⟩ (worldTolower refAdminUuid)
      · refine iff_of_false ?_ terminates
        dsimp only
        rw [lowerUuidIn_past isUuid size terminates]
        exact not_storesUuids_error
  · refine iff_of_false ?_ fun both => terminatesRef both.1
    rw [lowerUuidIn_past isRef sizeRef terminatesRef]
    exact not_storesUuids_error

/-- The first byte of the buffer is cleared, the one behind the copy is not. -/
theorem terminates_cleared {buffer uuid : Bytes} :
    Terminates (splice buffer 0 [0]) uuid ↔ Terminates buffer uuid := by
  unfold Terminates splice
  rw [List.take_zero, List.nil_append, List.singleton_append, List.getElem?_cons_succ,
    List.getElem?_drop]
  rfl

theorem strncpy16_terminated {buffer uuid : Bytes} (isUuid : IsUuid uuid)
    (room : 16 < buffer.length) :
    (∃ rest, strncpy16 buffer uuid = .ok (uuid ++ 0 :: rest)) ↔ Terminates buffer uuid := by
  obtain ⟨byte, rest, behind, zero, _⟩ := copied_split isUuid room
  rw [strncpy16_ok isUuid room, List.append_assoc, behind, ← zero]
  constructor
  · rintro ⟨other, same⟩
    exact (List.cons.inj (List.append_cancel_left (Except.ok.inj same))).1
  · rintro rfl
    exact ⟨rest, rfl⟩

theorem dbAccountCheckUserExistIn_returns {buffer uuid : Bytes}
    (refs : ∀ row ∈ store.child.rows, IsUuid row.refAdminUuid) (room : 16 < buffer.length) :
    ReturnsRef store uuid (dbAccountCheckUserExistIn store buffer uuid) ↔
      ∀ row ∈ store.child.rows, row.uuid = uuid → uuid ∈ store.basic.keys →
        uuid ∉ store.admin.keys → Terminates buffer row.refAdminUuid := by
  refine forall₂_congr fun row listed => forall_congr' fun same => forall_congr' fun known =>
    forall_congr' fun noAdmin => ?_
  have cleared : copyInto buffer 0 [0] = .ok (splice buffer 0 [0]) :=
    copyInto_ok (by rw [List.length_singleton]; omega)
  have length : 16 < (splice buffer 0 [0]).length := by
    rw [splice_length (by rw [List.length_singleton]; omega)]
    exact room
  have noLicense : dbAccountLicenseGet store uuid = none := by
    rw [← Option.not_isSome_iff_eq_none, dbAccountLicenseGet_isSome]
    exact noAdmin
  have found : (store.child.select fun row => decide (row.uuid = uuid)).head? = some row := by
    subst same
    exact Table.head_selectKey listed
  rw [← terminates_cleared, ← strncpy16_terminated (refs row listed) length]
  unfold dbAccountCheckUserExistIn
  rw [cleared]
  change (∃ rest, (if uuid ∈ store.basic.keys then _ else _) = _) ↔ _
  rw [if_pos known, noLicense]
  dsimp only
  rw [found]
  refine exists_congr fun rest => ?_
  change (strncpy16 (splice buffer 0 [0]) row.refAdminUuid >>= _) = _ ↔ _
  cases strncpy16 (splice buffer 0 [0]) row.refAdminUuid with
  | error fault => exact iff_of_false nofun nofun
  | ok copied =>
    constructor
    · intro result
      rw [(Prod.mk.inj (Option.some.inj (Except.ok.inj result))).2]
    · intro result
      rw [Except.ok.inj result]
      rfl

private theorem strncpyUuid_clean {uuid : Bytes} (isUuid : IsUuid uuid) : strncpyUuid uuid [] = uuid := by
  unfold strncpyUuid
  split
  · rfl
  · rw [List.append_nil, List.take_of_length_le isUuid.2]

theorem dbAccountAdminAddIn_eq {lowerUuid : Bytes} {account : NewAccount}
    (isUuid : IsUuid account.uuid) (size : lowerUuid.length = 17)
    (terminates : Terminates lowerUuid account.uuid) :
    dbAccountAdminAddIn store hash ambient lowerUuid account =
      .ok (dbAccountAdminAdd store hash { ambient with junk := [] } account) := by
  unfold dbAccountAdminAddIn dbAccountAdminAdd
  cases dbAccountLicenseGet store account.uuid with
  | some _ => rfl
  | none =>
    obtain ⟨lowered, copied, text⟩ := lowerUuidIn_ok isUuid size terminates
    rw [strncpyUuid_clean isUuid]
    dsimp only
    rw [copied]
    change (textOf lowered >>= _) = _
    rw [text]
    rfl

theorem dbAccountChildAddIn_eq {lowerUuid lowerRefAdminUuid refAdminUuid : Bytes}
    {account : NewAccount} (isUuid : IsUuid account.uuid) (isRef : IsUuid refAdminUuid)
    (size : lowerUuid.length = 17) (sizeRef : lowerRefAdminUuid.length = 17)
    (terminates : Terminates lowerUuid account.uuid)
    (terminatesRef : Terminates lowerRefAdminUuid refAdminUuid) :
    dbAccountChildAddIn store hash ambient lowerUuid lowerRefAdminUuid refAdminUuid account =
      .ok (dbAccountChildAdd store hash { ambient with junk := [], junkRef := [] } refAdminUuid
        account) := by
  obtain ⟨lowered, copied, text⟩ := lowerUuidIn_ok isUuid size terminates
  obtain ⟨loweredRef, copiedRef, textRef⟩ := lowerUuidIn_ok isRef sizeRef terminatesRef
  unfold dbAccountChildAddIn dbAccountChildAdd
  rw [copiedRef, strncpyUuid_clean isUuid, strncpyUuid_clean isRef]
  change (textOf loweredRef >>= _) = _
  rw [textRef]
  change (match dbAccountCheckUserExist store ambient (worldTolower refAdminUuid)
    with | none => _ | some _ => _) = _
  -- what the buffer of a caller holds does not matter for whether the account exists
  have same := dbAccountCheckUserExist_isSome store ambient (worldTolower refAdminUuid)
  rw [← dbAccountCheckUserExist_isSome store { ambient with junk := [], junkRef := [] }] at same
  dsimp only at same ⊢
  split
  · rename_i unknown
    rw [unknown] at same
    rw [Option.not_isSome_iff_eq_none.mp fun known => Bool.false_ne_true (same.mpr known)]
    rfl
  · rename_i user known
    rw [known] at same
    obtain ⟨other, found⟩ := Option.isSome_iff_exists.mp (same.mp rfl)
    rw [found, copied]
    change (textOf lowered >>= _) = _
    rw [text]
    change (match insertBasic _ _ with | (false, _) => _ | (true, _) => _) =
      Except.ok (match insertBasic _ _ with | (false, _) => _ | (true, _) => _)
    split <;> rfl

end Calls

/-- The statements of the three calls, with copies of the uuids that end where they should. -/
def uuidPrints (store : Store) (hash : Bytes → Bytes) (ambient : Ambient) (account : NewAccount)
    (refAdminUuid uuid : Bytes) : List Statement :=
  let clean := { ambient with junk := [], junkRef := [] }
  adminAddPrints store clean hash account ++ childAddPrints store clean hash refAdminUuid account ++
    userExistPrints store true true uuid

/-- By statements that mean it, each call does what it is for exactly where every copy that it gets
to is terminated. -/
theorem uuids_kept_iff (store : Store) (hash : Bytes → Bytes) (ambient : Ambient)
    (account : NewAccount) (refAdminUuid uuid lowerUuid lowerRefAdminUuid buffer : Bytes)
    (isUuid : IsUuid account.uuid) (isRef : IsUuid refAdminUuid)
    (refs : ∀ row ∈ store.child.rows, IsUuid row.refAdminUuid)
    (size : lowerUuid.length = 17) (sizeRef : lowerRefAdminUuid.length = 17)
    (room : 16 < buffer.length)
    (plain : AllPlain (uuidPrints store hash ambient account refAdminUuid uuid)) :
    AllDenote (uuidPrints store hash ambient account refAdminUuid uuid) ∧
    (StoresUuids store (worldTolower account.uuid) none
        (dbAccountAdminAddIn store hash ambient lowerUuid account) ↔
      account.uuid ∈ store.admin.keys ∨ Terminates lowerUuid account.uuid) ∧
    (StoresUuids store (worldTolower account.uuid) (some (worldTolower refAdminUuid))
        (dbAccountChildAddIn store hash ambient lowerUuid lowerRefAdminUuid refAdminUuid account) ↔
      Terminates lowerRefAdminUuid refAdminUuid ∧
        (worldTolower refAdminUuid ∈ store.basic.keys → Terminates lowerUuid account.uuid)) ∧
    (ReturnsRef store uuid (dbAccountCheckUserExistIn store buffer uuid) ↔
      ∀ row ∈ store.child.rows, row.uuid = uuid → uuid ∈ store.basic.keys →
        uuid ∉ store.admin.keys → Terminates buffer row.refAdminUuid) :=
  ⟨allDenote_iff.mpr plain, dbAccountAdminAddIn_stores isUuid size,
    dbAccountChildAddIn_stores isUuid isRef size sizeRef,
    dbAccountCheckUserExistIn_returns refs room⟩

/-- A uuid of 16 characters. -/
private def longUuid : Bytes := ascii "ABCDEFGHIJKLMNOP"

/-- What a stack may hold. -/
private def dirty : Bytes := List.replicate 17 0x41

/-- A child `kid` of the longest uuid. -/
private def longFamily : Store :=
  { Store.init with
    basic := ⟨[⟨ascii "kid", [], [], [], []⟩], by decide⟩
    child := ⟨[⟨ascii "kid", longUuid, []⟩], by decide⟩ }

theorem uuids_kept_long :
    StoresUuids longFamily (worldTolower longUuid) none
      (dbAccountAdminAddIn longFamily id ⟨[], [], []⟩ (dirty.set 16 0) ⟨longUuid, [], [], []⟩) :=
  (uuids_kept_iff longFamily id ⟨[], [], []⟩ ⟨longUuid, [], [], []⟩ longUuid (ascii "kid")
    (dirty.set 16 0) dirty dirty (by decide) (by decide) (by decide) rfl rfl (by decide)
    (by decide +kernel)).2.1.mpr (.inr (.inr rfl))

/-- Past the buffers of either call, and a buffer without a NUL for the caller. -/
theorem not_uuids_kept :
    IsUuid longUuid ∧
      ¬StoresUuids .init (worldTolower longUuid) none
        (dbAccountAdminAddIn .init id ⟨[], [], []⟩ dirty ⟨longUuid, [], [], []⟩) ∧
      dbAccountChildAddIn longFamily id ⟨[], [], []⟩ dirty dirty longUuid ⟨longUuid, [], [], []⟩ =
        .error .outOfBounds ∧
      dbAccountCheckUserExistIn longFamily dirty (ascii "kid") =
        .ok (some (false, longUuid ++ [0x41])) := by
  have past : dbAccountAdminAddIn .init id ⟨[], [], []⟩ dirty ⟨longUuid, [], [], []⟩ =
      .error .outOfBounds := by decide
  exact ⟨by decide, past ▸ not_storesUuids_error, by decide, by decide⟩

end Livezure.Db
