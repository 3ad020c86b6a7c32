import Livezure.Core.Attempt
import Livezure.Db.Integrity

/-! Calls of several statements, any of which may violate a constraint: when a call that
fails has left every table as it was. -/
namespace Livezure.Db
open Livezure.Core

/-- The statements that violate a constraint: the `INSERT` into each table and the `DELETE`
from `t_account_admin`. -/
structure Violations where
  basic : Bool
  admin : Bool
  child : Bool
  deviceBasic : Bool
  accountDevice : Bool
  deleteAdmin : Bool
  deriving DecidableEq

def Violations.none : Violations := ⟨false, false, false, false, false, false⟩

/-- A statement through `db_exec`; one that violates a constraint changes nothing. -/
def execUnless (violated : Bool) (statement : Attempt Store) : Attempt Store := fun store =>
  if violated then (false, store) else statement store

def insertDeviceBasic (row : DeviceBasic) : Attempt Store := fun store =>
  match store.deviceBasic.insert row with
  | none => (false, store)
  | some deviceBasic => (true, { store with deviceBasic })

def insertAccountDevice (row : AccountDevice) : Attempt Store := fun store =>
  match store.accountDevice.insert row with
  | none => (false, store)
  | some accountDevice => (true, { store with accountDevice })

namespace Violations
variable (violations : Violations)

def dbAccountLicenseDel (uuid : Bytes) : Attempt Store := fun store =>
  if uuid ∈ store.basic.keys then
    execUnless violations.deleteAdmin (fun store =>
      (true, { store with admin := store.admin.deleteWhere fun row => decide (row.uuid = uuid) }))
      store
  else (false, store)

def clearLicense (uuid : Bytes) (store : Store) : Store :=
  match dbAccountLicenseGet store uuid with
  | .none => store
  | some _ => (violations.dbAccountLicenseDel uuid store).2

def dbAccountLicenseSet (ambient : Ambient) (uuid : Bytes) (license : AccountLicense) :
    Attempt Store := fun store =>
  execUnless violations.admin (fun store => insertAdmin store
    ⟨uuid, license.licenseType, license.licensedTime, license.expiredTime, ambient.now⟩)
    (violations.clearLicense uuid store)

def dbAccountAdminAdd (hash : Bytes → Bytes) (ambient : Ambient) (account : NewAccount) :
    Attempt Store := fun store =>
  match dbAccountLicenseGet store account.uuid with
  | some _ => (false, store)
  | .none =>
    let lowerUuid := worldTolower (strncpyUuid account.uuid ambient.junk)
    let (r, store) := execUnless violations.basic (fun store => insertBasic store
      ⟨lowerUuid, hash account.pwd, account.nickname, account.comment, ambient.now⟩) store
    -- without the assert the license is set also if the account could not be inserted
    (r, (violations.dbAccountLicenseSet ambient lowerUuid checkingLicense store).2)

def dbAccountChildAdd (hash : Bytes → Bytes) (ambient : Ambient) (refAdminUuid : Bytes)
    (account : NewAccount) : Attempt Store := fun store =>
  let lowerRefAdminUuid := worldTolower (strncpyUuid refAdminUuid ambient.junkRef)
  match dbAccountCheckUserExist store ambient lowerRefAdminUuid with
  | .none => (false, store)
  | some _ =>
    let lowerUuid := worldTolower (strncpyUuid account.uuid ambient.junk)
    Attempt.andThen
      (execUnless violations.basic fun store => insertBasic store
        ⟨lowerUuid, hash account.pwd, account.nickname, account.comment, ambient.now⟩)
      (execUnless violations.child fun store => insertChild store
        ⟨lowerUuid, lowerRefAdminUuid, ambient.now⟩) store

def dbAccountDeviceAdd (ambient : Ambient) (refAdminUuid : Bytes) (device : Device) :
    Attempt Store := fun store =>
  match dbAccountCheckUserExist store ambient refAdminUuid with
  | some ⟨true, _⟩ =>
    -- the port stands for the channel
    if dbAccountDeviceCheckExist store refAdminUuid device.ip device.port device.port then
      (false, store)
    else
      Attempt.andThen
        (execUnless violations.deviceBasic (insertDeviceBasic
          ⟨device.uuid, device.pluginName, device.ip, device.port, device.user, device.pwd,
            device.channel, device.segFolder, device.segInCount, device.segPerSec, ambient.now⟩))
        (execUnless violations.accountDevice (insertAccountDevice
          ⟨device.uuid, refAdminUuid, device.nickname, device.comment, device.isTopLevel,
            device.refParentUuid, ambient.now⟩)) store
  | _ => (false, store)

end Violations

/-- A call of one of the functions that add to the tables. -/
inductive Mutation where
  | adminAdd (account : NewAccount)
  | childAdd (refAdminUuid : Bytes) (account : NewAccount)
  | licenseSet (uuid : Bytes) (license : AccountLicense)
  | deviceAdd (refAdminUuid : Bytes) (device : Device)

def Mutation.run (violations : Violations) (hash : Bytes → Bytes) (ambient : Ambient) :
    Mutation → Attempt Store
  | .adminAdd account => violations.dbAccountAdminAdd hash ambient account
  | .childAdd refAdminUuid account => violations.dbAccountChildAdd hash ambient refAdminUuid account
  | .licenseSet uuid license => violations.dbAccountLicenseSet ambient uuid license
  | .deviceAdd refAdminUuid device => violations.dbAccountDeviceAdd ambient refAdminUuid device

/-- A call that fails changes no table, and an admin that was added is a new account. -/
structure Mutation.Atomic (violations : Violations) (hash : Bytes → Bytes) (ambient : Ambient)
    (store : Store) (mutation : Mutation) : Prop where
  kept : Attempt.Kept (mutation.run violations hash ambient store) store
  fresh : ∀ account, mutation = .adminAdd account →
    (mutation.run violations hash ambient store).1 = true →
      worldTolower account.uuid ∉ store.basic.keys

/-- Setting the license leaves the table as it is: nothing can be inserted, or the row that is
deleted is the last one and the same one is inserted. -/
def LicenseStays (violations : Violations) (ambient : Ambient) (store : Store) (uuid : Bytes)
    (license : AccountLicense) : Prop :=
  if uuid ∈ store.admin.keys then
    uuid ∈ store.basic.keys → violations.deleteAdmin = false → violations.admin = false ∧
      store.admin.rows.getLast? = some
        ⟨uuid, license.licenseType, license.licensedTime, license.expiredTime, ambient.now⟩
  else violations.admin = true

/-- When a call is atomic, by the tables before it and the violations. -/
def Mutation.Whole (violations : Violations) (ambient : Ambient) (store : Store) : Mutation → Prop
  | .adminAdd account =>
    let lowerUuid := worldTolower (strncpyUuid account.uuid ambient.junk)
    account.uuid ∉ store.admin.keys →
      if lowerUuid ∈ store.basic.keys ∨ violations.basic = true then
        LicenseStays violations ambient store lowerUuid checkingLicense
      else worldTolower account.uuid ∉ store.basic.keys
  | .childAdd refAdminUuid account =>
    let lowerUuid := worldTolower (strncpyUuid account.uuid ambient.junk)
    worldTolower (strncpyUuid refAdminUuid ambient.junkRef) ∈ store.basic.keys →
      lowerUuid ∉ store.basic.keys → violations.basic = false →
        lowerUuid ∉ store.child.keys ∧ violations.child = false
  | .licenseSet uuid _ =>
    uuid ∈ store.admin.keys → uuid ∈ store.basic.keys → violations.deleteAdmin = false →
      violations.admin = false
  | .deviceAdd refAdminUuid device =>
    refAdminUuid ∈ store.basic.keys → refAdminUuid ∈ store.admin.keys →
      dbAccountDeviceCheckExist store refAdminUuid device.ip device.port device.port = false →
        device.uuid ∉ store.deviceBasic.keys → violations.deviceBasic = false →
          device.uuid ∉ store.accountDevice.keys ∧ violations.accountDevice = false

/-! ### Statements -/

theorem execUnless_done (statement : Attempt Store) (store : Store) :
    execUnless false statement store = statement store := rfl

section Insert
variable {Row Key : Type} [DecidableEq Key] {key : Row → Key}

/-- An `INSERT` is refused if it violates a constraint or the key is there. -/
theorem refuses_insert (table : Store → Table key) (put : Store → Table key → Store)
    (got : ∀ store after, table (put store after) = after) (insert : Attempt Store) (row : Row)
    (inserts : ∀ store, insert store =
      match (table store).insert row with
      | none => (false, store)
      | some after => (true, put store after))
    (violated : Bool) (store : Store) :
    Attempt.Refuses (execUnless violated insert) store (violated = true ∨ key row ∈ (table store).keys) := by
  cases violated with
  | true => exact .inl ⟨.inl rfl, rfl⟩
  | false =>
    rw [Attempt.Refuses, execUnless_done, inserts]
    cases inserted : (table store).insert row with
    | none => exact .inl ⟨.inr (Table.insert_eq_none.mp inserted), rfl⟩
    | some after =>
      obtain ⟨missing, rows⟩ := Table.insert_some inserted
      refine .inr ⟨?_, put store after, ?_, rfl⟩
      · rintro (violated | present)
        · cases violated
        · exact missing present
      · intro same
        have tables := congrArg table same
        rw [got] at tables
        rw [tables] at rows
        exact List.cons_ne_nil row [] (List.self_eq_append_right.mp rows)

/-- A row that is deleted and inserted again goes to the end of the table. -/
theorem reinsert_same {table after : Table key} {row : Row}
    (done : (table.deleteWhere fun other => decide (key other = key row)).insert row = some after) :
    after = table ↔ table.rows.getLast? = some row := by
  obtain ⟨_, rows⟩ := Table.insert_some done
  constructor
  · rintro rfl
    rw [rows, List.getLast?_concat]
  · intro last
    obtain ⟨front, split⟩ := List.getLast?_eq_some_iff.mp last
    have unique := table.unique
    rw [split, List.map_append] at unique
    have apart := (List.nodup_append.mp unique).2.2
    have left : (table.deleteWhere fun other => decide (key other = key row)).rows = front := by
      change table.rows.filter (fun other => !decide (key other = key row)) = front
      rw [split, List.filter_append, List.filter_eq_self.mpr]
      · simp
      · intro other member
        have differ := apart _ (List.mem_map_of_mem member) _ (List.mem_singleton_self _)
        simp [differ]
    apply Table.ext
    rw [rows, left, split]

end Insert

private theorem refuses_insertBasic (violated : Bool) (store : Store) (row : AccountBasic) :
    Attempt.Refuses (execUnless violated fun store => insertBasic store row) store
      (violated = true ∨ row.uuid ∈ store.basic.keys) := by
  refine refuses_insert Store.basic (fun store basic => { store with basic }) (fun _ _ => rfl)
    (insertBasic · row) row (fun store => ?_) violated store
  unfold insertBasic
  cases store.basic.insert row <;> rfl

private theorem refuses_insertAdmin (violated : Bool) (store : Store) (row : AccountAdmin) :
    Attempt.Refuses (execUnless violated fun store => insertAdmin store row) store
      (violated = true ∨ row.uuid ∈ store.admin.keys) := by
  refine refuses_insert Store.admin (fun store admin => { store with admin }) (fun _ _ => rfl)
    (insertAdmin · row) row (fun store => ?_) violated store
  unfold insertAdmin
  cases store.admin.insert row <;> rfl

private theorem insertAdmin_absent (store : Store) (row : AccountAdmin)
    (absent : row.uuid ∉ store.admin.keys) :
    ∃ admin, store.admin.insert row = some admin ∧
      insertAdmin store row = (true, { store with admin }) := by
  obtain ⟨admin, inserted, _⟩ := Table.insert_absent absent
  refine ⟨admin, inserted, ?_⟩
  unfold insertAdmin
  rw [inserted]

private theorem refuses_insertChild (violated : Bool) (store : Store) (row : AccountChild) :
    Attempt.Refuses (execUnless violated fun store => insertChild store row) store
      (violated = true ∨ row.uuid ∈ store.child.keys) := by
  refine refuses_insert Store.child (fun store child => { store with child }) (fun _ _ => rfl)
    (insertChild · row) row (fun store => ?_) violated store
  unfold insertChild
  cases store.child.insert row <;> rfl

private theorem refuses_insertDeviceBasic (violated : Bool) (store : Store) (row : DeviceBasic) :
    Attempt.Refuses (execUnless violated (insertDeviceBasic row)) store
      (violated = true ∨ row.uuid ∈ store.deviceBasic.keys) := by
  refine refuses_insert Store.deviceBasic (fun store deviceBasic => { store with deviceBasic }) (fun _ _ => rfl)
    (insertDeviceBasic row) row (fun store => ?_) violated store
  unfold insertDeviceBasic
  cases store.deviceBasic.insert row <;> rfl

private theorem refuses_insertAccountDevice (violated : Bool) (store : Store) (row : AccountDevice) :
    Attempt.Refuses (execUnless violated (insertAccountDevice row)) store
      (violated = true ∨ row.uuid ∈ store.accountDevice.keys) := by
  refine refuses_insert Store.accountDevice (fun store accountDevice => { store with accountDevice }) (fun _ _ => rfl)
    (insertAccountDevice row) row (fun store => ?_) violated store
  unfold insertAccountDevice
  cases store.accountDevice.insert row <;> rfl

/-! ### The license -/

section License
variable (violations : Violations) (store : Store) (ambient : Ambient) (uuid : Bytes)
  (license : AccountLicense)

/-- The old license is deleted only for an account that exists. -/
theorem clearLicense_cases : violations.clearLicense uuid store =
    if uuid ∈ store.admin.keys ∧ uuid ∈ store.basic.keys ∧ violations.deleteAdmin = false then
      { store with admin := store.admin.deleteWhere fun row => decide (row.uuid = uuid) }
    else store := by
  unfold Violations.clearLicense
  cases license : dbAccountLicenseGet store uuid with
  | none =>
    have absent := dbAccountLicenseGet_none license
    rw [if_neg fun all => absent all.1]
  | some _ =>
    have present := dbAccountLicenseGet_some license
    simp only [Violations.dbAccountLicenseDel, execUnless]
    by_cases exist : uuid ∈ store.basic.keys
    · cases deleted : violations.deleteAdmin <;> simp [present, exist]
    · simp [exist]

theorem dbAccountLicenseSet_refuses
    (stays : ¬ (uuid ∈ store.admin.keys ∧ uuid ∈ store.basic.keys ∧ violations.deleteAdmin = false)) :
    Attempt.Refuses (violations.dbAccountLicenseSet ambient uuid license) store
      (violations.admin = true ∨ uuid ∈ store.admin.keys) := by
  have refuses := refuses_insertAdmin violations.admin store
    ⟨uuid, license.licenseType, license.licensedTime, license.expiredTime, ambient.now⟩
  rw [Attempt.Refuses, Violations.dbAccountLicenseSet, clearLicense_cases, if_neg stays]
  exact refuses

/-- Where the old license is deleted, the table changes if the new one violates a constraint. -/
theorem dbAccountLicenseSet_reset
    (gone : uuid ∈ store.admin.keys ∧ uuid ∈ store.basic.keys ∧ violations.deleteAdmin = false) :
    (violations.dbAccountLicenseSet ambient uuid license store).1 = !violations.admin ∧
      ((violations.dbAccountLicenseSet ambient uuid license store).2 = store ↔
        violations.admin = false ∧ store.admin.rows.getLast? = some
          ⟨uuid, license.licenseType, license.licensedTime, license.expiredTime, ambient.now⟩) := by
  have deleted : uuid ∉ (store.admin.deleteWhere fun row => decide (row.uuid = uuid)).keys := by
    rw [Table.keys_deleteKey]
    exact fun both => both.2 rfl
  simp only [Violations.dbAccountLicenseSet, clearLicense_cases, if_pos gone]
  cases violations.admin with
  | true =>
    refine ⟨rfl, iff_of_false (fun same => ?_) fun both => nomatch both.1⟩
    rw [← congrArg Store.admin same] at gone
    exact deleted gone.1
  | false =>
    obtain ⟨after, inserted, done⟩ := insertAdmin_absent
      { store with admin := store.admin.deleteWhere fun row => decide (row.uuid = uuid) }
      ⟨uuid, license.licenseType, license.licensedTime, license.expiredTime, ambient.now⟩ deleted
    simp only [execUnless_done, done, Bool.not_false, true_and]
    rw [← reinsert_same inserted]
    exact ⟨fun same => congrArg Store.admin same, fun same => by rw [same]⟩

theorem dbAccountLicenseSet_same_iff :
    (violations.dbAccountLicenseSet ambient uuid license store).2 = store ↔
      LicenseStays violations ambient store uuid license := by
  unfold LicenseStays
  by_cases gone : uuid ∈ store.admin.keys ∧ uuid ∈ store.basic.keys ∧ violations.deleteAdmin = false
  · rw [(dbAccountLicenseSet_reset violations store ambient uuid license gone).2, if_pos gone.1]
    exact ⟨fun same _ _ => same, fun same => same gone.2.1 gone.2.2⟩
  · rw [(dbAccountLicenseSet_refuses violations store ambient uuid license gone).same_iff]
    split
    · rename_i present
      exact iff_of_true (.inr present) fun exist done => absurd ⟨present, exist, done⟩ gone
    · rename_i absent
      exact or_iff_left absent

theorem dbAccountLicenseSet_kept_iff :
    Attempt.Kept (violations.dbAccountLicenseSet ambient uuid license store) store ↔
      (uuid ∈ store.admin.keys → uuid ∈ store.basic.keys → violations.deleteAdmin = false →
        violations.admin = false) := by
  by_cases gone : uuid ∈ store.admin.keys ∧ uuid ∈ store.basic.keys ∧ violations.deleteAdmin = false
  · obtain ⟨result, same⟩ := dbAccountLicenseSet_reset violations store ambient uuid license gone
    rw [Attempt.Kept, result, same, Bool.not_eq_false']
    constructor
    · intro kept _ _ _
      by_contra violated
      have failed := eq_true_of_ne_false violated
      exact violated (kept failed).1
    · intro done failed
      rw [done gone.1 gone.2.1 gone.2.2] at failed
      cases failed
  · have refuses := dbAccountLicenseSet_refuses violations store ambient uuid license gone
    exact iff_of_true refuses.kept fun present exist done => absurd ⟨present, exist, done⟩ gone

end License

/-! ### The other calls -/

theorem execUnless_some {violated : Bool} {statement : Attempt Store} {store after : Store}
    (done : execUnless violated statement store = (true, after)) : statement store = (true, after) := by
  cases violated with
  | true => cases done
  | false => exact done

theorem insertDeviceBasic_accountDevice {row : DeviceBasic} {store after : Store}
    (done : insertDeviceBasic row store = (true, after)) :
    after.accountDevice = store.accountDevice := by
  unfold insertDeviceBasic at done
  split at done
  · cases done
  · cases done
    rfl

section Calls
variable (violations : Violations) (store : Store) (ambient : Ambient)

theorem dbAccountChildAdd_kept_iff (hash : Bytes → Bytes) (refAdminUuid : Bytes)
    (account : NewAccount) :
    Attempt.Kept (violations.dbAccountChildAdd hash ambient refAdminUuid account store) store ↔
      (Mutation.childAdd refAdminUuid account).Whole violations ambient store := by
  have exist := dbAccountCheckUserExist_isSome store ambient
    (worldTolower (strncpyUuid refAdminUuid ambient.junkRef))
  simp only [Violations.dbAccountChildAdd, Mutation.Whole]
  cases found : dbAccountCheckUserExist store ambient
      (worldTolower (strncpyUuid refAdminUuid ambient.junkRef)) with
  | none =>
    rw [found] at exist
    exact iff_of_true (fun _ => rfl) fun present => absurd (exist.mpr present) Bool.false_ne_true
  | some user =>
    rw [found] at exist
    have present := exist.mp rfl
    simp only [present, forall_const]
    generalize worldTolower (strncpyUuid account.uuid ambient.junk) = lowerUuid
    have second : ∀ after, execUnless violations.basic (fun store => insertBasic store
        ⟨lowerUuid, hash account.pwd, account.nickname, account.comment, ambient.now⟩) store =
          (true, after) → Attempt.Refuses (execUnless violations.child fun store => insertChild store
            ⟨lowerUuid, worldTolower (strncpyUuid refAdminUuid ambient.junkRef), ambient.now⟩) after
          (violations.child = true ∨ lowerUuid ∈ store.child.keys) := by
      intro after done
      obtain ⟨_, child, _⟩ := insertBasic_keys store
        ⟨lowerUuid, hash account.pwd, account.nickname, account.comment, ambient.now⟩
      rw [execUnless_some done] at child
      rw [← child]
      exact refuses_insertChild _ _ _
    rw [Attempt.andThen_kept_iff (refuses_insertBasic _ _ _) second]
    simp only [not_or, Bool.not_eq_true]
    exact ⟨fun done fresh kept => (done ⟨kept, fresh⟩).symm,
      fun done both => (done both.2 both.1).symm⟩

theorem dbAccountDeviceAdd_kept_iff (refAdminUuid : Bytes) (device : Device) :
    Attempt.Kept (violations.dbAccountDeviceAdd ambient refAdminUuid device store) store ↔
      (Mutation.deviceAdd refAdminUuid device).Whole violations ambient store := by
  have exist := dbAccountCheckUserExist_isSome store ambient refAdminUuid
  simp only [Violations.dbAccountDeviceAdd, Mutation.Whole]
  cases found : dbAccountCheckUserExist store ambient refAdminUuid with
  | none =>
    rw [found] at exist
    exact iff_of_true (fun _ => rfl) fun present => absurd (exist.mpr present) Bool.false_ne_true
  | some user =>
    rw [found] at exist
    have present := exist.mp rfl
    have admin := dbAccountCheckUserExist_isAdmin found
    obtain ⟨isAdmin, refUuid⟩ := user
    cases isAdmin with
    | false =>
      exact iff_of_true (fun _ => rfl) fun _ known => absurd (admin.mpr known) Bool.false_ne_true
    | true =>
      have known := admin.mp rfl
      simp only [present, known, forall_const]
      cases taken : dbAccountDeviceCheckExist store refAdminUuid device.ip device.port device.port with
      | true => exact iff_of_true (fun _ => rfl) fun free => nomatch free
      | false =>
        simp only [Bool.false_eq_true, if_false, forall_const]
        have second : ∀ after, execUnless violations.deviceBasic (insertDeviceBasic
            ⟨device.uuid, device.pluginName, device.ip, device.port, device.user, device.pwd,
              device.channel, device.segFolder, device.segInCount, device.segPerSec,
              ambient.now⟩) store = (true, after) →
            Attempt.Refuses (execUnless violations.accountDevice (insertAccountDevice
              ⟨device.uuid, refAdminUuid, device.nickname, device.comment, device.isTopLevel,
                device.refParentUuid, ambient.now⟩)) after
              (violations.accountDevice = true ∨ device.uuid ∈ store.accountDevice.keys) := by
          intro after done
          rw [← insertDeviceBasic_accountDevice (execUnless_some done)]
          exact refuses_insertAccountDevice _ _ _
        rw [Attempt.andThen_kept_iff (refuses_insertDeviceBasic _ _ _) second]
        simp only [not_or, Bool.not_eq_true]
        exact ⟨fun done fresh kept => (done ⟨kept, fresh⟩).symm,
          fun done both => (done both.2 both.1).symm⟩

/-- The first statement decides the result, and the license is set in any case. -/
theorem dbAccountAdminAdd_atomic_iff (hash : Bytes → Bytes) (account : NewAccount) :
    (Attempt.Kept (violations.dbAccountAdminAdd hash ambient account store) store ∧
      ((violations.dbAccountAdminAdd hash ambient account store).1 = true →
        worldTolower account.uuid ∉ store.basic.keys)) ↔
      (Mutation.adminAdd account).Whole violations ambient store := by
  simp only [Violations.dbAccountAdminAdd, Mutation.Whole]
  cases license : dbAccountLicenseGet store account.uuid with
  | some _ =>
    have present := dbAccountLicenseGet_some license
    exact iff_of_true ⟨fun _ => rfl, fun done => nomatch done⟩ fun absent => absurd present absent
  | none =>
    have absent := dbAccountLicenseGet_none license
    simp only [absent, not_false_eq_true, forall_const]
    generalize worldTolower (strncpyUuid account.uuid ambient.junk) = lowerUuid
    rcases refuses_insertBasic violations.basic store
      ⟨lowerUuid, hash account.pwd, account.nickname, account.comment, ambient.now⟩ with
      ⟨refused, same⟩ | ⟨done, after, _, same⟩
    · rw [same, if_pos refused.symm]
      dsimp only
      rw [← dbAccountLicenseSet_same_iff]
      exact ⟨fun both => both.1 rfl, fun stays => ⟨fun _ => stays, fun done => nomatch done⟩⟩
    · rw [same, if_neg fun either => done either.symm]
      exact ⟨fun both => both.2 rfl, fun fresh => ⟨fun failed => (nomatch failed), fun _ => fresh⟩⟩

/-- A call is atomic exactly if the tables and the violations are such that it is whole. -/
theorem mutation_atomic_iff (hash : Bytes → Bytes) (mutation : Mutation) :
    mutation.Atomic violations hash ambient store ↔ mutation.Whole violations ambient store := by
  cases mutation with
  | adminAdd account =>
    rw [← dbAccountAdminAdd_atomic_iff violations store ambient hash account]
    constructor
    · rintro ⟨kept, fresh⟩
      exact ⟨kept, fresh account rfl⟩
    · rintro ⟨kept, fresh⟩
      refine ⟨kept, fun other same => ?_⟩
      cases same
      exact fresh
  | childAdd refAdminUuid account =>
    rw [← dbAccountChildAdd_kept_iff violations store ambient hash refAdminUuid account]
    exact ⟨Mutation.Atomic.kept, fun kept => ⟨kept, fun _ other => nomatch other⟩⟩
  | licenseSet uuid license =>
    exact Iff.trans ⟨Mutation.Atomic.kept, fun kept => ⟨kept, fun _ other => nomatch other⟩⟩
      (dbAccountLicenseSet_kept_iff violations store ambient uuid license)
  | deviceAdd refAdminUuid device =>
    rw [← dbAccountDeviceAdd_kept_iff violations store ambient refAdminUuid device]
    exact ⟨Mutation.Atomic.kept, fun kept => ⟨kept, fun _ other => nomatch other⟩⟩

end Calls

/-- Where no statement violates a constraint the calls are those of the store. -/
theorem Mutation.run_none (hash : Bytes → Bytes) (ambient : Ambient) (store : Store)
    (mutation : Mutation) : mutation.run .none hash ambient store =
      match mutation with
      | .adminAdd account => Db.dbAccountAdminAdd store hash ambient account
      | .childAdd refAdminUuid account =>
          Db.dbAccountChildAdd store hash ambient refAdminUuid account
      | .licenseSet uuid license => Db.dbAccountLicenseSet store ambient uuid license
      | .deviceAdd refAdminUuid device =>
          Db.dbAccountDeviceAdd store ambient refAdminUuid device := by
  cases mutation with
  | licenseSet uuid license => rfl
  | adminAdd account => rfl
  | childAdd refAdminUuid account =>
    simp only [run, Violations.dbAccountChildAdd, Db.dbAccountChildAdd, Attempt.andThen, execUnless,
      Violations.none, Bool.false_eq_true, if_false]
    generalize insertBasic store _ = inserted
    obtain ⟨r, after⟩ := inserted
    cases r <;> rfl
  | deviceAdd refAdminUuid device =>
    simp only [run, Violations.dbAccountDeviceAdd, Db.dbAccountDeviceAdd, Attempt.andThen, execUnless,
      Violations.none, insertDeviceBasic, insertAccountDevice, Bool.false_eq_true, if_false]
    cases store.deviceBasic.insert _ with
    | none => rfl
    | some deviceBasic => rfl

/-- A child becomes an admin by a call that fails. -/
theorem not_atomic_child :
    let ambient : Ambient := ⟨[50], [], []⟩
    let kid : NewAccount := ⟨ascii "kid", [], [], []⟩
    let store := (Db.dbAccountChildAdd (Db.dbAccountAdminAdd .init id ambient
      ⟨ascii "adm", [], [], []⟩).2 id ambient (ascii "adm") kid).2
    ¬ (Mutation.adminAdd kid).Atomic .none id ambient store := by
  intro ambient kid store atomic
  exact absurd (atomic.kept rfl) (by decide)

end Livezure.Db
