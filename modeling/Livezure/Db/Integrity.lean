import Livezure.Core.Transition
import Livezure.Db.Account

/-! Which calls keep the account tables consistent. -/
namespace Livezure.Db
open Livezure.Core

/-- The calls that change accounts. -/
inductive AccountCall where
  | adminAdd (account : NewAccount)
  | adminDel (uuid : Bytes)
  | childAdd (refAdminUuid : Bytes) (account : NewAccount)
  | childDel (refAdminUuid : Bytes) (specifiedUuid : Option Bytes)
  | licenseSet (uuid : Bytes) (license : AccountLicense)
  deriving DecidableEq

def AccountCall.run (hash : Bytes → Bytes) (store : Store) (call : Ambient × AccountCall) : Store :=
  match call.2 with
  | .adminAdd account => (dbAccountAdminAdd store hash call.1 account).2
  | .adminDel uuid => (dbAccountAdminDel store uuid).2
  | .childAdd refAdminUuid account => (dbAccountChildAdd store hash call.1 refAdminUuid account).2
  | .childDel refAdminUuid specifiedUuid => (dbAccountChildDel store refAdminUuid specifiedUuid).2
  | .licenseSet uuid license => (dbAccountLicenseSet store call.1 uuid license).2

/-- Every account is an admin or a child, not both, and children belong to admins. -/
structure Integrity (store : Store) : Prop where
  someTable : ∀ uuid ∈ store.basic.keys, uuid ∈ store.admin.keys ∨ uuid ∈ store.child.keys
  oneTable : ∀ uuid ∈ store.basic.keys, uuid ∈ store.admin.keys → uuid ∉ store.child.keys
  admins : ∀ uuid ∈ store.admin.keys, uuid ∈ store.basic.keys
  children : ∀ uuid ∈ store.child.keys, uuid ∈ store.basic.keys
  refs : ∀ row ∈ store.child.rows, row.refAdminUuid ∈ store.admin.keys

/-- The calls after which the tables are as consistent as before. -/
def KeepsIntegrity (store : Store) (call : Ambient × AccountCall) : Prop :=
  match call.2 with
  | .adminAdd account => account.uuid ∈ store.admin.keys ∨
      worldTolower (strncpyUuid account.uuid call.1.junk) ∉ store.child.keys
  | .adminDel uuid => uuid ∉ store.child.keys ∧ ∀ row ∈ store.child.rows, row.refAdminUuid ≠ uuid
  | .childAdd refAdminUuid account =>
      worldTolower (strncpyUuid refAdminUuid call.1.junkRef) ∉ store.child.keys ∨
        worldTolower (strncpyUuid account.uuid call.1.junk) ∈ store.basic.keys
  | .childDel refAdminUuid (some uuid) => uuid ∉ store.basic.keys ∨
      ∃ row ∈ store.child.rows, row.uuid = uuid ∧ row.refAdminUuid = refAdminUuid
  | .childDel refAdminUuid none => refAdminUuid ∉ store.admin.keys
  | .licenseSet uuid _ => uuid ∈ store.admin.keys

private theorem insertAdmin_keys (store : Store) (row : AccountAdmin) :
    (insertAdmin store row).2.basic = store.basic ∧ (insertAdmin store row).2.child = store.child ∧
      ∀ uuid, uuid ∈ (insertAdmin store row).2.admin.keys ↔
        uuid ∈ store.admin.keys ∨ uuid = row.uuid := by
  unfold insertAdmin
  split
  · rename_i refused
    refine ⟨rfl, rfl, fun uuid => ⟨.inl, ?_⟩⟩
    rintro (old | rfl)
    · exact old
    · exact Table.insert_eq_none.mp refused
  · rename_i done
    exact ⟨rfl, rfl, fun uuid => Table.keys_insert done⟩

theorem insertBasic_keys (store : Store) (row : AccountBasic) :
    (insertBasic store row).2.admin = store.admin ∧ (insertBasic store row).2.child = store.child ∧
      ∀ uuid, uuid ∈ (insertBasic store row).2.basic.keys ↔
        uuid ∈ store.basic.keys ∨ uuid = row.uuid := by
  unfold insertBasic
  split
  · rename_i refused
    refine ⟨rfl, rfl, fun uuid => ⟨.inl, ?_⟩⟩
    rintro (old | rfl)
    · exact old
    · exact Table.insert_eq_none.mp refused
  · rename_i done
    exact ⟨rfl, rfl, fun uuid => Table.keys_insert done⟩

theorem insertChild_fresh (store : Store) (row : AccountChild)
    (fresh : row.uuid ∉ store.child.keys) :
    ∃ child, insertChild store row = (true, { store with child }) ∧
      child.rows = store.child.rows ++ [row] := by
  obtain ⟨child, done, rows⟩ := Table.insert_absent fresh
  refine ⟨child, ?_, rows⟩
  unfold insertChild
  rw [done]

private theorem clearLicense_keys (store : Store) (uuid : Bytes) :
    (clearLicense store uuid).basic = store.basic ∧ (clearLicense store uuid).child = store.child ∧
      ∀ other, (other ∈ (clearLicense store uuid).admin.keys ∨ other = uuid) ↔
        other ∈ store.admin.keys ∨ other = uuid := by
  unfold clearLicense
  split
  · exact ⟨rfl, rfl, fun _ => Iff.rfl⟩
  · unfold dbAccountLicenseDel
    split
    · refine ⟨rfl, rfl, fun other => ?_⟩
      rw [Table.keys_deleteKey]
      by_cases same : other = uuid <;> simp [same]
    · exact ⟨rfl, rfl, fun _ => Iff.rfl⟩

theorem dbAccountLicenseSet_keys (store : Store) (ambient : Ambient) (uuid : Bytes)
    (license : AccountLicense) :
    (dbAccountLicenseSet store ambient uuid license).2.basic = store.basic ∧
      (dbAccountLicenseSet store ambient uuid license).2.child = store.child ∧
      ∀ other, other ∈ (dbAccountLicenseSet store ambient uuid license).2.admin.keys ↔
        other ∈ store.admin.keys ∨ other = uuid := by
  unfold dbAccountLicenseSet
  obtain ⟨basic, child, keys⟩ := insertAdmin_keys (clearLicense store uuid)
    ⟨uuid, license.licenseType, license.licensedTime, license.expiredTime, ambient.now⟩
  obtain ⟨basicBefore, childBefore, keysBefore⟩ := clearLicense_keys store uuid
  exact ⟨basic.trans basicBefore, child.trans childBefore,
    fun other => (keys other).trans (keysBefore other)⟩

/-- The rows of an admin's children stay in `t_account_basic`. -/
theorem dbAccountAdminDel_tables (store : Store) (uuid : Bytes) :
    (∀ other, other ∈ (dbAccountAdminDel store uuid).2.basic.keys ↔
      other ∈ store.basic.keys ∧ other ≠ uuid) ∧
    (∀ other, other ∈ (dbAccountAdminDel store uuid).2.admin.keys ↔
      other ∈ store.admin.keys ∧ other ≠ uuid) ∧
    (∀ row, row ∈ (dbAccountAdminDel store uuid).2.child.rows ↔
      row ∈ store.child.rows ∧ row.refAdminUuid ≠ uuid) := by
  have gone : uuid ∉ (store.basic.deleteWhere fun row => decide (row.uuid = uuid)).keys := by
    rw [Table.keys_deleteKey]
    exact fun both => both.2 rfl
  simp only [dbAccountAdminDel, dbAccountLicenseDel, if_neg gone, dbAccountChildDel,
    dbAccountDeviceDel]
  refine ⟨fun other => ?_, fun other => Table.keys_deleteKey, fun row => ?_⟩
  · constructor
    · intro member
      obtain ⟨row, listed, rfl⟩ := Table.mem_keys.mp member
      exact Table.keys_deleteKey.mp (Table.key_mem (Table.mem_deleteWhere.mp listed).1)
    · rintro ⟨member, differ⟩
      obtain ⟨row, listed, rfl⟩ := Table.mem_keys.mp member
      refine Table.key_mem (Table.mem_deleteWhere.mpr ⟨Table.mem_deleteWhere.mpr ⟨listed, ?_⟩, ?_⟩)
      · exact decide_eq_false differ
      · simp [differ]
  · rw [Table.mem_deleteWhere, decide_eq_false_iff_not]

/-- A child is refused, or gets its two rows one after the other. -/
theorem dbAccountChildAdd_cases (store : Store) (hash : Bytes → Bytes) (ambient : Ambient)
    (refAdminUuid : Bytes) (account : NewAccount) :
    ((worldTolower (strncpyUuid refAdminUuid ambient.junkRef) ∉ store.basic.keys ∨
        worldTolower (strncpyUuid account.uuid ambient.junk) ∈ store.basic.keys) ∧
      dbAccountChildAdd store hash ambient refAdminUuid account = (false, store)) ∨
    (worldTolower (strncpyUuid refAdminUuid ambient.junkRef) ∈ store.basic.keys ∧
      ∃ basic, store.basic.insert ⟨worldTolower (strncpyUuid account.uuid ambient.junk),
          hash account.pwd, account.nickname, account.comment, ambient.now⟩ = some basic ∧
        dbAccountChildAdd store hash ambient refAdminUuid account =
          insertChild { store with basic } ⟨worldTolower (strncpyUuid account.uuid ambient.junk),
            worldTolower (strncpyUuid refAdminUuid ambient.junkRef), ambient.now⟩) := by
  have known := dbAccountCheckUserExist_isSome store ambient
    (worldTolower (strncpyUuid refAdminUuid ambient.junkRef))
  unfold dbAccountChildAdd
  dsimp only
  split
  · rename_i absent
    rw [absent] at known
    exact .inl ⟨.inl fun listed => Bool.false_ne_true (known.mpr listed), rfl⟩
  · rename_i user present
    rw [present] at known
    unfold insertBasic
    cases inserted : store.basic.insert ⟨worldTolower (strncpyUuid account.uuid ambient.junk),
        hash account.pwd, account.nickname, account.comment, ambient.now⟩ with
    | none => exact .inl ⟨.inr (Table.insert_eq_none.mp inserted), rfl⟩
    | some basic => exact .inr ⟨known.mp rfl, basic, rfl, rfl⟩

/-- Consistency is about keys and references only. -/
theorem Integrity.congr {before after : Store} (integrity : Integrity before)
    (basic : ∀ uuid, uuid ∈ after.basic.keys ↔ uuid ∈ before.basic.keys)
    (admin : ∀ uuid, uuid ∈ after.admin.keys ↔ uuid ∈ before.admin.keys)
    (child : ∀ row, row ∈ after.child.rows ↔ row ∈ before.child.rows) : Integrity after := by
  have children : ∀ uuid, uuid ∈ after.child.keys ↔ uuid ∈ before.child.keys := by
    intro uuid
    simp only [Table.mem_keys, child]
  constructor
  · intro uuid member
    rw [admin, children]
    exact integrity.someTable uuid ((basic uuid).mp member)
  · intro uuid member
    rw [admin, children]
    exact integrity.oneTable uuid ((basic uuid).mp member)
  · intro uuid member
    exact (basic uuid).mpr (integrity.admins uuid ((admin uuid).mp member))
  · intro uuid member
    exact (basic uuid).mpr (integrity.children uuid ((children uuid).mp member))
  · intro row member
    exact (admin _).mpr (integrity.refs row ((child row).mp member))

section Exact
variable {store : Store} (integrity : Integrity store)
include integrity

theorem Integrity.adminDel_iff (uuid : Bytes) : Integrity (dbAccountAdminDel store uuid).2 ↔
    uuid ∉ store.child.keys ∧ ∀ row ∈ store.child.rows, row.refAdminUuid ≠ uuid := by
  obtain ⟨basic, admin, child⟩ := dbAccountAdminDel_tables store uuid
  -- a child and its admin are two accounts
  have apart : ∀ row ∈ store.child.rows, row.uuid ≠ row.refAdminUuid := by
    intro row listed same
    have key := Table.key_mem listed
    exact integrity.oneTable row.uuid (integrity.children _ key)
      (same ▸ integrity.refs row listed) key
  constructor
  · intro after
    constructor
    · intro listed
      obtain ⟨row, member, rfl⟩ := Table.mem_keys.mp listed
      have stays := (child row).mpr ⟨member, (apart row member).symm⟩
      exact ((basic _).mp (after.children _ (Table.key_mem stays))).2 rfl
    · rintro row member rfl
      have key := Table.key_mem member
      have stays := (basic _).mpr ⟨integrity.children _ key, apart row member⟩
      rcases after.someTable _ stays with isAdmin | isChild
      · exact integrity.oneTable _ (integrity.children _ key) ((admin _).mp isAdmin).1 key
      · obtain ⟨other, listed, same⟩ := Table.mem_keys.mp isChild
        obtain ⟨before, differ⟩ := (child other).mp listed
        rw [Table.row_unique before member same] at differ
        exact differ rfl
  · rintro ⟨noChild, noRef⟩
    have children : ∀ other, other ∈ (dbAccountAdminDel store uuid).2.child.keys ↔
        other ∈ store.child.keys := by
      intro other
      constructor
      · intro member
        obtain ⟨row, listed, rfl⟩ := Table.mem_keys.mp member
        exact Table.key_mem ((child row).mp listed).1
      · intro member
        obtain ⟨row, listed, rfl⟩ := Table.mem_keys.mp member
        exact Table.key_mem ((child row).mpr ⟨listed, noRef row listed⟩)
    constructor
    · intro other member
      obtain ⟨before, differ⟩ := (basic other).mp member
      rcases integrity.someTable other before with isAdmin | isChild
      · exact .inl ((admin other).mpr ⟨isAdmin, differ⟩)
      · exact .inr ((children other).mpr isChild)
    · intro other member isAdmin
      rw [children]
      exact integrity.oneTable other ((basic other).mp member).1 ((admin other).mp isAdmin).1
    · intro other member
      obtain ⟨isAdmin, differ⟩ := (admin other).mp member
      exact (basic other).mpr ⟨integrity.admins other isAdmin, differ⟩
    · intro other member
      have isChild := (children other).mp member
      refine (basic other).mpr ⟨integrity.children other isChild, ?_⟩
      rintro rfl
      exact noChild isChild
    · intro row member
      obtain ⟨listed, differ⟩ := (child row).mp member
      exact (admin _).mpr ⟨integrity.refs row listed, differ⟩

theorem Integrity.licenseSet_iff (ambient : Ambient) (uuid : Bytes) (license : AccountLicense) :
    Integrity (dbAccountLicenseSet store ambient uuid license).2 ↔ uuid ∈ store.admin.keys := by
  obtain ⟨basic, child, keys⟩ := dbAccountLicenseSet_keys store ambient uuid license
  constructor
  · intro after
    have isAdmin := (keys uuid).mpr (.inr rfl)
    have exists_ := after.admins uuid isAdmin
    have alone := after.oneTable uuid exists_ isAdmin
    rw [basic] at exists_
    rw [child] at alone
    exact (integrity.someTable uuid exists_).resolve_right alone
  · intro isAdmin
    refine integrity.congr (by simp [basic]) ?_ (by simp [child])
    intro other
    rw [keys]
    constructor
    · rintro (old | rfl)
      · exact old
      · exact isAdmin
    · exact .inl

theorem Integrity.adminAdd_iff (hash : Bytes → Bytes) (ambient : Ambient) (account : NewAccount) :
    Integrity (dbAccountAdminAdd store hash ambient account).2 ↔
      account.uuid ∈ store.admin.keys ∨
        worldTolower (strncpyUuid account.uuid ambient.junk) ∉ store.child.keys := by
  unfold dbAccountAdminAdd
  split
  · rename_i license present
    exact iff_of_true integrity (.inl (dbAccountLicenseGet_some present))
  · rename_i absent
    rw [or_iff_right (dbAccountLicenseGet_none absent)]
    let uuid := worldTolower (strncpyUuid account.uuid ambient.junk)
    let row : AccountBasic :=
      ⟨uuid, hash account.pwd, account.nickname, account.comment, ambient.now⟩
    obtain ⟨adminBefore, childBefore, basicKeys⟩ := insertBasic_keys store row
    obtain ⟨basicSame, childSame, adminKeys⟩ :=
      dbAccountLicenseSet_keys (insertBasic store row).2 ambient uuid checkingLicense
    rw [adminBefore] at adminKeys
    rw [childBefore] at childSame
    change Integrity (dbAccountLicenseSet (insertBasic store row).2 ambient uuid checkingLicense).2 ↔ _
    constructor
    · intro after
      have isAdmin := (adminKeys uuid).mpr (.inr rfl)
      have alone := after.oneTable uuid (after.admins uuid isAdmin) isAdmin
      rwa [childSame] at alone
    · intro noChild
      constructor
      · intro other member
        rw [basicSame, basicKeys] at member
        rw [adminKeys, childSame]
        rcases member with old | rfl
        · exact (integrity.someTable other old).imp_left .inl
        · exact .inl (.inr rfl)
      · intro other member isAdmin
        rw [childSame]
        rcases (adminKeys other).mp isAdmin with old | rfl
        · exact integrity.oneTable other (integrity.admins other old) old
        · exact noChild
      · intro other member
        rw [basicSame, basicKeys]
        exact ((adminKeys other).mp member).imp_left (integrity.admins other)
      · intro other member
        rw [childSame] at member
        rw [basicSame, basicKeys]
        exact .inl (integrity.children other member)
      · intro child member
        rw [childSame] at member
        exact (adminKeys _).mpr (.inl (integrity.refs child member))

theorem Integrity.childAdd_iff (hash : Bytes → Bytes) (ambient : Ambient) (refAdminUuid : Bytes)
    (account : NewAccount) :
    Integrity (dbAccountChildAdd store hash ambient refAdminUuid account).2 ↔
      worldTolower (strncpyUuid refAdminUuid ambient.junkRef) ∉ store.child.keys ∨
        worldTolower (strncpyUuid account.uuid ambient.junk) ∈ store.basic.keys := by
  rcases dbAccountChildAdd_cases store hash ambient refAdminUuid account with
    ⟨refused, same⟩ | ⟨known, basic, done, same⟩
  · rw [same]
    refine iff_of_true integrity (refused.imp_left fun absent isChild => ?_)
    exact absent (integrity.children _ isChild)
  · rw [same]
    let uuid := worldTolower (strncpyUuid account.uuid ambient.junk)
    let ref := worldTolower (strncpyUuid refAdminUuid ambient.junkRef)
    have fresh : uuid ∉ store.basic.keys := (Table.insert_some done).1
    have noChild : uuid ∉ store.child.keys := fun listed => fresh (integrity.children uuid listed)
    obtain ⟨child, inserted, rows⟩ :=
      insertChild_fresh { store with basic } ⟨uuid, ref, ambient.now⟩ noChild
    rw [inserted, or_iff_left fresh]
    have basicKeys : ∀ other, other ∈ basic.keys ↔ other ∈ store.basic.keys ∨ other = uuid :=
      fun _ => Table.keys_insert done
    have childKeys : ∀ other, other ∈ child.keys ↔ other ∈ store.child.keys ∨ other = uuid := by
      simp [Table.keys, rows, or_comm, eq_comm]
    constructor
    · intro after
      have isAdmin : ref ∈ store.admin.keys :=
        after.refs ⟨uuid, ref, ambient.now⟩ (by simp [rows])
      exact integrity.oneTable ref known isAdmin
    · intro notChild
      have isAdmin := (integrity.someTable ref known).resolve_right notChild
      constructor
      · intro other member
        rcases (basicKeys other).mp member with old | rfl
        · exact (integrity.someTable other old).imp_right fun isChild =>
            (childKeys other).mpr (.inl isChild)
        · exact .inr ((childKeys uuid).mpr (.inr rfl))
      · intro other _ otherAdmin isChild
        have listed := integrity.admins other otherAdmin
        rcases (childKeys other).mp isChild with old | rfl
        · exact integrity.oneTable other listed otherAdmin old
        · exact fresh listed
      · intro other otherAdmin
        exact (basicKeys other).mpr (.inl (integrity.admins other otherAdmin))
      · intro other isChild
        exact (basicKeys other).mpr
          (((childKeys other).mp isChild).imp_left (integrity.children other))
      · intro row member
        rcases List.mem_append.mp (rows ▸ member) with old | new
        · exact integrity.refs row old
        · rw [List.mem_singleton.mp new]
          exact isAdmin

theorem Integrity.childDel_some_iff (refAdminUuid uuid : Bytes) :
    Integrity (dbAccountChildDel store refAdminUuid (some uuid)).2 ↔ uuid ∉ store.basic.keys ∨
      ∃ row ∈ store.child.rows, row.uuid = uuid ∧ row.refAdminUuid = refAdminUuid := by
  simp only [dbAccountChildDel]
  constructor
  · intro after
    by_cases listed : uuid ∈ store.basic.keys
    · refine .inr ?_
      have gone : uuid ∉ (store.basic.deleteWhere fun row => decide (row.uuid = uuid)).keys := by
        rw [Table.keys_deleteKey]
        exact fun both => both.2 rfl
      rcases integrity.someTable uuid listed with isAdmin | isChild
      · exact absurd (after.admins uuid isAdmin) gone
      · obtain ⟨row, member, same⟩ := Table.mem_keys.mp isChild
        refine ⟨row, member, same, ?_⟩
        by_contra differ
        have stays : row ∈ (store.child.deleteWhere fun row =>
            decide (row.refAdminUuid = refAdminUuid) && decide (row.uuid = uuid)).rows :=
          Table.mem_deleteWhere.mpr ⟨member, by simp [differ]⟩
        exact gone (same ▸ after.children _ (Table.key_mem stays))
    · exact .inl listed
  · rintro (absent | ⟨gone, listed, rfl, rfl⟩)
    · have noChild : ∀ row ∈ store.child.rows, row.uuid ≠ uuid := by
        rintro row member rfl
        exact absent (integrity.children _ (Table.key_mem member))
      refine integrity.congr (fun other => ?_) (fun _ => Iff.rfl) (fun row => ?_)
      · rw [Table.keys_deleteKey, and_iff_left_iff_imp]
        rintro member rfl
        exact absent member
      · rw [Table.mem_deleteWhere, and_iff_left_iff_imp]
        intro member
        simp [noChild row member]
    · have isChild := Table.key_mem listed
      have alone : gone.uuid ∉ store.admin.keys := fun isAdmin =>
        integrity.oneTable _ (integrity.children _ isChild) isAdmin isChild
      constructor
      · intro other member
        obtain ⟨before, differ⟩ := Table.keys_deleteKey.mp member
        refine (integrity.someTable other before).imp_right fun otherChild => ?_
        obtain ⟨row, old, rfl⟩ := Table.mem_keys.mp otherChild
        exact Table.key_mem (Table.mem_deleteWhere.mpr ⟨old, by simp [differ]⟩)
      · intro other member isAdmin otherChild
        obtain ⟨row, left, rfl⟩ := Table.mem_keys.mp otherChild
        exact integrity.oneTable _ (Table.keys_deleteKey.mp member).1 isAdmin
          (Table.key_mem (Table.mem_deleteWhere.mp left).1)
      · intro other isAdmin
        refine Table.keys_deleteKey.mpr ⟨integrity.admins other isAdmin, ?_⟩
        rintro rfl
        exact alone isAdmin
      · intro other otherChild
        obtain ⟨row, left, rfl⟩ := Table.mem_keys.mp otherChild
        obtain ⟨old, kept⟩ := Table.mem_deleteWhere.mp left
        refine Table.keys_deleteKey.mpr ⟨integrity.children _ (Table.key_mem old), ?_⟩
        intro same
        rw [Table.row_unique old listed same] at kept
        simp at kept
      · intro row left
        exact integrity.refs row (Table.mem_deleteWhere.mp left).1

theorem Integrity.childDel_none_iff (refAdminUuid : Bytes) :
    Integrity (dbAccountChildDel store refAdminUuid none).2 ↔
      refAdminUuid ∉ store.admin.keys := by
  simp only [dbAccountChildDel]
  constructor
  · intro after isAdmin
    obtain ⟨row, left, rfl⟩ := Table.mem_keys.mp (after.admins _ isAdmin)
    simpa [isAdmin] using (Table.mem_deleteWhere.mp left).2
  · intro noAdmin
    refine integrity.congr (fun other => ?_) (fun _ => Iff.rfl) (fun row => ?_)
    · simp only [Table.mem_keys, Table.mem_deleteWhere]
      constructor
      · rintro ⟨row, ⟨member, _⟩, rfl⟩
        exact ⟨row, member, rfl⟩
      · rintro ⟨row, member, rfl⟩
        refine ⟨row, ⟨member, ?_⟩, rfl⟩
        rw [Bool.and_eq_false_iff, decide_eq_false_iff_not, decide_eq_false_iff_not]
        by_cases same : row.uuid = refAdminUuid
        · exact .inr fun isAdmin => noAdmin (Table.mem_keys.mpr (same ▸ isAdmin))
        · exact .inl same
    · rw [Table.mem_deleteWhere, and_iff_left_iff_imp]
      intro member
      refine decide_eq_false fun same => ?_
      exact noAdmin (same ▸ integrity.refs row member)

theorem Integrity.run_iff (hash : Bytes → Bytes) (call : Ambient × AccountCall) :
    Integrity (AccountCall.run hash store call) ↔ KeepsIntegrity store call := by
  obtain ⟨ambient, call⟩ := call
  cases call with
  | adminAdd account => exact integrity.adminAdd_iff hash ambient account
  | adminDel uuid => exact integrity.adminDel_iff uuid
  | childAdd refAdminUuid account => exact integrity.childAdd_iff hash ambient refAdminUuid account
  | childDel refAdminUuid specifiedUuid =>
    cases specifiedUuid with
    | some uuid => exact integrity.childDel_some_iff refAdminUuid uuid
    | none => exact integrity.childDel_none_iff refAdminUuid
  | licenseSet uuid license => exact integrity.licenseSet_iff ambient uuid license

end Exact

theorem Integrity.init (order : RowOrder) : Integrity (Store.init order) where
  someTable := nofun
  oneTable := nofun
  admins := nofun
  children := nofun
  refs := nofun

/-- Calls from empty tables keep them consistent exactly if each of them is one of those
calls, in the tables it finds. -/
theorem AccountCall.integrity_iff (order : RowOrder) (hash : Bytes → Bytes)
    (calls : List (Ambient × AccountCall)) :
    (∀ store ∈ trajectory (AccountCall.run hash) (Store.init order) calls, Integrity store) ↔
      AllSteps (AccountCall.run hash) KeepsIntegrity (Store.init order) calls :=
  trajectory_iff (AccountCall.run hash) (fun _ call integrity => integrity.run_iff hash call)
    (Integrity.init order) calls

/-- An admin, a child of it, and the admin deleted: the child keeps its row in
`t_account_basic` and has none elsewhere. -/
theorem AccountCall.adminDel_leaves_child :
    let quiet : Ambient := ⟨[50], [], []⟩
    let calls : List (Ambient × AccountCall) :=
      [(quiet, .adminAdd ⟨[97], [112], [], []⟩), (quiet, .childAdd [97] ⟨[98], [112], [], []⟩),
        (quiet, .adminDel [97])]
    let store := calls.foldl (AccountCall.run id) Store.init
    store ∈ trajectory (AccountCall.run id) Store.init calls ∧ store.basic.keys = [[98]] ∧
      store.admin.keys = [] ∧ store.child.keys = [] ∧
      ¬∀ reached ∈ trajectory (AccountCall.run id) Store.init calls, Integrity reached := by
  intro quiet calls store
  have reached : store ∈ trajectory (AccountCall.run id) Store.init calls := by
    simp [calls, store, trajectory]
  have basic : store.basic.keys = [[98]] := by decide
  have admin : store.admin.keys = [] := by decide
  have child : store.child.keys = [] := by decide
  refine ⟨reached, basic, admin, child, fun consistent => ?_⟩
  have known := (consistent store reached).someTable [98] (by simp [basic])
  simp [admin, child] at known

end Livezure.Db
