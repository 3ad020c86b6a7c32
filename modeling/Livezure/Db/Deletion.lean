import Livezure.Db.Printing

/-! What the deletions of children, and of an admin with all that is its, take from the tables. -/
namespace Livezure.Db
open Livezure.Core

/-! ### `db_account_child_del` -/

/-- The accounts to delete: the specified one, if it is a child of the admin, or all its children. -/
def Store.Doomed (store : Store) (refAdminUuid : Bytes) (specifiedUuid : Option Bytes)
    (uuid : Bytes) : Prop :=
  store.ChildOf refAdminUuid uuid ∧ ∀ specified ∈ specifiedUuid, uuid = specified

/-- The accounts to delete have lost their two rows, and nothing else has changed. -/
structure ChildrenDeleted (before after : Store) (refAdminUuid : Bytes)
    (specifiedUuid : Option Bytes) : Prop where
  child : after.child.Without before.child fun row =>
    before.Doomed refAdminUuid specifiedUuid row.uuid
  basic : after.basic.Without before.basic fun row =>
    before.Doomed refAdminUuid specifiedUuid row.uuid
  tables : after = { before with child := after.child, basic := after.basic }
  own : ∀ row ∈ before.basic.rows, row.uuid = refAdminUuid → row ∈ after.basic.rows
  admins : ∀ row ∈ before.basic.rows, row.uuid ∈ before.admin.keys → row ∈ after.basic.rows
  others : ∀ row ∈ before.child.rows, row.refAdminUuid ≠ refAdminUuid → row ∈ after.child.rows ∧
    ∀ login ∈ before.basic.rows, login.uuid = row.uuid → login ∈ after.basic.rows

/-- The statements select what they should: the specified account is a child of the admin (and
no admin), or cannot log in anyway. Without one, no child of the admin can log in, and the
admin itself is gone. -/
def SelectsChildren (store : Store) (refAdminUuid : Bytes) : Option Bytes → Prop
  | some uuid => uuid ∈ store.basic.keys →
      store.ChildOf refAdminUuid uuid ∧ uuid ≠ refAdminUuid ∧ uuid ∉ store.admin.keys
  | none => (∀ uuid, store.ChildOf refAdminUuid uuid → uuid ∉ store.basic.keys) ∧
      (refAdminUuid ∈ store.admin.keys → refAdminUuid ∉ store.basic.keys)

section Children
variable (store : Store) (refAdminUuid : Bytes)

/-- The first statement takes the rows of the accounts to delete. -/
theorem dbAccountChildDel_child (specifiedUuid : Option Bytes) :
    (dbAccountChildDel store refAdminUuid specifiedUuid).2.child.Without store.child fun row =>
      store.Doomed refAdminUuid specifiedUuid row.uuid := by
  cases specifiedUuid with
  | none =>
    refine Table.without_deleteWhere.mpr fun row member => ?_
    simp [Store.Doomed, Store.childOf_row member]
  | some uuid =>
    refine Table.without_deleteWhere.mpr fun row member => ?_
    simp [Store.Doomed, Store.childOf_row member]

variable {store refAdminUuid}

/-- An account's login row is left if the account is not to be deleted. -/
theorem ChildrenDeleted.of_without {after : Store} {specifiedUuid : Option Bytes}
    (child : after.child.Without store.child fun row =>
      store.Doomed refAdminUuid specifiedUuid row.uuid)
    (basic : after.basic.Without store.basic fun row =>
      store.Doomed refAdminUuid specifiedUuid row.uuid)
    (tables : after = { store with child := after.child, basic := after.basic })
    (spared : ∀ uuid ∈ store.basic.keys, uuid = refAdminUuid ∨ uuid ∈ store.admin.keys →
      ¬store.Doomed refAdminUuid specifiedUuid uuid) :
    ChildrenDeleted store after refAdminUuid specifiedUuid where
  child := child
  basic := basic
  tables := tables
  own row member same := (basic row).mpr ⟨member, spared _ (Table.key_mem member) (.inl same)⟩
  admins row member isAdmin := (basic row).mpr ⟨member, spared _ (Table.key_mem member) (.inr isAdmin)⟩
  others row member differ := by
    have alive : ¬store.Doomed refAdminUuid specifiedUuid row.uuid := fun doomed =>
      differ ((Store.childOf_row member).mp doomed.1)
    refine ⟨(child row).mpr ⟨member, alive⟩, fun login listed same => ?_⟩
    refine (basic login).mpr ⟨listed, ?_⟩
    change ¬store.Doomed refAdminUuid specifiedUuid login.uuid
    rw [same]
    exact alive

private theorem childrenDeleted_some_iff (uuid : Bytes) :
    ChildrenDeleted store (dbAccountChildDel store refAdminUuid (some uuid)).2 refAdminUuid (some uuid) ↔
      SelectsChildren store refAdminUuid (some uuid) := by
  constructor
  · intro deleted known
    obtain ⟨row, member, rfl⟩ := Table.mem_keys.mp known
    have gone : row ∉ (dbAccountChildDel store refAdminUuid (some row.uuid)).2.basic.rows := by
      simp [dbAccountChildDel]
    have doomed : store.Doomed refAdminUuid (some row.uuid) row.uuid := by
      by_contra alive
      exact gone ((deleted.basic row).mpr ⟨member, alive⟩)
    exact ⟨doomed.1, fun same => gone (deleted.own row member same),
      fun isAdmin => gone (deleted.admins row member isAdmin)⟩
  · intro selects
    refine .of_without (dbAccountChildDel_child store refAdminUuid (some uuid)) ?_ rfl ?_
    · refine Table.without_deleteWhere.mpr fun row member => ?_
      rw [decide_eq_true_iff]
      constructor
      · rintro rfl
        exact ⟨(selects (Table.key_mem member)).1, fun _ same => Option.some.inj same⟩
      · intro doomed
        exact doomed.2 uuid rfl
    · rintro other known special ⟨_, specified⟩
      obtain rfl := specified uuid rfl
      obtain ⟨_, notOwn, noAdmin⟩ := selects known
      exact special.elim notOwn noAdmin

private theorem childrenDeleted_none_iff :
    ChildrenDeleted store (dbAccountChildDel store refAdminUuid none).2 refAdminUuid none ↔
      SelectsChildren store refAdminUuid none := by
  have doomed_iff : ∀ uuid, store.Doomed refAdminUuid none uuid ↔ store.ChildOf refAdminUuid uuid :=
    fun uuid => and_iff_left fun _ given => nomatch given
  constructor
  · intro deleted
    have noAdmin : refAdminUuid ∈ store.admin.keys → refAdminUuid ∉ store.basic.keys := by
      intro isAdmin known
      obtain ⟨row, member, rfl⟩ := Table.mem_keys.mp known
      have stays := deleted.own row member rfl
      simp [dbAccountChildDel, isAdmin] at stays
    refine ⟨fun uuid child known => ?_, noAdmin⟩
    obtain ⟨row, member, rfl⟩ := Table.mem_keys.mp known
    -- the subquery finds the admin, or nothing
    have stays : row ∈ (dbAccountChildDel store refAdminUuid none).2.basic.rows := by
      refine Table.mem_deleteWhere.mpr ⟨member, ?_⟩
      rw [Bool.and_eq_false_iff, decide_eq_false_iff_not, decide_eq_false_iff_not]
      by_contra both
      obtain ⟨rfl, isAdmin⟩ := not_or.mp both |>.imp not_not.mp not_not.mp
      exact noAdmin isAdmin (Table.key_mem member)
    exact ((deleted.basic row).mp stays).2 ((doomed_iff _).mpr child)
  · rintro ⟨noLogin, noAdmin⟩
    refine .of_without (dbAccountChildDel_child store refAdminUuid none) ?_ rfl ?_
    · refine Table.without_deleteWhere.mpr fun row member => ?_
      have known := Table.key_mem member
      refine iff_of_false ?_ fun doomed => noLogin _ ((doomed_iff _).mp doomed) known
      rw [Bool.and_eq_true, decide_eq_true_iff, decide_eq_true_iff]
      rintro ⟨same, isAdmin⟩
      exact noAdmin (same ▸ isAdmin) (same ▸ known)
    · intro uuid known _ doomed
      exact noLogin uuid ((doomed_iff _).mp doomed) known

end Children

/-- The deletion of a child, or of all children of an admin, is of those rows exactly if the
statements select them. -/
theorem childrenDeleted_iff (store : Store) (refAdminUuid : Bytes) (specifiedUuid : Option Bytes) :
    ChildrenDeleted store (dbAccountChildDel store refAdminUuid specifiedUuid).2 refAdminUuid
        specifiedUuid ↔ SelectsChildren store refAdminUuid specifiedUuid := by
  cases specifiedUuid with
  | none => exact childrenDeleted_none_iff
  | some uuid => exact childrenDeleted_some_iff uuid

/-- An admin `a` with a child `b`, and the admin `c`; the child is not of `c`. -/
private def family : Store :=
  ((dbAccountChildAdd
    (dbAccountAdminAdd (dbAccountAdminAdd .init id ⟨[], [], []⟩ ⟨ascii "a", [], [], []⟩).2
      id ⟨[], [], []⟩ ⟨ascii "c", [], [], []⟩).2
    id ⟨[], [], []⟩ (ascii "a") ⟨ascii "b", [], [], []⟩).2)

/-- All children of `a` are deleted: `b` keeps its login, and `a` loses its own. A child `c` of
`a` is deleted: the admin `c` loses its login. -/
theorem not_childrenDeleted :
    ((dbAccountChildDel family (ascii "a") none).2.basic.keys = [ascii "c", ascii "b"] ∧
      family.ChildOf (ascii "a") (ascii "b") ∧
      ¬ChildrenDeleted family (dbAccountChildDel family (ascii "a") none).2 (ascii "a") none) ∧
    (dbAccountChildDel family (ascii "a") (some (ascii "c"))).2.basic.keys =
      [ascii "a", ascii "b"] ∧ ¬family.ChildOf (ascii "a") (ascii "c") ∧
    ¬ChildrenDeleted family (dbAccountChildDel family (ascii "a") (some (ascii "c"))).2 (ascii "a")
      (some (ascii "c")) := by
  constructor
  · have child : family.ChildOf (ascii "a") (ascii "b") :=
      ⟨⟨ascii "b", ascii "a", []⟩, by decide, rfl, rfl⟩
    refine ⟨by decide, child, fun deleted => ?_⟩
    exact absurd (deleted.own ⟨ascii "a", [], [], [], []⟩ (by decide) rfl) (by decide)
  · have noChild : ∀ row ∈ family.child.rows, row.uuid ≠ ascii "c" := by decide
    refine ⟨by decide, ?_, fun deleted => ?_⟩
    · rintro ⟨row, member, _, same⟩
      exact noChild row member same
    · exact absurd (deleted.admins ⟨ascii "c", [], [], [], []⟩ (by decide) (by decide)) (by decide)

/-! ### `db_account_admin_del` -/

/-- Every account is either an admin or a child, and children refer to admins. -/
structure AccountIntegrity (store : Store) : Prop where
  oneTable : ∀ uuid ∈ store.basic.keys, (uuid ∈ store.admin.keys ↔ uuid ∉ store.child.keys)
  refs : ∀ row ∈ store.child.rows, row.refAdminUuid ∈ store.admin.keys

/-- The account is the admin, or a child of it. -/
def Store.InTenant (store : Store) (tenant uuid : Bytes) : Prop :=
  uuid = tenant ∨ store.ChildOf tenant uuid

/-- An admin, its children, and the devices of any of them are gone, and nothing else is. -/
structure TenantDeleted (before after : Store) (tenant : Bytes) : Prop where
  basic : after.basic.Without before.basic fun row => before.InTenant tenant row.uuid
  admin : after.admin.Without before.admin fun row => before.InTenant tenant row.uuid
  child : after.child.Without before.child fun row => before.InTenant tenant row.uuid
  accountDevice : after.accountDevice.Without before.accountDevice fun row =>
    before.InTenant tenant row.refAdminUuid
  deviceBasic : after.deviceBasic.Without before.deviceBasic fun row =>
    ∃ device ∈ before.accountDevice.rows, before.InTenant tenant device.refAdminUuid ∧
      device.uuid = row.uuid

/-- The account has rows in other tables than `t_account_child`. -/
def Store.HasMore (store : Store) (uuid : Bytes) : Prop :=
  uuid ∈ store.basic.keys ∨ uuid ∈ store.admin.keys ∨
    ∃ device ∈ store.accountDevice.rows, device.refAdminUuid = uuid

/-- What the five deletions take together. The one that should take the logins of the children
looks for the admin, which the second one has deleted. -/
structure AdminDeletion (before after : Store) (uuid : Bytes) : Prop where
  basic : after.basic.Without before.basic fun row => row.uuid = uuid
  admin : after.admin.Without before.admin fun row => row.uuid = uuid
  child : after.child.Without before.child fun row => row.refAdminUuid = uuid
  accountDevice : after.accountDevice.Without before.accountDevice fun row =>
    row.refAdminUuid = uuid
  deviceBasic : after.deviceBasic.Without before.deviceBasic fun row =>
    ∃ device ∈ before.accountDevice.rows, device.refAdminUuid = uuid ∧ device.uuid = row.uuid

private theorem dbAccountAdminDel_deletion (store : Store) (uuid : Bytes) :
    AdminDeletion store (dbAccountAdminDel store uuid).2 uuid := by
  have gone : uuid ∉ (store.basic.deleteWhere fun row => decide (row.uuid = uuid)).keys := by
    rw [Table.keys_deleteKey]
    exact fun both => both.2 rfl
  have noAdmin : uuid ∉ (store.admin.deleteWhere fun row => decide (row.uuid = uuid)).keys := by
    rw [Table.keys_deleteKey]
    exact fun both => both.2 rfl
  simp only [dbAccountAdminDel, dbAccountLicenseDel, if_neg gone, dbAccountChildDel,
    dbAccountDeviceDel]
  constructor
  · intro row
    simp only [Table.mem_deleteWhere, decide_eq_false_iff_not, and_iff_left_iff_imp]
    intro _
    rw [Bool.and_eq_false_iff, decide_eq_false_iff_not, decide_eq_false_iff_not]
    by_cases same : row.uuid = uuid
    · exact .inr (same ▸ noAdmin)
    · exact .inl same
  · refine Table.without_deleteWhere.mpr fun row _ => ?_
    exact decide_eq_true_iff
  · refine Table.without_deleteWhere.mpr fun row _ => ?_
    exact decide_eq_true_iff
  · refine Table.without_deleteWhere.mpr fun row _ => ?_
    simp [ownsDevice]
  · refine Table.without_deleteWhere.mpr fun row _ => ?_
    simp [ownsDevice, and_assoc]

/-- The admin is no child of another one, and its children have nothing but their rows in
`t_account_child`. -/
structure Store.Alone (store : Store) (tenant : Bytes) : Prop where
  ownRow : ∀ row ∈ store.child.rows, row.uuid = tenant → row.refAdminUuid = tenant
  children : ∀ uuid, store.ChildOf tenant uuid → store.HasMore uuid → uuid = tenant

section Tenant
variable {store : Store} {tenant : Bytes}

/-- The deletion leaves what its children have besides their rows in `t_account_child`. -/
theorem TenantDeleted.alone
    (deleted : TenantDeleted store (dbAccountAdminDel store tenant).2 tenant) :
    store.Alone tenant := by
  have deletion := dbAccountAdminDel_deletion store tenant
  constructor
  · intro row member same
    exact (deletion.child.congr_iff.mp deleted.child row member).mpr (.inl same)
  · rintro uuid child (login | admin | ⟨device, listed, same⟩)
    · obtain ⟨row, member, rfl⟩ := Table.mem_keys.mp login
      exact (deletion.basic.congr_iff.mp deleted.basic row member).mpr (.inr child)
    · obtain ⟨row, member, rfl⟩ := Table.mem_keys.mp admin
      exact (deletion.admin.congr_iff.mp deleted.admin row member).mpr (.inr child)
    · subst same
      exact (deletion.accountDevice.congr_iff.mp deleted.accountDevice device listed).mpr (.inr child)

theorem Store.Alone.deleted (alone : store.Alone tenant) :
    TenantDeleted store (dbAccountAdminDel store tenant).2 tenant := by
  have deletion := dbAccountAdminDel_deletion store tenant
  have inTenant : ∀ {uuid}, store.HasMore uuid → (uuid = tenant ↔ store.InTenant tenant uuid) :=
    fun more => (or_iff_left_of_imp fun child => alone.children _ child more).symm
  refine ⟨deletion.basic.congr_iff.mpr ?_, deletion.admin.congr_iff.mpr ?_,
    deletion.child.congr_iff.mpr ?_, deletion.accountDevice.congr_iff.mpr ?_,
    deletion.deviceBasic.congr_iff.mpr ?_⟩
  · intro row member
    exact inTenant (.inl (Table.key_mem member))
  · intro row member
    exact inTenant (.inr (.inl (Table.key_mem member)))
  · intro row member
    rw [Store.InTenant, Store.childOf_row member]
    exact (or_iff_right_of_imp (alone.ownRow row member)).symm
  · intro row member
    exact inTenant (.inr (.inr ⟨row, member, rfl⟩))
  · intro row _
    refine exists_congr fun device => and_congr_right fun listed => and_congr_left' ?_
    exact inTenant (.inr (.inr ⟨device, listed, rfl⟩))

end Tenant

/-- The deletion of an admin, by statements that mean it, takes the whole tenant exactly if its
children have nothing but their rows in `t_account_child`. -/
theorem tenantDeleted_iff (store : Store) (tenant : Bytes) (plain : AllPlain (adminDelPrints tenant)) :
    AllDenote (adminDelPrints tenant) ∧
      (TenantDeleted store (dbAccountAdminDel store tenant).2 tenant ↔ store.Alone tenant) :=
  ⟨allDenote_iff.mpr plain, TenantDeleted.alone, Store.Alone.deleted⟩

/-- The admin `c` has no children. -/
theorem tenantDeleted_childless :
    TenantDeleted family (dbAccountAdminDel family (ascii "c")).2 (ascii "c") := by
  refine (tenantDeleted_iff family (ascii "c") (by decide)).2.mpr ⟨by decide, ?_⟩
  rintro uuid ⟨row, member, ref, _⟩
  have others : ∀ row ∈ family.child.rows, row.refAdminUuid ≠ ascii "c" := by decide
  exact absurd ref (others row member)

/-- Under the integrity of the tables the admin itself is no child. -/
theorem AccountIntegrity.alone_iff {store : Store} {tenant : Bytes}
    (integrity : AccountIntegrity store) (known : tenant ∈ store.basic.keys)
    (isAdmin : tenant ∈ store.admin.keys) :
    store.Alone tenant ↔ ∀ uuid, store.ChildOf tenant uuid → ¬store.HasMore uuid := by
  have notChild : ∀ row ∈ store.child.rows, row.uuid ≠ tenant := fun row member same =>
    (integrity.oneTable tenant known).mp isAdmin (same ▸ Table.key_mem member)
  constructor
  · rintro alone uuid ⟨row, member, ref, rfl⟩ more
    exact notChild row member (alone.children _ ⟨row, member, ref, rfl⟩ more)
  · intro nothing
    refine ⟨fun row member same => absurd same (notChild row member), ?_⟩
    exact fun uuid child more => absurd more (nothing uuid child)

/-- The child `b` keeps its login when `a` is deleted. -/
theorem not_tenantDeleted :
    AccountIntegrity family ∧ ascii "a" ∈ family.basic.keys ∧ ascii "a" ∈ family.admin.keys ∧
      ascii "b" ∈ (dbAccountAdminDel family (ascii "a")).2.basic.keys ∧
      ¬TenantDeleted family (dbAccountAdminDel family (ascii "a")).2 (ascii "a") := by
  refine ⟨⟨by decide, by decide⟩, by decide, by decide, by decide, fun deleted => ?_⟩
  have left := (deleted.basic ⟨ascii "b", [], [], [], []⟩).mp (by decide)
  exact left.2 (.inr ⟨⟨ascii "b", ascii "a", []⟩, by decide, rfl, rfl⟩)

/-- Where every child has its login, the admin must have no children. -/
theorem Integrity.deletesTenant_iff {store : Store} {tenant : Bytes} (integrity : Integrity store)
    (isAdmin : tenant ∈ store.admin.keys) :
    TenantDeleted store (dbAccountAdminDel store tenant).2 tenant ↔
      ∀ row ∈ store.child.rows, row.refAdminUuid ≠ tenant := by
  have accounts : AccountIntegrity store := by
    refine ⟨fun uuid known => ⟨integrity.oneTable uuid known, fun noChild => ?_⟩, integrity.refs⟩
    exact (integrity.someTable uuid known).resolve_right noChild
  have alone := accounts.alone_iff (integrity.admins tenant isAdmin) isAdmin
  constructor
  · intro deleted row member same
    refine alone.mp deleted.alone row.uuid ⟨row, member, same, rfl⟩ ?_
    exact .inl (integrity.children _ (Table.key_mem member))
  · intro noChild
    refine (alone.mpr ?_).deleted
    rintro _ ⟨row, member, same, rfl⟩
    exact absurd same (noChild row member)

end Livezure.Db
