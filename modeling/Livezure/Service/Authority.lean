import Livezure.Db.Devices
import Livezure.Service.AccountCreation
import Livezure.Service.Connections
import Livezure.Service.SessionLookup
import Livezure.Service.Tenant

/-! What every run of the server keeps: the tables stay consistent, a session says the truth about
its account, and nobody but a tenant's own accounts changes the tenant's rows. -/
namespace Livezure.Service
open Livezure.Core Db Rpc

/-- Consistent tables; the uuids of admins are as `db_account_admin_add` leaves them where nothing is
cut off. -/
structure StoreSound (store : Store) : Prop where
  integrity : Integrity store
  short : ∀ uuid ∈ store.admin.keys, uuid.length < 16
  lower : ∀ uuid ∈ store.admin.keys, worldTolower uuid = uuid
  /-- A device has a row in both of its tables. -/
  paired : ∀ uuid, uuid ∈ store.deviceBasic.keys ↔ uuid ∈ store.accountDevice.keys
  owners : ∀ row ∈ store.accountDevice.rows, row.refAdminUuid ∈ store.admin.keys

/-- What a session says about its account. -/
structure SessionSound (store : Store) (session : OnlineSession) : Prop where
  isAdmin : session.isAdmin = true ↔ session.basic.uuid ∈ store.admin.keys
  ref : session.isAdmin = false → session.refAdminUuid ∈ store.admin.keys

/-! ### The tables that are filled before the server starts -/

theorem worldTolower_idem (text : Bytes) : worldTolower (worldTolower text) = worldTolower text := by
  have twice : ∀ byte : UInt8, tolower (tolower byte) = tolower byte := by
    intro byte
    unfold tolower
    split
    · rename_i upper
      rw [if_neg]
      rintro ⟨_, le⟩
      have first := UInt8.le_iff_toNat_le.mp upper.1
      have last := UInt8.le_iff_toNat_le.mp upper.2
      have sum := UInt8.le_iff_toNat_le.mp le
      rw [UInt8.toNat_add] at sum
      simp only [UInt8.reduceToNat] at first last sum
      omega
    · rfl
  rw [worldTolower, worldTolower, List.map_map]
  exact List.map_congr_left fun byte _ => twice byte

theorem StoreSound.init (order : RowOrder) : StoreSound (Store.init order) where
  integrity := .init order
  short := nofun
  lower := nofun
  paired _ := Iff.rfl
  owners := nofun

/-- `db_account_admin_add` of a new account that fits. -/
theorem StoreSound.adminAdd {store : Store} (sound : StoreSound store) (hash : Bytes → Bytes)
    (ambient : Ambient) {account : NewAccount} (fits : account.uuid.length < 16)
    (fresh : worldTolower account.uuid ∉ store.child.keys) :
    StoreSound (dbAccountAdminAdd store hash ambient account).2 := by
  have own : worldTolower (strncpyUuid account.uuid ambient.junk) = worldTolower account.uuid := by
    rw [strncpyUuid, if_pos fits]
  have integrity := (sound.integrity.adminAdd_iff hash ambient account).mpr (.inr (by rwa [own]))
  have only := dbAccountAdminAdd_only store hash ambient account
  have admins : ∀ uuid ∈ (dbAccountAdminAdd store hash ambient account).2.admin.keys,
      uuid ∈ store.admin.keys ∨ uuid = worldTolower account.uuid := by
    intro uuid member
    unfold dbAccountAdminAdd at member
    split at member
    · exact .inl member
    · obtain ⟨_, _, keys⟩ := dbAccountLicenseSet_keys
        (insertBasic store ⟨worldTolower (strncpyUuid account.uuid ambient.junk), hash account.pwd,
          account.nickname, account.comment, ambient.now⟩).2 ambient
        (worldTolower (strncpyUuid account.uuid ambient.junk)) checkingLicense
      have listed := (keys uuid).mp member
      rwa [(insertBasic_keys store _).1, own] at listed
  refine ⟨integrity, fun uuid member => ?_, fun uuid member => ?_, ?_, ?_⟩
  · rcases admins uuid member with old | rfl
    · exact sound.short uuid old
    · rw [worldTolower, List.length_map]
      exact fits
  · rcases admins uuid member with old | rfl
    · exact sound.lower uuid old
    · exact worldTolower_idem account.uuid
  · rw [only.deviceBasic, only.accountDevice]
    exact sound.paired
  · rw [only.accountDevice]
    exact fun row member => only.admins _ (sound.owners row member)

/-! ### What a session makes of the tables -/

/-- What becomes of sound tables through a sound session of an account. -/
inductive Effect (store : Store) (uuid : Bytes) : Store → Prop where
  | same : Effect store uuid store
  | created {basic : Table AccountBasic.uuid} {child : Table AccountChild.uuid} (row : AccountBasic)
      (now : Bytes) : uuid ∈ store.admin.keys → row.uuid ∉ store.basic.keys →
      basic.rows = store.basic.rows ++ [row] →
      child.rows = store.child.rows ++ [⟨row.uuid, uuid, now⟩] →
      Effect store uuid { store with basic, child }
  | modified {change : AccountBasic → AccountBasic}
      (keeps : ∀ row, (change row).uuid = row.uuid) : uuid ∈ store.admin.keys ∨ uuid ∈ store.child.keys →
      Effect store uuid { store with
        basic := store.basic.updateWhere (fun row => decide (row.uuid = uuid)) change keeps }
  | deleted (child : AccountChild) : uuid ∈ store.admin.keys → child ∈ store.child.rows →
      child.refAdminUuid = uuid →
      Effect store uuid (dbAccountChildDel store uuid (some child.uuid)).2
  | deviceCreated {deviceBasic : Table DeviceBasic.uuid} {accountDevice : Table AccountDevice.uuid}
      (stored : StoredDevice) : uuid ∈ store.admin.keys → stored.owned.refAdminUuid = uuid →
      deviceBasic.rows = store.deviceBasic.rows ++ [stored.basicRow] →
      accountDevice.rows = store.accountDevice.rows ++ [stored.accountRow] →
      Effect store uuid { store with deviceBasic, accountDevice }
  | deviceDeleted (device : Bytes) : uuid ∈ store.admin.keys →
      Effect store uuid (dbAccountDeviceDel store uuid (some device)).2

section Effect
variable {store after : Store} {uuid : Bytes}

theorem StoreSound.storedRef (sound : StoreSound store) (isAdmin : uuid ∈ store.admin.keys)
    (junk : Bytes) : worldTolower (strncpyUuid uuid junk) = uuid := by
  rw [strncpyUuid, if_pos (sound.short uuid isAdmin), sound.lower uuid isAdmin]

theorem Change.effect {hash : Bytes → Bytes} {ambient : Ambient} {session : OnlineSession}
    (change : Change hash ambient store session after) (sound : StoreSound store)
    (own : SessionSound store session) : Effect store session.basic.uuid after := by
  cases change with
  | create account isAdmin =>
    have known := own.isAdmin.mp isAdmin
    rcases dbAccountChildAdd_cases store hash ambient session.basic.uuid account with
      ⟨_, refused⟩ | ⟨_, basic, inserted, added⟩
    · rw [refused]
      exact .same
    · obtain ⟨fresh, rows⟩ := Table.insert_some inserted
      -- the children are accounts, so there is no child of this uuid either
      have noChild := fun isChild => fresh (sound.integrity.children _ isChild)
      rw [sound.storedRef known] at added
      obtain ⟨child, done, childRows⟩ := insertChild_fresh { store with basic }
        ⟨worldTolower (strncpyUuid account.uuid ambient.junk), session.basic.uuid, ambient.now⟩ noChild
      rw [added, done]
      exact .created _ ambient.now known fresh rows childRows
  | modify updated =>
    rcases dbAccountUpdate_ok updated with rfl | ⟨known, _, keeps, rfl⟩
    · exact .same
    · exact .modified keeps known
  | delete child isAdmin member ref => exact .deleted child isAdmin member ref
  | deviceCreate device isAdmin =>
    rcases dbAccountDeviceAdd_cases store ambient session.basic.uuid device with
      ⟨deviceBasic, accountDevice, added, _, basicRows, accountRows⟩ | refused | ⟨fresh, listed⟩
    · rw [added]
      exact .deviceCreated _ isAdmin rfl basicRows accountRows
    · rw [refused]
      exact .same
    · exact absurd ((sound.paired _).mpr listed) fresh
  | deviceDelete device isAdmin => exact .deviceDeleted device isAdmin

theorem Effect.admin (effect : Effect store uuid after) : after.admin = store.admin := by
  cases effect <;> rfl

private theorem keys_append {Row Key : Type} {key : Row → Key} {before after : Table key} {row : Row}
    (rows : after.rows = before.rows ++ [row]) (value : Key) :
    value ∈ after.keys ↔ value ∈ before.keys ∨ value = key row := by
  simp [Table.keys, rows, or_comm, eq_comm]

theorem Effect.integrity (effect : Effect store uuid after) (sound : StoreSound store) :
    Integrity after := by
  have integrity := sound.integrity
  cases effect with
  | same => exact integrity
  | created row now isAdmin fresh basicRows childRows =>
    have basics := keys_append basicRows
    have children := keys_append childRows
    have noAdmin : row.uuid ∉ store.admin.keys := fun member => fresh (integrity.admins _ member)
    constructor
    · intro other member
      rcases (basics other).mp member with old | rfl
      · exact (integrity.someTable other old).imp_right fun isChild => (children other).mpr (.inl isChild)
      · exact .inr ((children _).mpr (.inr rfl))
    · intro other member isAdmin isChild
      rcases (children other).mp isChild with old | rfl
      · exact integrity.oneTable other (integrity.children other old) isAdmin old
      · exact noAdmin isAdmin
    · intro other member
      exact (basics other).mpr (.inl (integrity.admins other member))
    · intro other member
      exact (basics other).mpr (((children other).mp member).imp_left (integrity.children other))
    · intro child member
      rw [childRows] at member
      rcases List.mem_append.mp member with old | new
      · exact integrity.refs child old
      · rw [List.mem_singleton.mp new]
        exact isAdmin
  | modified keeps known =>
    refine integrity.congr (fun other => ?_) (fun _ => Iff.rfl) fun _ => Iff.rfl
    rw [Table.keys_updateWhere]
  | deleted child isAdmin member ref =>
    exact (integrity.childDel_some_iff _ _).mpr (.inr ⟨child, member, rfl, ref⟩)
  | deviceCreated stored => exact integrity.congr (fun _ => Iff.rfl) (fun _ => Iff.rfl) fun _ => Iff.rfl
  | deviceDeleted device => exact integrity.congr (fun _ => Iff.rfl) (fun _ => Iff.rfl) fun _ => Iff.rfl

theorem Effect.paired (effect : Effect store uuid after) (sound : StoreSound store) (device : Bytes) :
    device ∈ after.deviceBasic.keys ↔ device ∈ after.accountDevice.keys := by
  cases effect with
  | deviceCreated stored isAdmin owner basicRows accountRows =>
    rw [keys_append basicRows, keys_append accountRows, sound.paired]
    rfl
  | deviceDeleted gone isAdmin =>
    -- the rows of `t_device_basic` go by the uuids of the rows of `t_account_device` that go
    have paired := sound.paired device
    simp only [dbAccountDeviceDel, Table.mem_keys, Table.mem_deleteWhere, decide_eq_false_iff_not,
      List.mem_map, Table.mem_select, not_exists, not_and] at paired ⊢
    constructor
    · rintro ⟨row, ⟨_, stays⟩, rfl⟩
      obtain ⟨account, listed, same⟩ := paired.mp ⟨row, ‹_›, rfl⟩
      refine ⟨account, ⟨listed, ?_⟩, same⟩
      exact Bool.eq_false_iff.mpr fun owned => stays account ⟨listed, owned⟩ same
    · rintro ⟨account, ⟨listed, foreign⟩, rfl⟩
      obtain ⟨row, member, same⟩ := paired.mpr ⟨account, listed, rfl⟩
      refine ⟨row, ⟨member, fun other chosen equal => ?_⟩, same⟩
      rw [Table.row_unique chosen.1 listed (equal.trans same), foreign] at chosen
      exact Bool.false_ne_true chosen.2
  | _ => exact sound.paired device

theorem Effect.owners (effect : Effect store uuid after) (sound : StoreSound store) :
    ∀ row ∈ after.accountDevice.rows, row.refAdminUuid ∈ after.admin.keys := by
  cases effect with
  | deviceCreated stored isAdmin owner basicRows accountRows =>
    intro row member
    rw [accountRows] at member
    rcases List.mem_append.mp member with old | new
    · exact sound.owners row old
    · rw [List.mem_singleton.mp new]
      change stored.owned.refAdminUuid ∈ store.admin.keys
      rwa [owner]
  | deviceDeleted gone isAdmin =>
    intro row member
    exact sound.owners row (Table.mem_deleteWhere.mp member).1
  | _ => exact sound.owners

theorem Effect.sound (effect : Effect store uuid after) (sound : StoreSound store) :
    StoreSound after where
  integrity := effect.integrity sound
  short := effect.admin ▸ sound.short
  lower := effect.admin ▸ sound.lower
  paired := effect.paired sound
  owners := effect.owners sound

private theorem tenantOf_iff {tenant : Bytes} : tenantOf store uuid = some tenant ↔
    (uuid ∈ store.admin.keys ∧ uuid = tenant) ∨
      (uuid ∉ store.admin.keys ∧ store.ChildOf tenant uuid) := by
  by_cases isAdmin : uuid ∈ store.admin.keys
  · simp [tenantOf, isAdmin]
  · simp only [isAdmin, false_and, not_false_eq_true, true_and, false_or]
    by_cases isChild : uuid ∈ store.child.keys
    · obtain ⟨child, member, rfl⟩ := Table.mem_keys.mp isChild
      rw [tenantOf_child member isAdmin, Option.some.injEq, Store.childOf_row member]
    · have nobody : ∀ ref, ¬store.ChildOf ref uuid := by
        rintro ref ⟨child, member, _, rfl⟩
        exact isChild (Table.key_mem member)
      have empty : (store.child.select fun row => decide (row.uuid = uuid)) = [] := by
        by_contra some_
        obtain ⟨child, member, same⟩ := Table.select_ne_nil.mp some_
        exact isChild (of_decide_eq_true same ▸ Table.key_mem member)
      rw [tenantOf, if_neg isAdmin, empty]
      exact iff_of_false (fun found => Option.some_ne_none tenant found.symm) (nobody tenant)

/-- The rows that make up a tenant are the same in both stores. -/
structure Alone (store after : Store) (tenant : Bytes) : Prop where
  admin : after.admin = store.admin
  child : ∀ row, row.refAdminUuid = tenant → (row ∈ after.child.rows ↔ row ∈ store.child.rows)
  basic : ∀ row, row.uuid = tenant ∨ store.ChildOf tenant row.uuid →
    (row ∈ after.basic.rows ↔ row ∈ store.basic.rows)
  accountDevice : ∀ row, row.refAdminUuid = tenant →
    (row ∈ after.accountDevice.rows ↔ row ∈ store.accountDevice.rows)
  deviceBasic : ∀ row, (∃ device ∈ store.accountDevice.rows, device.refAdminUuid = tenant ∧
      device.uuid = row.uuid) → (row ∈ after.deviceBasic.rows ↔ row ∈ store.deviceBasic.rows)

theorem Alone.childOf {tenant : Bytes} (alone : Alone store after tenant) (uuid : Bytes) :
    after.ChildOf tenant uuid ↔ store.ChildOf tenant uuid := by
  constructor
  · rintro ⟨row, member, ref, same⟩
    exact ⟨row, (alone.child row ref).mp member, ref, same⟩
  · rintro ⟨row, member, ref, same⟩
    exact ⟨row, (alone.child row ref).mpr member, ref, same⟩

theorem Alone.owns {tenant : Bytes} (alone : Alone store after tenant) (row : Row) :
    Owns after tenant row ↔ Owns store tenant row := by
  cases row with
  | basic row =>
    have account : (row.uuid = tenant ∨ after.ChildOf tenant row.uuid) ↔
        (row.uuid = tenant ∨ store.ChildOf tenant row.uuid) := or_congr_right (alone.childOf _)
    exact (and_congr_right fun _ => account).trans (and_congr_left fun own => alone.basic row own)
  | admin row =>
    unfold Owns
    rw [alone.admin]
  | child row => exact and_congr_left fun own => alone.child row own
  | deviceBasic row =>
    have device : (∃ device ∈ after.accountDevice.rows, device.refAdminUuid = tenant ∧
          device.uuid = row.uuid) ↔
        ∃ device ∈ store.accountDevice.rows, device.refAdminUuid = tenant ∧
          device.uuid = row.uuid := by
      constructor
      · rintro ⟨device, member, ref, same⟩
        exact ⟨device, (alone.accountDevice device ref).mp member, ref, same⟩
      · rintro ⟨device, member, ref, same⟩
        exact ⟨device, (alone.accountDevice device ref).mpr member, ref, same⟩
    exact (and_congr_right fun _ => device).trans (and_congr_left fun own => alone.deviceBasic row own)
  | accountDevice row => exact and_congr_left fun own => alone.accountDevice row own

theorem Alone.tenantOf {tenant : Bytes} (alone : Alone store after tenant) (uuid : Bytes) :
    tenantOf after uuid = some tenant ↔ tenantOf store uuid = some tenant := by
  rw [tenantOf_iff, tenantOf_iff, alone.admin, alone.childOf]

theorem Alone.refl (store : Store) (tenant : Bytes) : Alone store store tenant :=
  ⟨rfl, fun _ _ => Iff.rfl, fun _ _ => Iff.rfl, fun _ _ => Iff.rfl, fun _ _ => Iff.rfl⟩

/-- A row that is appended is found neither by another tenant nor by another key. -/
theorem mem_append_other {Row Key : Type} {key : Row → Key} {before after : Table key} {row : Row}
    (rows : after.rows = before.rows ++ [row]) {other : Row} (differ : other ≠ row) :
    other ∈ after.rows ↔ other ∈ before.rows := by
  rw [rows, List.mem_append, List.mem_singleton, or_iff_left differ]

private theorem key_fresh_of_append {Row Key : Type} {key : Row → Key} {before after : Table key} {row : Row}
    (rows : after.rows = before.rows ++ [row]) : key row ∉ before.keys := by
  have unique := after.unique
  rw [rows, List.map_append] at unique
  intro member
  exact (List.nodup_append.mp unique).2.2 _ member _ (List.mem_singleton_self _) rfl

/-- An account of another tenant leaves a tenant alone. -/
theorem Effect.alone (effect : Effect store uuid after) (sound : StoreSound store) {tenant : Bytes}
    (isTenant : tenant ∈ store.admin.keys) (foreign : Service.tenantOf store uuid ≠ some tenant) :
    Alone store after tenant := by
  have integrity := sound.integrity
  have differ : uuid ≠ tenant := by
    rintro rfl
    exact foreign (tenantOf_iff.mpr (.inl ⟨isTenant, rfl⟩))
  have accounts : ∀ row : AccountBasic, row.uuid = tenant ∨ store.ChildOf tenant row.uuid →
      row.uuid ∈ store.basic.keys := by
    rintro row (rfl | ⟨child, member, _, same⟩)
    · exact integrity.admins _ isTenant
    · exact same ▸ integrity.children _ (Table.key_mem member)
  cases effect with
  | same => exact .refl store tenant
  | created row now isAdmin fresh basicRows childRows =>
    refine { Alone.refl store tenant with child := fun other ref => ?_, basic := fun other own => ?_ }
    · apply mem_append_other childRows
      rintro rfl
      exact differ ref
    · apply mem_append_other basicRows
      rintro rfl
      exact fresh (accounts other own)
  | modified keeps known =>
    refine { Alone.refl store tenant with basic := fun other own => ?_ }
    refine Table.mem_updateKey keeps fun same => ?_
    rcases own with isTenant | isChild
    · exact differ (same.symm.trans isTenant)
    · obtain ⟨child, member, ref, rfl⟩ := same ▸ isChild
      have known := integrity.children _ (Table.key_mem member)
      exact foreign (tenantOf_iff.mpr (.inr
        ⟨fun isAdmin => integrity.oneTable _ known isAdmin (Table.key_mem member), child, member, ref, rfl⟩))
  | deleted child isAdmin member ref =>
    refine { Alone.refl store tenant with child := fun other own => ?_, basic := fun other own => ?_ }
    · rw [dbAccountChildDel, Table.mem_deleteWhere, Bool.and_eq_false_iff]
      exact and_iff_left (.inl (decide_eq_false fun same => differ (same.symm.trans own)))
    · rw [dbAccountChildDel, Table.mem_deleteWhere]
      refine and_iff_left (decide_eq_false fun same => ?_)
      rcases own with isTenant' | ⟨second, listed, secondRef, secondUuid⟩
      · have listed := Table.key_mem member
        rw [← same, isTenant'] at listed
        exact integrity.oneTable tenant (integrity.admins _ isTenant) isTenant listed
      · rw [Table.row_unique listed member (secondUuid.trans same)] at secondRef
        exact differ (ref.symm.trans secondRef)
  | deviceCreated stored isAdmin owner basicRows accountRows =>
    refine { Alone.refl store tenant with
      accountDevice := fun other ref => ?_, deviceBasic := fun other own => ?_ }
    · apply mem_append_other accountRows
      rintro rfl
      exact differ (owner.symm.trans ref)
    · apply mem_append_other basicRows
      rintro rfl
      obtain ⟨device, listed, _, same⟩ := own
      apply key_fresh_of_append basicRows
      rw [sound.paired]
      exact same ▸ Table.key_mem listed
  | deviceDeleted gone isAdmin =>
    refine { Alone.refl store tenant with
      accountDevice := fun other ref => ?_, deviceBasic := fun other own => ?_ }
    · rw [dbAccountDeviceDel, Table.mem_deleteWhere, ownsDevice, Bool.and_eq_false_iff]
      exact and_iff_left (.inl (decide_eq_false fun same => differ (same.symm.trans ref)))
    · rw [dbAccountDeviceDel, Table.mem_deleteWhere]
      refine and_iff_left (decide_eq_false fun selected => ?_)
      obtain ⟨device, listed, ref, same⟩ := own
      obtain ⟨second, chosen, equal⟩ := List.mem_map.mp selected
      obtain ⟨member, owned⟩ := Table.mem_select.mp chosen
      rw [ownsDevice, Bool.and_eq_true, decide_eq_true_iff] at owned
      rw [Table.row_unique member listed (equal.trans same.symm)] at owned
      exact differ (owned.1.symm.trans ref)

/-- The account of every session keeps its standing, as no admin comes or goes. -/
theorem Effect.session (effect : Effect store uuid after) {session : OnlineSession}
    (own : SessionSound store session) : SessionSound after session where
  isAdmin := effect.admin ▸ own.isAdmin
  ref := effect.admin ▸ own.ref

end Effect

/-! ### What a request makes of the tables and the sessions -/

/-- A login with the right password started the session. -/
structure Begins (hash : Bytes → Bytes) (store : Store) (request : Request)
    (session : OnlineSession) : Prop where
  login : request.handler = .accountLogin
  fd : session.net.fd = request.fd
  password : ∃ pwd, loginParams request.req = some (session.basic.uuid, pwd) ∧
    ∃ row ∈ store.basic.rows, row.uuid = session.basic.uuid ∧ row.pwd = hash pwd
  isAdmin : session.isAdmin = true ↔ session.basic.uuid ∈ store.admin.keys
  child : session.isAdmin = false → ∃ ref, session.refAdminUuid = ref.take 17 ∧
    store.ChildOf ref session.basic.uuid

theorem Begins.sound {hash : Bytes → Bytes} {store : Store} {request : Request}
    {session : OnlineSession} (begins : Begins hash store request session) (sound : StoreSound store) :
    SessionSound store session where
  isAdmin := begins.isAdmin
  ref isChild := by
    obtain ⟨ref, cut, child, member, rfl, _⟩ := begins.child isChild
    have isAdmin := sound.integrity.refs child member
    have short := sound.short _ isAdmin
    rw [cut, List.take_of_length_le (by omega)]
    exact isAdmin

section Requests
variable {hash : Bytes → Bytes} {around : Surroundings} {server : Server} {request : Request}
  {outcome : Outcome}

private theorem reqAccountLogin_begins
    (done : reqAccountLogin server request.fd request.req hash around = .ok outcome)
    (login : request.handler = .accountLogin) :
    ∀ entry ∈ outcome.server.sessions, entry ∈ server.sessions ∨
      Begins hash server.store request entry.session := by
  intro entry member
  rcases reqAccountLogin_cases done with
    rfl | rfl | ⟨uuid, pwd, user, session, kept, given, checked, made, ended⟩
  · exact .inl member
  · exact .inl member
  · have fewer := evictConflicts_sublist session server.sessions
    rcases ended with ⟨evicted, rfl⟩ | ⟨evicted, more, rfl⟩
    · rw [evicted] at fewer
      exact .inl (fewer.subset member)
    · rw [evicted] at fewer
      rcases List.mem_append.mp member with old | new
      · exact .inl (fewer.subset old)
      · obtain rfl := List.mem_singleton.mp new
        refine .inr ?_
        have valid := loginParams_length given
        have ok := (dbAccountCheckUserIsOk_isSome server.store hash around.toAmbient uuid pwd).mp
          (by rw [checked]; rfl)
        rcases newSession_cases valid with ⟨⟨_, failed⟩, _⟩ | ⟨_, started, known, isAdmin, ref, own, fd⟩
        · rw [made] at failed
          cases failed
        · obtain rfl := Except.ok.inj (made.symm.trans started)
          refine ⟨login, fd, ⟨pwd, by rwa [own], by rwa [own]⟩, ?_, fun isChild => ?_⟩
          · rw [isAdmin, own]
            exact dbAccountCheckUserIsOk_isAdmin checked
          · rw [isAdmin] at isChild
            simp only [isChild, Bool.false_eq_true, if_false] at known ref
            exact ⟨user.refAdminUuid, ref, own ▸ known.2⟩

/-- Who is in the list after a request. -/
theorem Request.begins (done : request.run hash around server = .ok outcome) :
    ∀ entry ∈ outcome.server.sessions, StaysFrom server.sessions entry ∨
      Begins hash server.store request entry.session := by
  intro entry member
  rcases (Request.relisted done).entries entry member with stays | ⟨login, _⟩
  · exact .inl stays
  · have handler : request.handler = .accountLogin :=
      of_decide_eq_true (Bool.and_eq_true_iff.mp login).1
    unfold Request.run at done
    rw [handler] at done
    exact (reqAccountLogin_begins done handler entry member).imp_left .of_mem

private theorem sessionAt_entry {fd : Int} {session : OnlineSession} (online : sessionAt server fd = some session) :
    ∃ entry ∈ server.sessions, entry.session = session ∧ entry.session.net.fd = fd := by
  obtain ⟨⟨_, _, held⟩, found, rfl⟩ := Option.map_eq_some_iff.mp online
  obtain ⟨entry, at_, same, fd, _⟩ := onlineSessionRef_some found
  exact ⟨entry, List.mem_of_getElem? at_, same, fd⟩

/-- A request leaves the tables, or changes them as the account of its session may. -/
theorem Request.effect (sound : StoreSound server.store)
    (sessions : ∀ entry ∈ server.sessions, SessionSound server.store entry.session)
    (done : request.run hash around server = .ok outcome) :
    outcome.server.store = server.store ∨ ∃ session, sessionAt server request.fd = some session ∧
      Effect server.store session.basic.uuid outcome.server.store := by
  refine (Request.changed done).imp_right ?_
  rintro ⟨session, online, change⟩
  obtain ⟨entry, member, rfl, _⟩ := sessionAt_entry online
  exact ⟨entry.session, online, change.effect sound (sessions entry member)⟩

end Requests

/-! ### Runs -/

theorem StaysFrom.sound {store : Store} {sessions : List SessionEntry} {entry : SessionEntry}
    (stays : StaysFrom sessions entry)
    (sound : ∀ entry ∈ sessions, SessionSound store entry.session) :
    SessionSound store entry.session := by
  obtain ⟨old, member, same, _⟩ := stays
  have own := sound old member
  have uuid : old.session.started.basic = entry.session.started.basic := by rw [same]
  have isAdmin : old.session.started.isAdmin = entry.session.started.isAdmin := by rw [same]
  have ref : old.session.started.refAdminUuid = entry.session.started.refAdminUuid := by rw [same]
  simp only [OnlineSession.started] at uuid isAdmin ref
  exact ⟨uuid ▸ isAdmin ▸ own.isAdmin, fun isChild => ref ▸ own.ref (isAdmin.trans isChild)⟩

namespace Network

/-- A step handles a request, or leaves the tables and adds no session. -/
theorem next_cases {hash : Bytes → Bytes} {before after : Network} {action : NetworkAction}
    (step : next hash before action = some after) :
    (after.server.store = before.server.store ∧
      ∀ entry ∈ after.server.sessions, StaysFrom before.server.sessions entry) ∨
    ∃ index around waiting outcome, action = .handle index around ∧
      before.waiting[index]? = some waiting ∧
      waiting.request.run hash around before.server = .ok outcome ∧
      after = before.finish index waiting outcome := by
  cases action with
  | accept fd =>
    simp only [next] at step
    split at step
    · cases step
    · obtain rfl := Option.some.inj step
      exact .inl ⟨rfl, fun _ member => .of_mem member⟩
  | close connection =>
    obtain rfl := Option.some.inj step
    exact .inl ⟨rfl, fun _ member => .of_mem member⟩
  | arrive connection handler req =>
    simp only [next] at step
    split at step
    · cases step
    · obtain rfl := Option.some.inj step
      exact .inl ⟨rfl, fun _ member => .of_mem member⟩
  | handle index around =>
    simp only [next] at step
    split at step
    · cases step
    · rename_i waiting taken
      split at step
      · cases step
      · rename_i outcome done
        exact .inr ⟨index, around, waiting, outcome, rfl, taken, done, (Option.some.inj step).symm⟩
  | tick =>
    simp only [next] at step
    split at step
    · cases step
    · obtain rfl := Option.some.inj step
      exact .inl ⟨rfl, (onlineSessionCheckAllHearbeat_stays before.server.sessions).2⟩

/-- The tables and the sessions are sound, and the licenses are the ones of the start. -/
structure Sound (licenses : Table AccountAdmin.uuid) (network : Network) : Prop where
  store : StoreSound network.server.store
  sessions : ∀ entry ∈ network.server.sessions, SessionSound network.server.store entry.session
  licenses : network.server.store.admin = licenses

theorem Sound.start {start : Network} (started : Start start)
    (sound : StoreSound start.server.store) : Sound start.server.store.admin start := by
  obtain ⟨store, rfl⟩ := started
  exact ⟨sound, fun _ member => absurd member List.not_mem_nil, rfl⟩

theorem Sound.step {hash : Bytes → Bytes} {licenses : Table AccountAdmin.uuid}
    {before after : Network} {action : NetworkAction} (sound : Sound licenses before)
    (step : next hash before action = some after) : Sound licenses after := by
  rcases next_cases step with ⟨same, stays⟩ | ⟨index, around, waiting, outcome, rfl, taken, done, rfl⟩
  · refine ⟨same ▸ sound.store, fun entry member => ?_, same ▸ sound.licenses⟩
    rw [same]
    exact (stays entry member).sound sound.sessions
  · -- sessions are sound before the request changes the tables, and then after it
    have early : ∀ entry ∈ outcome.server.sessions, SessionSound before.server.store entry.session :=
      fun entry member => (Request.begins done entry member).elim
        (fun stays => stays.sound sound.sessions) fun begins => begins.sound sound.store
    rcases Request.effect sound.store sound.sessions done with same | ⟨session, _, effect⟩
    · exact ⟨same ▸ sound.store, same ▸ early, same ▸ sound.licenses⟩
    · exact ⟨effect.sound sound.store, fun entry member => effect.session (early entry member),
        effect.admin ▸ sound.licenses⟩

def twoAdmins : Network where
  server := ⟨{ Store.init with
    basic := ⟨[⟨[97], [112], [], [], [50]⟩, ⟨[98], [113], [], [], [50]⟩], by decide⟩
    admin := ⟨[⟨[97], 0, [], [], [50]⟩, ⟨[98], 0, [], [], [50]⟩], by decide⟩ }, [], []⟩
  accepted := 0
  live := []
  waiting := []
  isTimerStuck := false
  loggedOuts := []
  logins := []
  answers := []

/-- No login with the right password of an account that the condition is about. -/
def NoPassword (hash : Bytes → Bytes) (accounts : Store → Bytes → Prop) (network : Network) :
    NetworkAction → Prop
  | .handle index _ => ∀ waiting ∈ network.waiting[index]?,
      waiting.request.handler = .accountLogin →
      ∀ given ∈ loginParams waiting.request.req, accounts network.server.store given.1 →
        ∀ row ∈ network.server.store.basic.rows, row.uuid = given.1 → row.pwd ≠ hash given.2
  | _ => True

instance (hash : Bytes → Bytes) (accounts : Store → Bytes → Prop)
    [∀ store uuid, Decidable (accounts store uuid)] (network : Network) :
    (action : NetworkAction) → Decidable (NoPassword hash accounts network action)
  | .handle index _ => inferInstanceAs (Decidable (∀ waiting ∈ network.waiting[index]?,
      waiting.request.handler = .accountLogin →
      ∀ given ∈ loginParams waiting.request.req, accounts network.server.store given.1 →
        ∀ row ∈ network.server.store.basic.rows, row.uuid = given.1 → row.pwd ≠ hash given.2))
  | .accept _ | .close _ | .arrive _ _ _ | .tick => .isTrue trivial

/-- An account of a tenant: the admin itself, or a child of it. -/
def BelongsTo (tenant : Bytes) (store : Store) (uuid : Bytes) : Prop :=
  tenantOf store uuid = some tenant

instance (tenant : Bytes) (store : Store) (uuid : Bytes) : Decidable (BelongsTo tenant store uuid) :=
  inferInstanceAs (Decidable (tenantOf store uuid = some tenant))

theorem NoPassword.begins {hash : Bytes → Bytes} {accounts : Store → Bytes → Prop} {network : Network}
    {index : Nat} {around : Surroundings} {waiting : Waiting} {session : OnlineSession}
    (none_ : NoPassword hash accounts network (.handle index around))
    (taken : network.waiting[index]? = some waiting)
    (begins : Begins hash network.server.store waiting.request session) :
    ¬accounts network.server.store session.basic.uuid := by
  intro own
  obtain ⟨pwd, given, row, member, same, right⟩ := begins.password
  exact none_ waiting taken begins.login _ given own row member same right

/-- What holds while nobody has logged in to an account of the tenant. -/
structure Untouched (store : Store) (tenant : Bytes) (network : Network) : Prop where
  sound : Sound store.admin network
  same : ∀ row, Owns network.server.store tenant row ↔ Owns store tenant row
  foreign : ∀ entry ∈ network.server.sessions,
    ¬BelongsTo tenant network.server.store entry.session.basic.uuid

theorem StaysFrom.foreign {sessions : List SessionEntry} {entry : SessionEntry} {own : Bytes → Prop}
    (stays : StaysFrom sessions entry)
    (foreign : ∀ entry ∈ sessions, ¬own entry.session.basic.uuid) : ¬own entry.session.basic.uuid := by
  obtain ⟨old, member, same, _⟩ := stays
  have basic : old.session.started.basic = entry.session.started.basic := by rw [same]
  simp only [OnlineSession.started] at basic
  exact basic ▸ foreign old member

theorem Untouched.step {hash : Bytes → Bytes} {store : Store} {tenant : Bytes}
    (isTenant : tenant ∈ store.admin.keys) {before after : Network} {action : NetworkAction}
    (untouched : Untouched store tenant before)
    (met : NoPassword hash (BelongsTo tenant) before action)
    (step : next hash before action = some after) : Untouched store tenant after := by
  have sound := untouched.sound.step step
  rcases next_cases step with ⟨same, stays⟩ | ⟨index, around, waiting, outcome, rfl, taken, done, rfl⟩
  · refine ⟨sound, same ▸ untouched.same, fun entry member => ?_⟩
    rw [same]
    exact StaysFrom.foreign (stays entry member) untouched.foreign
  · have foreign : ∀ entry ∈ outcome.server.sessions,
        ¬BelongsTo tenant before.server.store entry.session.basic.uuid :=
      fun entry member => (Request.begins done entry member).elim
        (fun stays => StaysFrom.foreign stays untouched.foreign) (met.begins taken)
    rcases Request.effect untouched.sound.store untouched.sound.sessions done with
      same | ⟨session, online, effect⟩
    · exact ⟨sound, same ▸ untouched.same, same ▸ foreign⟩
    · obtain ⟨own, listed, rfl, _⟩ := sessionAt_entry online
      have alone := effect.alone untouched.sound.store (untouched.sound.licenses ▸ isTenant)
        (untouched.foreign own listed)
      refine ⟨sound, fun row => (alone.owns row).trans (untouched.same row), fun entry member own => ?_⟩
      exact foreign entry member ((alone.tenantOf _).mp own)

end Network

end Livezure.Service
