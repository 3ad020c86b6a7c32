import Livezure.Db.Integrity

/-! The device store refines a map from admins to devices. A device is a row in each
of two tables, and is read back through their join. -/
namespace Livezure.Db
open Livezure.Core

/-- The calls that change accounts or devices. -/
inductive StoreCall where
  | account (call : AccountCall)
  | deviceAdd (refAdminUuid : Bytes) (device : Device)
  | deviceDel (refAdminUuid : Bytes) (specifiedUuid : Option Bytes)
  deriving DecidableEq

/-- Every string of a device is shorter than its field. The time is not an argument
of the calls. -/
structure Device.Fits (device : Device) : Prop where
  uuid : device.uuid.length ≤ 38
  pluginName : device.pluginName.length ≤ 16
  ip : device.ip.length ≤ 16
  user : device.user.length ≤ 32
  pwd : device.pwd.length ≤ 32
  segFolder : device.segFolder.length ≤ 32
  nickname : device.nickname.length ≤ 64
  comment : device.comment.length ≤ 256
  refParentUuid : device.refParentUuid.length ≤ 16

def StoreCall.Fits : StoreCall → Prop
  | .deviceAdd _ device => device.Fits
  | .account _ | .deviceDel _ _ => True

/-! ### The abstract store -/

/-- A device that was added for an admin. -/
structure OwnedDevice where
  refAdminUuid : Bytes
  device : Device
  deriving DecidableEq

/-- The device is the admin's, and has the uuid if one is specified. -/
def OwnedDevice.named (refAdminUuid : Bytes) (specifiedUuid : Option Bytes)
    (owned : OwnedDevice) : Bool :=
  decide (owned.refAdminUuid = refAdminUuid) &&
    match specifiedUuid with
    | none => true
    | some uuid => decide (owned.device.uuid = uuid)

/-- The devices that were added and not removed since, next to the tables. -/
structure DeviceRecord where
  store : Store
  devices : List OwnedDevice

def DeviceRecord.init (order : RowOrder := ⟨[], [], []⟩) : DeviceRecord := ⟨.init order, []⟩

/-- A call on the tables. Of the devices, a call with the result true adds one, and
deletions remove the ones they name. -/
def DeviceRecord.step (hash : Bytes → Bytes) (record : DeviceRecord)
    (call : Ambient × StoreCall) : DeviceRecord :=
  match call.2 with
  | .account account =>
    { store := AccountCall.run hash record.store (call.1, account)
      devices :=
        match account with
        | .adminDel uuid => record.devices.filter fun owned => !owned.named uuid none
        | _ => record.devices }
  | .deviceAdd refAdminUuid device =>
    let (r, store) := dbAccountDeviceAdd record.store call.1 refAdminUuid device
    { store, devices := if r then record.devices ++ [⟨refAdminUuid, device⟩] else record.devices }
  | .deviceDel refAdminUuid specifiedUuid =>
    { store := (dbAccountDeviceDel record.store refAdminUuid specifiedUuid).2
      devices := record.devices.filter fun owned => !owned.named refAdminUuid specifiedUuid }

/-- A recorded device with the time of its rows. -/
structure StoredDevice where
  owned : OwnedDevice
  now : Bytes

namespace StoredDevice
variable (stored : StoredDevice)

def basicRow : DeviceBasic where
  uuid := stored.owned.device.uuid
  pluginName := stored.owned.device.pluginName
  ip := stored.owned.device.ip
  port := stored.owned.device.port
  user := stored.owned.device.user
  pwd := stored.owned.device.pwd
  channel := stored.owned.device.channel
  segFolder := stored.owned.device.segFolder
  segInCount := stored.owned.device.segInCount
  segPerSec := stored.owned.device.segPerSec
  createdTime := stored.now

def accountRow : AccountDevice where
  uuid := stored.owned.device.uuid
  refAdminUuid := stored.owned.refAdminUuid
  nickname := stored.owned.device.nickname
  comment := stored.owned.device.comment
  isTopLevel := stored.owned.device.isTopLevel
  refParentUuid := stored.owned.device.refParentUuid
  createTime := stored.now

def named (refAdminUuid : Bytes) (specifiedUuid : Option Bytes) : Bool :=
  stored.owned.named refAdminUuid specifiedUuid

def fetched : Device := fetchDevice stored.basicRow stored.accountRow

end StoredDevice

/-- Both tables list the same devices, in the order in which they were added. -/
structure DeviceRecord.Holds (record : DeviceRecord) (stored : List StoredDevice) : Prop where
  devices : record.devices = stored.map StoredDevice.owned
  basic : record.store.deviceBasic.rows = stored.map StoredDevice.basicRow
  account : record.store.accountDevice.rows = stored.map StoredDevice.accountRow
  fits : ∀ one ∈ stored, one.owned.device.Fits
  refs : ∀ one ∈ stored, one.owned.refAdminUuid ∈ record.store.admin.keys

namespace DeviceRecord.Holds
variable {record : DeviceRecord} {stored : List StoredDevice}

theorem unique (holds : record.Holds stored) :
    (record.devices.map fun owned => owned.device.uuid).Nodup := by
  have keys := record.store.deviceBasic.unique
  rw [holds.basic, List.map_map] at keys
  rw [holds.devices, List.map_map]
  exact keys

end DeviceRecord.Holds

/-! ### What the calls do to the tables -/

/-- A change of accounts that removes no admin. -/
structure AccountsOnly (before after : Store) : Prop where
  deviceBasic : after.deviceBasic = before.deviceBasic
  accountDevice : after.accountDevice = before.accountDevice
  admins : ∀ uuid ∈ before.admin.keys, uuid ∈ after.admin.keys

theorem AccountsOnly.refl (store : Store) : AccountsOnly store store :=
  ⟨rfl, rfl, fun _ member => member⟩

private theorem insertBasic_only (store : Store) (row : AccountBasic) :
    AccountsOnly store (insertBasic store row).2 := by
  unfold insertBasic
  split <;> exact ⟨rfl, rfl, fun _ member => member⟩

private theorem insertChild_only (store : Store) (row : AccountChild) :
    AccountsOnly store (insertChild store row).2 := by
  unfold insertChild
  split <;> exact ⟨rfl, rfl, fun _ member => member⟩

private theorem dbAccountLicenseSet_only (store : Store) (ambient : Ambient) (uuid : Bytes)
    (license : AccountLicense) :
    AccountsOnly store (dbAccountLicenseSet store ambient uuid license).2 := by
  have devices : ∀ (before : Store) (row : AccountAdmin),
      (insertAdmin before row).2.deviceBasic = before.deviceBasic ∧
        (insertAdmin before row).2.accountDevice = before.accountDevice := by
    intro before row
    unfold insertAdmin
    split <;> exact ⟨rfl, rfl⟩
  have cleared : (clearLicense store uuid).deviceBasic = store.deviceBasic ∧
      (clearLicense store uuid).accountDevice = store.accountDevice := by
    unfold clearLicense dbAccountLicenseDel
    split
    · exact ⟨rfl, rfl⟩
    · split <;> exact ⟨rfl, rfl⟩
  obtain ⟨deviceBasic, accountDevice⟩ := devices (clearLicense store uuid)
    ⟨uuid, license.licenseType, license.licensedTime, license.expiredTime, ambient.now⟩
  obtain ⟨_, _, keys⟩ := dbAccountLicenseSet_keys store ambient uuid license
  exact ⟨deviceBasic.trans cleared.1, accountDevice.trans cleared.2,
    fun other member => (keys other).mpr (.inl member)⟩

theorem AccountsOnly.trans {before middle after : Store} (first : AccountsOnly before middle)
    (second : AccountsOnly middle after) : AccountsOnly before after :=
  ⟨second.deviceBasic.trans first.deviceBasic, second.accountDevice.trans first.accountDevice,
    fun uuid member => second.admins uuid (first.admins uuid member)⟩

theorem dbAccountAdminAdd_only (store : Store) (hash : Bytes → Bytes) (ambient : Ambient)
    (account : NewAccount) : AccountsOnly store (dbAccountAdminAdd store hash ambient account).2 := by
  unfold dbAccountAdminAdd
  split
  · exact .refl store
  · exact (insertBasic_only store _).trans (dbAccountLicenseSet_only _ ambient _ checkingLicense)

private theorem dbAccountChildAdd_only (store : Store) (hash : Bytes → Bytes) (ambient : Ambient)
    (refAdminUuid : Bytes) (account : NewAccount) :
    AccountsOnly store (dbAccountChildAdd store hash ambient refAdminUuid account).2 := by
  rcases dbAccountChildAdd_cases store hash ambient refAdminUuid account with
    ⟨_, same⟩ | ⟨_, basic, _, same⟩
  · rw [same]
    exact .refl store
  · rw [same]
    have first : AccountsOnly store { store with basic } := ⟨rfl, rfl, fun _ member => member⟩
    exact first.trans (insertChild_only _ _)

/-- Account calls leave devices and admins alone, unless they delete an admin. -/
theorem AccountCall.only (hash : Bytes → Bytes) (store : Store) (ambient : Ambient)
    {call : AccountCall} (keeps : ∀ uuid, call ≠ .adminDel uuid) :
    AccountsOnly store (AccountCall.run hash store (ambient, call)) := by
  cases call with
  | adminAdd account => exact dbAccountAdminAdd_only store hash ambient account
  | adminDel uuid => exact absurd rfl (keeps uuid)
  | childAdd refAdminUuid account => exact dbAccountChildAdd_only store hash ambient refAdminUuid account
  | childDel refAdminUuid specifiedUuid =>
    cases specifiedUuid <;> exact ⟨rfl, rfl, fun _ member => member⟩
  | licenseSet uuid license => exact dbAccountLicenseSet_only store ambient uuid license

private theorem dbAccountAdminDel_devices (store : Store) (uuid : Bytes) :
    (dbAccountAdminDel store uuid).2.deviceBasic = (dbAccountDeviceDel store uuid none).2.deviceBasic ∧
      (dbAccountAdminDel store uuid).2.accountDevice =
        (dbAccountDeviceDel store uuid none).2.accountDevice := by
  have gone : uuid ∉ (store.basic.deleteWhere fun row => decide (row.uuid = uuid)).keys := by
    rw [Table.keys_deleteKey]
    exact fun both => both.2 rfl
  simp only [dbAccountAdminDel, dbAccountLicenseDel, if_neg gone, dbAccountChildDel,
    dbAccountDeviceDel, and_self]

/-- A device is refused, or gets its two rows one after the other. -/
theorem dbAccountDeviceAdd_cases (store : Store) (ambient : Ambient) (refAdminUuid : Bytes)
    (device : Device) :
    (∃ deviceBasic accountDevice,
      dbAccountDeviceAdd store ambient refAdminUuid device =
        (true, { store with deviceBasic, accountDevice }) ∧
      refAdminUuid ∈ store.admin.keys ∧
      deviceBasic.rows = store.deviceBasic.rows ++
        [StoredDevice.basicRow ⟨⟨refAdminUuid, device⟩, ambient.now⟩] ∧
      accountDevice.rows = store.accountDevice.rows ++
        [StoredDevice.accountRow ⟨⟨refAdminUuid, device⟩, ambient.now⟩]) ∨
    dbAccountDeviceAdd store ambient refAdminUuid device = (false, store) ∨
    (device.uuid ∉ store.deviceBasic.keys ∧ device.uuid ∈ store.accountDevice.keys) := by
  unfold dbAccountDeviceAdd
  split
  · rename_i user found
    split
    · exact .inr (.inl rfl)
    · cases basic : store.deviceBasic.insert ⟨device.uuid, device.pluginName, device.ip, device.port,
          device.user, device.pwd, device.channel, device.segFolder, device.segInCount,
          device.segPerSec, ambient.now⟩ with
      | none => exact .inr (.inl rfl)
      | some deviceBasic =>
        obtain ⟨fresh, basicRows⟩ := Table.insert_some basic
        cases account : store.accountDevice.insert ⟨device.uuid, refAdminUuid, device.nickname,
            device.comment, device.isTopLevel, device.refParentUuid, ambient.now⟩ with
        | none => exact .inr (.inr ⟨fresh, Table.insert_eq_none.mp account⟩)
        | some accountDevice =>
          refine .inl ⟨deviceBasic, accountDevice, rfl, ?_, basicRows, (Table.insert_some account).2⟩
          exact (dbAccountCheckUserExist_isAdmin found).mp rfl
  · exact .inr (.inl rfl)

/-! ### One call -/

namespace DeviceRecord.Holds
variable {record : DeviceRecord} {stored : List StoredDevice}

theorem keys (holds : record.Holds stored) :
    record.store.deviceBasic.keys = record.store.accountDevice.keys := by
  rw [Table.keys, Table.keys, holds.basic, holds.account, List.map_map, List.map_map]
  rfl

theorem deleted (holds : record.Holds stored) (refAdminUuid : Bytes) (specifiedUuid : Option Bytes)
    {after : Store}
    (deviceBasic : after.deviceBasic =
      (dbAccountDeviceDel record.store refAdminUuid specifiedUuid).2.deviceBasic)
    (accountDevice : after.accountDevice =
      (dbAccountDeviceDel record.store refAdminUuid specifiedUuid).2.accountDevice)
    (refs : ∀ one ∈ stored, one.named refAdminUuid specifiedUuid = false →
      one.owned.refAdminUuid ∈ after.admin.keys) :
    DeviceRecord.Holds
      ⟨after, record.devices.filter fun owned => !owned.named refAdminUuid specifiedUuid⟩
      (stored.filter fun one => !one.named refAdminUuid specifiedUuid) := by
  have uuids : ∀ one ∈ stored, (one.owned.device.uuid ∈
      (record.store.accountDevice.select (ownsDevice refAdminUuid specifiedUuid)).map
        AccountDevice.uuid ↔ one.named refAdminUuid specifiedUuid = true) := by
    intro one member
    have listed : one.accountRow ∈ record.store.accountDevice.rows := by
      rw [holds.account]
      exact List.mem_map_of_mem member
    constructor
    · intro found
      obtain ⟨row, selected, same⟩ := List.mem_map.mp found
      obtain ⟨known, met⟩ := Table.mem_select.mp selected
      rwa [Table.row_unique known listed same] at met
    · intro met
      exact List.mem_map_of_mem (Table.mem_select.mpr ⟨listed, met⟩)
  constructor
  · rw [holds.devices, List.filter_map]
    rfl
  · rw [deviceBasic]
    simp only [dbAccountDeviceDel, Table.deleteWhere, holds.basic, List.filter_map]
    congr 1
    apply List.filter_congr
    intro one member
    have named := uuids one member
    by_cases met : one.named refAdminUuid specifiedUuid = true
    · simp only [Function.comp, StoredDevice.basicRow, named.mpr met, met, decide_true]
    · simp only [Function.comp, StoredDevice.basicRow, mt named.mp met, met, decide_false]
  · rw [accountDevice]
    simp only [dbAccountDeviceDel, Table.deleteWhere, holds.account, List.filter_map]
    rfl
  · intro one member
    exact holds.fits one (List.mem_of_mem_filter member)
  · intro one member
    obtain ⟨listed, met⟩ := List.mem_filter.mp member
    exact refs one listed (by simpa using met)

theorem step (holds : record.Holds stored) (hash : Bytes → Bytes) (ambient : Ambient)
    {call : StoreCall} (fits : call.Fits) :
    ∃ later, (record.step hash (ambient, call)).Holds later := by
  cases call with
  | account call =>
    by_cases keeps : ∀ uuid, call ≠ .adminDel uuid
    · obtain ⟨deviceBasic, accountDevice, admins⟩ := AccountCall.only hash record.store ambient keeps
      refine ⟨stored, ?_, ?_, ?_, holds.fits, fun one member => admins _ (holds.refs one member)⟩
      · simp only [DeviceRecord.step]
        exact holds.devices
      · exact (congrArg Table.rows deviceBasic).trans holds.basic
      · exact (congrArg Table.rows accountDevice).trans holds.account
    · obtain ⟨uuid, deletes⟩ := not_forall.mp keeps
      obtain rfl := not_not.mp deletes
      obtain ⟨deviceBasic, accountDevice⟩ := dbAccountAdminDel_devices record.store uuid
      obtain ⟨_, admins, _⟩ := dbAccountAdminDel_tables record.store uuid
      refine ⟨_, holds.deleted uuid none deviceBasic accountDevice ?_⟩
      intro one member other
      refine (admins _).mpr ⟨holds.refs one member, ?_⟩
      rintro same
      simp [StoredDevice.named, OwnedDevice.named, same] at other
  | deviceAdd refAdminUuid device =>
    have same := holds.keys
    rcases dbAccountDeviceAdd_cases record.store ambient refAdminUuid device with
      ⟨deviceBasic, accountDevice, added, isAdmin, basicRows, accountRows⟩ | refused | ⟨fresh, old⟩
    · refine ⟨stored ++ [⟨⟨refAdminUuid, device⟩, ambient.now⟩], ?_⟩
      simp only [DeviceRecord.step, added]
      constructor
      · simp [holds.devices]
      · simp [basicRows, holds.basic]
      · simp [accountRows, holds.account]
      · intro one member
        rcases List.mem_append.mp member with old | new
        · exact holds.fits one old
        · rw [List.mem_singleton.mp new]
          exact fits
      · intro one member
        rcases List.mem_append.mp member with old | new
        · exact holds.refs one old
        · rw [List.mem_singleton.mp new]
          exact isAdmin
    · refine ⟨stored, ?_⟩
      simp only [DeviceRecord.step, refused]
      exact holds
    · rw [same] at fresh
      exact absurd old fresh
  | deviceDel refAdminUuid specifiedUuid =>
    exact ⟨_, holds.deleted refAdminUuid specifiedUuid rfl rfl fun one member _ =>
      holds.refs one member⟩

end DeviceRecord.Holds

end Livezure.Db
