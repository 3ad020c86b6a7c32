import Livezure.Core.Memory
import Livezure.Core.Table

/-! The account store: the tables of `db_account.c` and the statements on them.
A text is the bytes of a C string without its NUL; `assert` is compiled out. -/
namespace Livezure.Db
open Livezure.Core

structure AccountBasic where
  uuid : Bytes
  pwd : Bytes
  nickname : Bytes
  comment : Bytes
  createdTime : Bytes
  deriving DecidableEq

structure AccountAdmin where
  uuid : Bytes
  licenseType : Int
  licensedTime : Bytes
  expiredTime : Bytes
  createTime : Bytes
  deriving DecidableEq

structure AccountChild where
  uuid : Bytes
  refAdminUuid : Bytes
  createTime : Bytes
  deriving DecidableEq

structure DeviceBasic where
  uuid : Bytes
  pluginName : Bytes
  ip : Bytes
  port : Int
  user : Bytes
  pwd : Bytes
  channel : Int
  segFolder : Bytes
  segInCount : Int
  segPerSec : Int
  createdTime : Bytes
  deriving DecidableEq

/-- A row of `t_account_device`. -/
structure AccountDevice where
  uuid : Bytes
  refAdminUuid : Bytes
  nickname : Bytes
  comment : Bytes
  isTopLevel : Bool
  refParentUuid : Bytes
  createTime : Bytes
  deriving DecidableEq

/-- The uuids in the order in which the list functions get their rows; no query asks for one. -/
structure RowOrder where
  admins : List Bytes
  children : List Bytes
  devices : List Bytes
  deriving DecidableEq

/-- The tables; each has `uuid` as its primary key. -/
structure Store where
  basic : Table AccountBasic.uuid
  admin : Table AccountAdmin.uuid
  child : Table AccountChild.uuid
  deviceBasic : Table DeviceBasic.uuid
  accountDevice : Table AccountDevice.uuid
  order : RowOrder
  deriving DecidableEq

/-- `db_account_license_t`. -/
structure AccountLicense where
  licenseType : Int
  licensedTime : Bytes
  expiredTime : Bytes
  deriving DecidableEq

/-- What a call takes from its surroundings. -/
structure Ambient where
  now : Bytes
  /-- What stands in memory behind 16 bytes that `strncpy` has not terminated, in
  the buffer of an account's uuid and in that of its admin's. -/
  junk : Bytes
  junkRef : Bytes
  deriving DecidableEq

/-- The tables of an empty data base. -/
def Store.init (order : RowOrder := ⟨[], [], []⟩) : Store where
  basic := .empty
  admin := .empty
  child := .empty
  deviceBasic := .empty
  accountDevice := .empty
  order

def tolower (byte : UInt8) : UInt8 :=
  if 65 ≤ byte ∧ byte ≤ 90 then byte + 32 else byte

def worldTolower (text : Bytes) : Bytes := text.map tolower

/-- `strncpy(buffer, uuid, 16)` into a buffer that was not cleared. -/
def strncpyUuid (uuid junk : Bytes) : Bytes :=
  if uuid.length < 16 then uuid else uuid.take 16 ++ junk

/-- `e_license_checking`, without times. -/
def checkingLicense : AccountLicense where
  licenseType := 0
  licensedTime := []
  expiredTime := []

section
variable (store : Store)

def dbAccountLicenseGet (uuid : Bytes) : Option AccountLicense :=
  (store.admin.select fun row => decide (row.uuid = uuid)).head?.map fun row =>
    ⟨row.licenseType, row.licensedTime.take 64, row.expiredTime.take 64⟩

/-- The result of `db_account_check_user_exist` for an account that exists. -/
structure UserExist where
  isAdmin : Bool
  /-- What the caller's buffer holds; empty if the account is in neither table. -/
  refAdminUuid : Bytes
  deriving DecidableEq

def dbAccountCheckUserExist (ambient : Ambient) (uuid : Bytes) : Option UserExist :=
  if uuid ∈ store.basic.keys then
    match dbAccountLicenseGet store uuid with
    | some _ => some ⟨true, []⟩
    | none =>
      match (store.child.select fun row => decide (row.uuid = uuid)).head? with
      | none => some ⟨false, []⟩
      | some row => some ⟨false, strncpyUuid row.refAdminUuid ambient.junkRef⟩
  else none

def dbAccountCheckUserIsOk (hash : Bytes → Bytes) (ambient : Ambient) (uuid pwd : Bytes) :
    Option UserExist :=
  if (store.basic.select fun row =>
      decide (row.uuid = uuid) && decide (row.pwd = hash pwd)) = [] then none
  else dbAccountCheckUserExist store ambient uuid

def dbAccountLicenseDel (uuid : Bytes) : Bool × Store :=
  if uuid ∈ store.basic.keys then
    (true, { store with admin := store.admin.deleteWhere fun row => decide (row.uuid = uuid) })
  else (false, store)

def insertAdmin (row : AccountAdmin) : Bool × Store :=
  match store.admin.insert row with
  | none => (false, store)
  | some admin => (true, { store with admin })

def insertBasic (row : AccountBasic) : Bool × Store :=
  match store.basic.insert row with
  | none => (false, store)
  | some basic => (true, { store with basic })

def insertChild (row : AccountChild) : Bool × Store :=
  match store.child.insert row with
  | none => (false, store)
  | some child => (true, { store with child })

/-- An existing license is deleted before the new one is set. -/
def clearLicense (uuid : Bytes) : Store :=
  match dbAccountLicenseGet store uuid with
  | none => store
  | some _ => (dbAccountLicenseDel store uuid).2

def dbAccountLicenseSet (ambient : Ambient) (uuid : Bytes) (license : AccountLicense) :
    Bool × Store :=
  insertAdmin (clearLicense store uuid)
    ⟨uuid, license.licenseType, license.licensedTime, license.expiredTime, ambient.now⟩

/-- `db_account_basic_t` as the caller fills it in. -/
structure NewAccount where
  uuid : Bytes
  pwd : Bytes
  nickname : Bytes
  comment : Bytes
  deriving DecidableEq

def dbAccountAdminAdd (hash : Bytes → Bytes) (ambient : Ambient) (account : NewAccount) :
    Bool × Store :=
  match dbAccountLicenseGet store account.uuid with
  | some _ => (false, store)
  | none =>
    let lowerUuid := worldTolower (strncpyUuid account.uuid ambient.junk)
    let (r, store) := insertBasic store
      ⟨lowerUuid, hash account.pwd, account.nickname, account.comment, ambient.now⟩
    -- the license is set whether the account could be inserted or not
    (r, (dbAccountLicenseSet store ambient lowerUuid checkingLicense).2)

def dbAccountChildAdd (hash : Bytes → Bytes) (ambient : Ambient) (refAdminUuid : Bytes)
    (account : NewAccount) : Bool × Store :=
  let lowerRefAdminUuid := worldTolower (strncpyUuid refAdminUuid ambient.junkRef)
  match dbAccountCheckUserExist store ambient lowerRefAdminUuid with
  | none => (false, store)
  | some _ =>
    let lowerUuid := worldTolower (strncpyUuid account.uuid ambient.junk)
    match insertBasic store
        ⟨lowerUuid, hash account.pwd, account.nickname, account.comment, ambient.now⟩ with
    | (false, store) => (false, store)
    | (true, store) => insertChild store ⟨lowerUuid, lowerRefAdminUuid, ambient.now⟩

def dbAccountChildDel (refAdminUuid : Bytes) (specifiedUuid : Option Bytes) : Bool × Store :=
  match specifiedUuid with
  | some uuid =>
    (true, { store with
      child := store.child.deleteWhere fun row =>
        decide (row.refAdminUuid = refAdminUuid) && decide (row.uuid = uuid)
      basic := store.basic.deleteWhere fun row => decide (row.uuid = uuid) })
  | none =>
    (true, { store with
      child := store.child.deleteWhere fun row => decide (row.refAdminUuid = refAdminUuid)
      -- the subquery is on `t_account_admin`
      basic := store.basic.deleteWhere fun row =>
        decide (row.uuid = refAdminUuid) && decide (row.uuid ∈ store.admin.keys) })

/-- A row as the `strncpy`s of the list functions leave it. -/
def AccountBasic.fetched (row : AccountBasic) : AccountBasic where
  uuid := row.uuid.take 16
  pwd := row.pwd.take 32
  nickname := row.nickname.take 64
  comment := row.comment.take 256
  createdTime := row.createdTime.take 64

/-- The rows that a list function returns; none when there are none. -/
def fetchAll (rows : List AccountBasic) : Option (List AccountBasic) :=
  if rows = [] then none else some (rows.map AccountBasic.fetched)

def dbAccountListAdminGet (specifiedUuid : Option Bytes) : Option (List AccountBasic) :=
  fetchAll (store.basic.selectIn store.order.admins fun row =>
    decide (row.uuid ∈ store.admin.keys) && match specifiedUuid with
    | none => true
    | some uuid => decide (row.uuid = uuid))

def dbAccountListChildGet (refAdminUuid : Bytes) (specifiedUuid : Option Bytes) :
    Option (List AccountBasic) :=
  let children := store.child.select fun row => decide (row.refAdminUuid = refAdminUuid) &&
    match specifiedUuid with
    | none => true
    | some uuid => decide (row.uuid = uuid)
  fetchAll (store.basic.selectIn store.order.children fun row =>
    decide (row.uuid ∈ children.map AccountChild.uuid))

/-- `db_account_update` with NULL for `err`: the text for a user that does not
exist is copied to NULL. -/
def dbAccountUpdate (hash : Bytes → Bytes) (ambient : Ambient) (uuid : Bytes)
    (account : NewAccount) : Except Fault (Bool × Store) :=
  match dbAccountCheckUserExist store ambient uuid with
  | none => .error .nullPointer
  | some user =>
    let old := if user.isAdmin then dbAccountListAdminGet store (some uuid)
      else dbAccountListChildGet store user.refAdminUuid (some uuid)
    match old with
    | some [_] =>
      .ok (true, { store with
        basic := store.basic.updateWhere (fun row => decide (row.uuid = uuid))
          (fun row => { row with
            pwd := hash account.pwd, nickname := account.nickname, comment := account.comment })
          fun _ => rfl })
    | _ => .ok (false, store)

/-- `db_account_device_t`. -/
structure Device where
  uuid : Bytes
  pluginName : Bytes
  ip : Bytes
  port : Int
  user : Bytes
  pwd : Bytes
  channel : Int
  segFolder : Bytes
  segInCount : Int
  segPerSec : Int
  createdTime : Bytes
  nickname : Bytes
  comment : Bytes
  isTopLevel : Bool
  refParentUuid : Bytes
  deriving DecidableEq

def dbAccountDeviceCheckExist (refAdminUuid ip : Bytes) (port channel : Int) : Bool :=
  store.deviceBasic.select (fun row =>
    decide (row.ip = ip) && decide (row.port = port) && decide (row.channel = channel) &&
      decide (row.uuid ∈ (store.accountDevice.select fun device =>
        decide (device.refAdminUuid = refAdminUuid)).map AccountDevice.uuid)) ≠ []

def dbAccountDeviceWorkpathValid (workpath : Bytes) : Bool :=
  store.deviceBasic.select (fun row => decide (row.segFolder = workpath)) ≠ []

/-- The uuids of `t_account_device` that a device statement is about. -/
def ownsDevice (refAdminUuid : Bytes) (specifiedUuid : Option Bytes) (row : AccountDevice) : Bool :=
  decide (row.refAdminUuid = refAdminUuid) &&
    match specifiedUuid with
    | none => true
    | some uuid => decide (row.uuid = uuid)

/-- A pair of joined rows as the `strncpy`s leave it. -/
def fetchDevice (basic : DeviceBasic) (row : AccountDevice) : Device where
  uuid := basic.uuid.take 38
  pluginName := basic.pluginName.take 16
  ip := basic.ip.take 16
  port := basic.port
  user := basic.user.take 32
  pwd := basic.pwd.take 32
  channel := basic.channel
  segFolder := basic.segFolder.take 32
  segInCount := basic.segInCount
  segPerSec := basic.segPerSec
  createdTime := basic.createdTime.take 63
  nickname := row.nickname.take 64
  comment := row.comment.take 256
  isTopLevel := row.isTopLevel
  refParentUuid := row.refParentUuid.take 16

def dbAccountDeviceGet (refAdminUuid : Bytes) (specifiedUuid : Option Bytes) :
    Option (List Device) :=
  let devices := (store.deviceBasic.scan store.order.devices).flatMap fun basic =>
    (store.accountDevice.select fun row =>
      ownsDevice refAdminUuid specifiedUuid row && decide (row.uuid = basic.uuid)).map
        (fetchDevice basic)
  if devices = [] then none else some devices

def dbAccountDeviceAdd (ambient : Ambient) (refAdminUuid : Bytes) (device : Device) :
    Bool × Store :=
  match dbAccountCheckUserExist store ambient refAdminUuid with
  | some ⟨true, _⟩ =>
    -- the port stands for the channel
    if dbAccountDeviceCheckExist store refAdminUuid device.ip device.port device.port then
      (false, store)
    else
      match store.deviceBasic.insert ⟨device.uuid, device.pluginName, device.ip, device.port,
          device.user, device.pwd, device.channel, device.segFolder, device.segInCount,
          device.segPerSec, ambient.now⟩ with
      | none => (false, store)
      | some deviceBasic =>
        match store.accountDevice.insert ⟨device.uuid, refAdminUuid, device.nickname,
            device.comment, device.isTopLevel, device.refParentUuid, ambient.now⟩ with
        | none => (false, { store with deviceBasic })
        | some accountDevice => (true, { store with deviceBasic, accountDevice })
  | _ => (false, store)

def dbAccountDeviceDel (refAdminUuid : Bytes) (specifiedUuid : Option Bytes) : Bool × Store :=
  (true, { store with
    deviceBasic := store.deviceBasic.deleteWhere fun row =>
      decide (row.uuid ∈ (store.accountDevice.select (ownsDevice refAdminUuid specifiedUuid)).map
        AccountDevice.uuid)
    accountDevice := store.accountDevice.deleteWhere (ownsDevice refAdminUuid specifiedUuid) })

def dbAccountAdminDel (uuid : Bytes) : Bool × Store :=
  let store := { store with
    basic := store.basic.deleteWhere fun row => decide (row.uuid = uuid)
    admin := store.admin.deleteWhere fun row => decide (row.uuid = uuid) }
  let (_, store) := dbAccountLicenseDel store uuid
  let (_, store) := dbAccountChildDel store uuid none
  let (_, store) := dbAccountDeviceDel store uuid none
  (true, store)

end

/-! ### What the queries say -/

/-- An account that `db_account_check_user_exist` takes for an admin. -/
def Store.IsAdmin (store : Store) (uuid : Bytes) : Prop :=
  uuid ∈ store.basic.keys ∧ uuid ∈ store.admin.keys

/-- A row of `t_account_child` makes an account a child of an admin. -/
def Store.ChildOf (store : Store) (refAdminUuid uuid : Bytes) : Prop :=
  ∃ row ∈ store.child.rows, row.refAdminUuid = refAdminUuid ∧ row.uuid = uuid

/-- An account has one row in `t_account_child`, with one admin. -/
theorem Store.childOf_row {store : Store} {refAdminUuid : Bytes} {row : AccountChild}
    (member : row ∈ store.child.rows) :
    store.ChildOf refAdminUuid row.uuid ↔ row.refAdminUuid = refAdminUuid := by
  constructor
  · rintro ⟨other, listed, ref, same⟩
    rw [← Table.row_unique listed member same]
    exact ref
  · intro ref
    exact ⟨row, member, ref, rfl⟩

theorem dbAccountLicenseGet_isSome {store : Store} {uuid : Bytes} :
    (dbAccountLicenseGet store uuid).isSome ↔ uuid ∈ store.admin.keys := by
  simp only [dbAccountLicenseGet, Option.isSome_map, List.isSome_head?, Table.mem_keys]
  constructor
  · intro found
    obtain ⟨row, member⟩ := List.exists_mem_of_ne_nil _ found
    obtain ⟨listed, same⟩ := Table.mem_select.mp member
    exact ⟨row, listed, of_decide_eq_true same⟩
  · rintro ⟨row, listed, same⟩ nothing
    have member : row ∈ store.admin.select fun row => decide (row.uuid = uuid) :=
      Table.mem_select.mpr ⟨listed, decide_eq_true same⟩
    rw [nothing] at member
    cases member

theorem dbAccountLicenseGet_none {store : Store} {uuid : Bytes}
    (absent : dbAccountLicenseGet store uuid = none) : uuid ∉ store.admin.keys := by
  rw [← dbAccountLicenseGet_isSome, absent]
  exact Bool.false_ne_true

theorem dbAccountLicenseGet_some {store : Store} {uuid : Bytes} {license : AccountLicense}
    (present : dbAccountLicenseGet store uuid = some license) : uuid ∈ store.admin.keys := by
  rw [← dbAccountLicenseGet_isSome, present]
  rfl

theorem dbAccountCheckUserExist_isSome (store : Store) (ambient : Ambient) (uuid : Bytes) :
    (dbAccountCheckUserExist store ambient uuid).isSome ↔ uuid ∈ store.basic.keys := by
  unfold dbAccountCheckUserExist
  split
  · rename_i listed
    refine iff_of_true ?_ listed
    split
    · rfl
    · split <;> rfl
  · rename_i absent
    exact iff_of_false Bool.false_ne_true absent

/-- A user is ok if a row has the uuid and the hash of the password. -/
theorem dbAccountCheckUserIsOk_isSome (store : Store) (hash : Bytes → Bytes) (ambient : Ambient)
    (uuid pwd : Bytes) :
    (dbAccountCheckUserIsOk store hash ambient uuid pwd).isSome ↔
      ∃ row ∈ store.basic.rows, row.uuid = uuid ∧ row.pwd = hash pwd := by
  unfold dbAccountCheckUserIsOk
  split
  · rename_i nothing
    refine iff_of_false Bool.false_ne_true ?_
    rintro ⟨row, member, same, right⟩
    exact Table.select_ne_nil.mpr ⟨row, member, by simp [same, right]⟩ nothing
  · rename_i something
    obtain ⟨row, member, met⟩ := Table.select_ne_nil.mp something
    rw [Bool.and_eq_true, decide_eq_true_iff, decide_eq_true_iff] at met
    refine iff_of_true ?_ ⟨row, member, met⟩
    rw [dbAccountCheckUserExist_isSome]
    exact met.1 ▸ Table.key_mem member

/-- `*b_is_admin` is about `t_account_admin` only. -/
theorem dbAccountCheckUserExist_isAdmin {store : Store} {ambient : Ambient} {uuid : Bytes}
    {user : UserExist} (found : dbAccountCheckUserExist store ambient uuid = some user) :
    user.isAdmin = true ↔ uuid ∈ store.admin.keys := by
  unfold dbAccountCheckUserExist at found
  split at found
  · cases license : dbAccountLicenseGet store uuid with
    | some value =>
      rw [license] at found
      obtain rfl := Option.some.inj found
      exact iff_of_true rfl (dbAccountLicenseGet_some license)
    | none =>
      rw [license] at found
      refine iff_of_false ?_ (dbAccountLicenseGet_none license)
      dsimp only at found
      split at found <;> (obtain rfl := Option.some.inj found; exact Bool.false_ne_true)
  · cases found

/-- A user that is ok exists. -/
theorem dbAccountCheckUserExist_ok {store : Store} {hash : Bytes → Bytes} {ambient : Ambient}
    {uuid pwd : Bytes} {user : UserExist}
    (checked : dbAccountCheckUserIsOk store hash ambient uuid pwd = some user) :
    dbAccountCheckUserExist store ambient uuid = some user := by
  unfold dbAccountCheckUserIsOk at checked
  split at checked
  · cases checked
  · exact checked

theorem dbAccountCheckUserIsOk_isAdmin {store : Store} {hash : Bytes → Bytes} {ambient : Ambient}
    {uuid pwd : Bytes} {user : UserExist}
    (checked : dbAccountCheckUserIsOk store hash ambient uuid pwd = some user) :
    user.isAdmin = true ↔ uuid ∈ store.admin.keys :=
  dbAccountCheckUserExist_isAdmin (dbAccountCheckUserExist_ok checked)

/-- An account that is listed as a child is one. -/
theorem dbAccountListChildGet_child {store : Store} {refAdminUuid uuid : Bytes}
    {accounts : List AccountBasic}
    (listed : dbAccountListChildGet store refAdminUuid (some uuid) = some accounts) :
    ∃ row ∈ store.child.rows, row.refAdminUuid = refAdminUuid ∧ row.uuid = uuid := by
  unfold dbAccountListChildGet fetchAll at listed
  dsimp only at listed
  split at listed
  · cases listed
  · rename_i some_
    obtain ⟨basic, member⟩ := List.exists_mem_of_ne_nil _ some_
    obtain ⟨_, known⟩ := Table.mem_selectIn.mp member
    obtain ⟨row, selected, _⟩ := List.mem_map.mp (of_decide_eq_true known)
    obtain ⟨child, same⟩ := Table.mem_select.mp selected
    rw [Bool.and_eq_true, decide_eq_true_iff, decide_eq_true_iff] at same
    exact ⟨row, child, same⟩

/-- An update is of the account's own row, and of an account that is an admin or a child. -/
theorem dbAccountUpdate_ok {store after : Store} {hash : Bytes → Bytes} {ambient : Ambient}
    {uuid : Bytes} {account : NewAccount} {r : Bool}
    (updated : dbAccountUpdate store hash ambient uuid account = .ok (r, after)) :
    after = store ∨ ((uuid ∈ store.admin.keys ∨ uuid ∈ store.child.keys) ∧
      ∃ change keeps, after = { store with
        basic := store.basic.updateWhere (fun row => decide (row.uuid = uuid)) change keeps }) := by
  unfold dbAccountUpdate at updated
  split at updated
  · cases updated
  · rename_i user found
    dsimp only at updated
    split at updated
    · rename_i old one
      obtain ⟨_, rfl⟩ := Prod.mk.inj (Except.ok.inj updated)
      refine .inr ⟨?_, _, _, rfl⟩
      by_cases isAdmin : user.isAdmin = true
      · exact .inl ((dbAccountCheckUserExist_isAdmin found).mp isAdmin)
      · rw [if_neg isAdmin] at one
        obtain ⟨row, listed, _, same⟩ := dbAccountListChildGet_child one
        exact .inr (Table.mem_keys.mpr ⟨row, listed, same⟩)
    · obtain ⟨_, rfl⟩ := Prod.mk.inj (Except.ok.inj updated)
      exact .inl rfl

end Livezure.Db
