import Livezure.Service.Prints

/-! When a device can be added. The handler and the store both look for a device at the same
address, and only the handler looks for the channel. -/
namespace Livezure.Service
open Livezure.Core Db Rpc

/-- A device of the admin has the address. -/
def AddressTaken (store : Store) (refAdminUuid ip : Bytes) (port channel : Int) : Prop :=
  ∃ row ∈ store.deviceBasic.rows, row.ip = ip ∧ row.port = port ∧ row.channel = channel ∧
    ∃ device ∈ store.accountDevice.rows, device.refAdminUuid = refAdminUuid ∧ device.uuid = row.uuid

/-- No device of any admin has the uuid. -/
def UuidFree (store : Store) (uuid : Bytes) : Prop :=
  uuid ∉ store.deviceBasic.keys ∧ uuid ∉ store.accountDevice.keys

/-- A device is added for an admin exactly if its uuid and its address are free. -/
def AddsWhereFree (store : Store) (ambient : Ambient) (refAdminUuid : Bytes) (device : Device) :
    Prop :=
  (dbAccountDeviceAdd store ambient refAdminUuid device).1 = true ↔
    store.IsAdmin refAdminUuid ∧ UuidFree store device.uuid ∧
      ¬AddressTaken store refAdminUuid device.ip device.port device.channel

/-- A request for this device passes all checks of `req_device_create`. -/
def CreateChecked (req : Option RpcReq) (store : Store) (uuid : Bytes) (device : Device) : Prop :=
  ∃ basic segment, deviceBasicParams req = some basic ∧
    dbAccountDeviceCheckExist store uuid basic.ip basic.port basic.channel = false ∧
    dbAccountDeviceGet store uuid (some basic.uuid) = none ∧
    deviceSegmentParams req basic = some segment ∧
    dbAccountDeviceWorkpathValid store segment.segFolder = false ∧
    deviceTreeParams req segment = some device

/-- A request that passes the checks is answered 0, if the uuid is new. -/
def CreatesWhereFree (server : Server) (fd : Int) (req : Option RpcReq) (around : Surroundings) :
    Prop :=
  ∀ session device, sessionAt server fd = some session →
    isAdminAccount server.store around.toAmbient session.basic.uuid = true →
    CreateChecked req server.store session.basic.uuid device → UuidFree server.store device.uuid →
    ∃ outcome, reqDeviceCreate server fd req around = .ok outcome ∧ outcome.reply = some (rid 0)

section Add
variable {store : Store} {ambient : Ambient} {refAdminUuid : Bytes} {device : Device}

private theorem dbAccountDeviceCheckExist_taken {ip : Bytes} {port channel : Int} :
    dbAccountDeviceCheckExist store refAdminUuid ip port channel = true ↔
      AddressTaken store refAdminUuid ip port channel := by
  rw [dbAccountDeviceCheckExist, decide_eq_true_iff, Table.select_ne_nil]
  refine exists_congr fun row => and_congr_right fun _ => ?_
  simp [and_assoc]

theorem isAdminAccount_isAdmin {uuid : Bytes} :
    isAdminAccount store ambient uuid = true ↔ store.IsAdmin uuid := by
  constructor
  · intro isAdmin
    obtain ⟨user, found, isAdmin⟩ := userExist_of_isAdminAccount isAdmin
    refine ⟨?_, (dbAccountCheckUserExist_isAdmin found).mp isAdmin⟩
    rw [← dbAccountCheckUserExist_isSome store ambient, found]
    rfl
  · rintro ⟨known, isAdmin⟩
    obtain ⟨user, found⟩ := Option.isSome_iff_exists.mp
      ((dbAccountCheckUserExist_isSome store ambient uuid).mpr known)
    rw [isAdminAccount, found]
    exact (dbAccountCheckUserExist_isAdmin found).mpr isAdmin

/-- The store looks for a device with the port for its channel. -/
theorem dbAccountDeviceAdd_true :
    (dbAccountDeviceAdd store ambient refAdminUuid device).1 = true ↔
      store.IsAdmin refAdminUuid ∧ UuidFree store device.uuid ∧
        ¬AddressTaken store refAdminUuid device.ip device.port device.port := by
  rw [← isAdminAccount_isAdmin, ← dbAccountDeviceCheckExist_taken]
  unfold dbAccountDeviceAdd isAdminAccount
  split
  · rename_i ref found
    rw [found]
    split
    · rename_i taken
      exact iff_of_false Bool.false_ne_true fun free => free.2.2 taken
    · rename_i free
      split
      · rename_i refused
        have known := Table.insert_eq_none.mp refused
        exact iff_of_false Bool.false_ne_true fun free => free.2.1.1 known
      · rename_i deviceBasic first
        have fresh := (Table.insert_some first).1
        split
        · rename_i refused
          have known := Table.insert_eq_none.mp refused
          exact iff_of_false Bool.false_ne_true fun free => free.2.1.2 known
        · rename_i accountDevice second
          exact iff_of_true rfl ⟨rfl, ⟨fresh, (Table.insert_some second).1⟩, free⟩
  · rename_i other
    refine iff_of_false Bool.false_ne_true fun free => ?_
    obtain ⟨⟨isAdmin, ref⟩, found, rfl⟩ := (Option.any_eq_true _ _).mp free.1
    exact other ref found

/-- What the store answers to a request that passes the checks of the handler. -/
theorem deviceCreate_checked {req : Option RpcReq} {uuid : Bytes}
    (checked : CreateChecked req store uuid device) :
    deviceCreate req store ambient uuid =
      let (r, after) := dbAccountDeviceAdd store ambient uuid device
      (after, rid (if r then 0 else -256)) := by
  obtain ⟨basic, segment, basicGiven, free, new, segmentGiven, folder, given⟩ := checked
  simp only [deviceCreate, basicGiven, free, new, segmentGiven, folder, given, Option.isSome_none,
    Bool.false_eq_true, if_false]

private theorem reqDeviceCreate_zero {server : Server} {fd : Int} {req : Option RpcReq}
    {around : Surroundings} {session : OnlineSession} (found : sessionAt server fd = some session)
    (isAdmin : isAdminAccount server.store around.toAmbient session.basic.uuid = true)
    (checked : CreateChecked req server.store session.basic.uuid device) :
    (∃ outcome, reqDeviceCreate server fd req around = .ok outcome ∧ outcome.reply = some (rid 0)) ↔
      (dbAccountDeviceAdd server.store around.toAmbient session.basic.uuid device).1 = true := by
  obtain ⟨⟨index, other, held⟩, ref, same⟩ := Option.map_eq_some_iff.mp found
  dsimp only at same
  subst same
  have run : reqDeviceCreate server fd req around = .ok
      ⟨{ server with
          store := (dbAccountDeviceAdd server.store around.toAmbient other.basic.uuid device).2
          sessions := onlineSessionDref held index },
        some (rid (if (dbAccountDeviceAdd server.store around.toAmbient other.basic.uuid device).1
          then 0 else -256)), some (some other)⟩ := by
    simp only [reqDeviceCreate, withOnlineSession, ref, isAdmin, if_true,
      deviceCreate_checked checked]
    rfl
  rw [run]
  constructor
  · rintro ⟨outcome, done, zero⟩
    obtain rfl := Except.ok.inj done
    by_contra failed
    rw [Bool.not_eq_true] at failed
    have differ : rid (-256) ≠ rid 0 := by decide
    simp only [failed, Bool.false_eq_true, if_false] at zero
    exact differ (Option.some.inj zero)
  · intro added
    exact ⟨_, rfl, by rw [added]; rfl⟩

end Add

/-- The store compares the channel of a device with the port of the new one. -/
def PortForChannel (store : Store) (refAdminUuid : Bytes) (device : Device) : Prop :=
  store.IsAdmin refAdminUuid → UuidFree store device.uuid →
    (AddressTaken store refAdminUuid device.ip device.port device.port ↔
      AddressTaken store refAdminUuid device.ip device.port device.channel)

/-- No device has its port for its channel at the address of one that passes the checks. -/
def CreatesAtFreePort (server : Server) (fd : Int) (req : Option RpcReq) (around : Surroundings) :
    Prop :=
  ∀ session device, sessionAt server fd = some session →
    isAdminAccount server.store around.toAmbient session.basic.uuid = true →
    CreateChecked req server.store session.basic.uuid device → UuidFree server.store device.uuid →
    ¬AddressTaken server.store session.basic.uuid device.ip device.port device.port

/-- By statements that mean it, a device is added where it should be exactly if a device has its
address whenever one has its address with the port for the channel; the answer 0 is given exactly
if none has the latter. -/
theorem device_added_iff (store : Store) (ambient : Ambient) (refAdminUuid : Bytes) (device : Device)
    (server : Server) (fd : Int) (req : Option RpcReq) (around : Surroundings)
    (added : AllPlain (deviceAddPrints store ambient refAdminUuid device))
    (created : AllPlain (deviceCreatePrints server fd req around.toAmbient)) :
    (AllDenote (deviceAddPrints store ambient refAdminUuid device) ∧
      (AddsWhereFree store ambient refAdminUuid device ↔ PortForChannel store refAdminUuid device)) ∧
    (AllDenote (deviceCreatePrints server fd req around.toAmbient) ∧
      (CreatesWhereFree server fd req around ↔ CreatesAtFreePort server fd req around)) := by
  refine ⟨⟨allDenote_iff.mpr added, ?_⟩, allDenote_iff.mpr created, ?_⟩
  · rw [AddsWhereFree, dbAccountDeviceAdd_true, and_congr_right_iff]
    refine forall_congr' fun _ => ?_
    rw [and_congr_right_iff]
    exact forall_congr' fun _ => not_iff_not
  · refine forall₂_congr fun session device => forall₄_congr fun found isAdmin checked free => ?_
    rw [reqDeviceCreate_zero found isAdmin checked, dbAccountDeviceAdd_true]
    refine ⟨fun added => added.2.2, fun notTaken => ?_⟩
    exact ⟨isAdminAccount_isAdmin.mp isAdmin, free, notTaken⟩

/-- The admin `a`, online on descriptor 5, with a device at channel 1 of port 1. -/
private def oneDevice : Server where
  store := (dbAccountDeviceAdd
    (dbAccountAdminAdd .init id ⟨[50], [], []⟩ ⟨ascii "a", ascii "w", [], []⟩).2 ⟨[50], [], []⟩
    (ascii "a") ⟨ascii "d", [], ascii "i", 1, [], [], 1, ascii "f", 0, 0, [], [], [], true, []⟩).2
  sessions := [⟨⟨⟨ascii "a", ascii "w", [], [], [50]⟩, [], true, true, ⟨5, [], 0, true⟩⟩, 0, false⟩]
  devices := []

/-- Another device, at channel 2 of port 1. -/
private def secondDevice (ip : String) : Device :=
  ⟨ascii "e", [], ascii ip, 1, [], [], 2, ascii "g", 0, 0, [], [], [], true, []⟩

private def secondRequest (ip : String) : Option RpcReq :=
  some [⟨ascii "uuid", some (ascii "e"), 1⟩,
    ⟨ascii "plugin_name", some [], 0⟩, ⟨ascii "ip", some (ascii ip), 1⟩,
    ⟨ascii "port", some (ascii "1"), 1⟩, ⟨ascii "user", some [], 0⟩, ⟨ascii "pwd", some [], 0⟩,
    ⟨ascii "channel", some (ascii "2"), 1⟩, ⟨ascii "seg_folder", some (ascii "g"), 1⟩,
    ⟨ascii "seg_in_count", some [], 0⟩, ⟨ascii "seg_per_sec", some [], 0⟩,
    ⟨ascii "is_top_level", some (ascii "1"), 1⟩]

/-- At another ip it is added. -/
theorem device_added_elsewhere :
    AddsWhereFree oneDevice.store ⟨[50], [], []⟩ (ascii "a") (secondDevice "j") ∧
      CreatesWhereFree oneDevice 5 (secondRequest "j") ⟨⟨[50], [], []⟩, none⟩ := by
  have other : ∀ row ∈ oneDevice.store.deviceBasic.rows, row.ip ≠ ascii "j" := by decide
  have free : ∀ port channel, ¬AddressTaken oneDevice.store (ascii "a") (ascii "j") port channel := by
    rintro port channel ⟨row, member, ip, _⟩
    exact other row member ip
  have added := device_added_iff oneDevice.store ⟨[50], [], []⟩ (ascii "a") (secondDevice "j") oneDevice
    5 (secondRequest "j") ⟨⟨[50], [], []⟩, none⟩ (by decide +kernel) (by decide +kernel)
  refine ⟨added.1.2.mpr fun _ _ => iff_of_false (free _ _) (free _ _), added.2.2.mpr ?_⟩
  rintro session device found _ ⟨basic, segment, given, _, _, cut, _, whole⟩ _ ⟨row, member, ip, _⟩
  obtain rfl := Option.some.inj given
  obtain rfl := Option.some.inj cut
  obtain rfl := Option.some.inj whole
  exact other row member ip

/-- It passes the checks of the handler and is not added. -/
theorem not_device_added :
    let device := secondDevice "i"
    let req := secondRequest "i"
    let around : Surroundings := ⟨⟨[50], [], []⟩, none⟩
    (reqDeviceCreate oneDevice 5 req around).map Outcome.reply = .ok (some (rid (-256))) ∧
      ¬AddsWhereFree oneDevice.store around.toAmbient (ascii "a") device ∧
      ¬CreatesWhereFree oneDevice 5 req around := by
  intro device req around
  have free : UuidFree oneDevice.store device.uuid := ⟨by decide, by decide⟩
  refine ⟨by decide, fun adds => ?_, fun creates => ?_⟩
  · have refused : (dbAccountDeviceAdd oneDevice.store around.toAmbient (ascii "a") device).1 = false := by
      decide
    have notTaken : ∀ row ∈ oneDevice.store.deviceBasic.rows, row.channel ≠ device.channel := by
      decide
    rw [AddsWhereFree, refused] at adds
    refine Bool.false_ne_true (adds.mpr ⟨⟨by decide, by decide⟩, free, ?_⟩)
    rintro ⟨row, member, _, _, channel, _⟩
    exact notTaken row member channel
  · have checked : CreateChecked req oneDevice.store (ascii "a") device :=
      ⟨_, _, rfl, by decide, by decide, rfl, by decide, by decide⟩
    obtain ⟨outcome, run, zero⟩ := creates _ device rfl (by decide) checked free
    have refused : (reqDeviceCreate oneDevice 5 req around).map Outcome.reply ≠ .ok (some (rid 0)) := by
      decide
    rw [run] at refused
    exact refused (congrArg Except.ok zero)

end Livezure.Service
