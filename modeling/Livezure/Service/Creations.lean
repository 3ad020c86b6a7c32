import Livezure.Core.Reservation
import Livezure.Core.Transition
import Livezure.Service.Handlers

/-! `req_device_create` on several threads: each statement on the data base is one
step, and the steps of different requests come in any order. -/
namespace Livezure.Service
open Livezure.Core Db Rpc

/-- Which statement a request makes next, with the device as far as it is read. -/
inductive CreatePhase where
  /-- `db_account_check_user_exist`: the account, then its license. -/
  | user
  | license
  | checkExist (device : Device)
  /-- `db_account_device_get`. -/
  | checkUuid (device : Device)
  | checkFolder (device : Device)
  /-- In `db_account_device_add`, the same two checks again. -/
  | addUser (device : Device)
  | addLicense (device : Device)
  | addCheckExist (device : Device)
  | insertBasic (device : Device)
  | insertAccount (device : Device)
  | replied (result : Int)
  deriving DecidableEq

/-- A request whose session was found; `uuid` is `cur_uuid`. -/
structure Creation where
  uuid : Bytes
  req : Option RpcReq
  phase : CreatePhase
  deriving DecidableEq

namespace Creation

/-- One statement, and what the handler makes of its result. -/
def step (creation : Creation) (store : Store) (now : Bytes) : Store × Creation :=
  match creation.phase with
  | .user =>
    (store, { creation with
      phase := if creation.uuid ∈ store.basic.keys then .license else .replied (-1) })
  | .license =>
    (store, { creation with
      phase :=
        if (dbAccountLicenseGet store creation.uuid).isSome then
          match deviceBasicParams creation.req with
          | none => .replied (-255)
          | some device => .checkExist device
        else .replied (-1) })
  | .checkExist device =>
    (store, { creation with
      phase :=
        if dbAccountDeviceCheckExist store creation.uuid device.ip device.port device.channel then
          .replied (-2)
        else .checkUuid device })
  | .checkUuid device =>
    (store, { creation with
      phase :=
        if (dbAccountDeviceGet store creation.uuid (some device.uuid)).isSome then .replied (-2)
        else
          match deviceSegmentParams creation.req device with
          | none => .replied (-255)
          | some device => .checkFolder device })
  | .checkFolder device =>
    (store, { creation with
      phase :=
        if dbAccountDeviceWorkpathValid store device.segFolder then .replied (-3)
        else
          match deviceTreeParams creation.req device with
          | none => .replied (-255)
          | some device => .addUser device })
  | .addUser device =>
    (store, { creation with
      phase := if creation.uuid ∈ store.basic.keys then .addLicense device else .replied (-256) })
  | .addLicense device =>
    (store, { creation with
      phase :=
        if (dbAccountLicenseGet store creation.uuid).isSome then .addCheckExist device
        else .replied (-256) })
  | .addCheckExist device =>
    (store, { creation with
      phase :=
        -- the port stands for the channel
        if dbAccountDeviceCheckExist store creation.uuid device.ip device.port device.port then
          .replied (-256)
        else .insertBasic device })
  | .insertBasic device =>
    match store.deviceBasic.insert ⟨device.uuid, device.pluginName, device.ip, device.port,
        device.user, device.pwd, device.channel, device.segFolder, device.segInCount,
        device.segPerSec, now⟩ with
    | none => (store, { creation with phase := .replied (-256) })
    | some deviceBasic =>
      ({ store with deviceBasic }, { creation with phase := .insertAccount device })
  | .insertAccount device =>
    match store.accountDevice.insert ⟨device.uuid, creation.uuid, device.nickname, device.comment,
        device.isTopLevel, device.refParentUuid, now⟩ with
    | none => (store, { creation with phase := .replied (-256) })
    | some accountDevice =>
      ({ store with accountDevice }, { creation with phase := .replied 0 })
  | .replied _ => (store, creation)

end Creation

/-- The steps of one request in a row. -/
def Creation.finish (now : Bytes) : Nat → Store → Creation → Store × Creation
  | 0, store, creation => (store, creation)
  | steps + 1, store, creation =>
    let (store, creation) := creation.step store now
    creation.finish now steps store

/-- The requests on one data base. -/
structure Creating where
  store : Store
  creations : List Creation
  deriving DecidableEq

/-- What the -2 answers keep apart. -/
structure DeviceAddress where
  refAdminUuid : Bytes
  ip : Bytes
  port : Int
  channel : Int
  deriving DecidableEq

def deviceAddress (refAdminUuid : Bytes) (basic : DeviceBasic) : DeviceAddress :=
  ⟨refAdminUuid, basic.ip, basic.port, basic.channel⟩

/-- The addresses of the devices, which are the pairs of rows with one uuid. -/
def addresses (store : Store) : List DeviceAddress :=
  store.accountDevice.rows.filterMap fun row =>
    (store.deviceBasic.rows.find? fun basic => basic.uuid = row.uuid).map
      (deviceAddress row.refAdminUuid)

def folders (store : Store) : List Bytes := store.deviceBasic.rows.map DeviceBasic.segFolder

/-- No two devices of an admin have one address, and no two have one folder. -/
structure DevicesApart (store : Store) : Prop where
  addresses : (addresses store).Nodup
  folders : (folders store).Nodup

instance (store : Store) : Decidable (DevicesApart store) :=
  decidable_of_iff ((addresses store).Nodup ∧ (folders store).Nodup)
    ⟨fun both => ⟨both.1, both.2⟩, fun apart => ⟨apart.addresses, apart.folders⟩⟩

namespace Creation

def address (creation : Creation) : Option DeviceAddress :=
  match creation.phase with
  | .checkUuid device | .checkFolder device | .addUser device | .addLicense device
  | .addCheckExist device | .insertBasic device | .insertAccount device =>
    some ⟨creation.uuid, device.ip, device.port, device.channel⟩
  | .user | .license | .checkExist _ | .replied _ => none

def folder (creation : Creation) : Option Bytes :=
  match creation.phase with
  | .addUser device | .addLicense device | .addCheckExist device | .insertBasic device =>
    some device.segFolder
  | .user | .license | .checkExist _ | .checkUuid _ | .checkFolder _ | .insertAccount _
  | .replied _ => none

end Creation

namespace Creating

inductive Action where
  | request (uuid : Bytes) (req : Option RpcReq)
  | step (index : Nat) (now : Bytes)
  deriving DecidableEq

def next (state : Creating) : Action → Option Creating
  | .request uuid req => some { state with creations := state.creations ++ [⟨uuid, req, .user⟩] }
  | .step index now => state.creations[index]?.map fun creation =>
    let (store, creation) := creation.step state.store now
    ⟨store, state.creations.set index creation⟩

/-- Requests come to any tables in which devices have both rows and are apart. -/
def system : System Creating Action where
  Start := fun state => state.creations = [] ∧ DevicesApart state.store ∧
    ∀ uuid ∈ state.store.accountDevice.keys, uuid ∈ state.store.deviceBasic.keys
  next := next

/-- Where a request makes one of its checks, no other one has passed it for the same
address or folder and not made its insertion yet. -/
def Guard (state : Creating) : Action → Prop
  | .request _ _ => True
  | .step index _ => ∀ creation ∈ state.creations[index]?,
    match creation.phase with
    | .checkExist device =>
      some ⟨creation.uuid, device.ip, device.port, device.channel⟩ ∉
        (state.creations.eraseIdx index).map Creation.address
    | .checkFolder device =>
      some device.segFolder ∉ (state.creations.eraseIdx index).map Creation.folder
    | _ => True

end Creating

/-! ### What the checks and the insertions say of addresses and folders -/

section
variable {store : Store}

private theorem mem_addresses {address : DeviceAddress} : address ∈ addresses store ↔
    ∃ row ∈ store.accountDevice.rows, ∃ basic ∈ store.deviceBasic.rows,
      basic.uuid = row.uuid ∧ deviceAddress row.refAdminUuid basic = address := by
  simp only [addresses, List.mem_filterMap, Option.map_eq_some_iff]
  constructor
  · rintro ⟨row, listed, basic, found, same⟩
    have uuid := List.find?_some found
    exact ⟨row, listed, basic, List.mem_of_find?_eq_some found, of_decide_eq_true uuid, same⟩
  · rintro ⟨row, listed, basic, member, uuid, same⟩
    refine ⟨row, listed, basic, ?_, same⟩
    rw [← uuid]
    exact Table.find_key member

private theorem dbAccountDeviceCheckExist_iff {refAdminUuid ip : Bytes} {port channel : Int} :
    dbAccountDeviceCheckExist store refAdminUuid ip port channel = true ↔
      ⟨refAdminUuid, ip, port, channel⟩ ∈ addresses store := by
  rw [mem_addresses, dbAccountDeviceCheckExist, decide_eq_true_iff]
  constructor
  · intro found
    obtain ⟨basic, selected⟩ := List.exists_mem_of_ne_nil _ found
    obtain ⟨member, met⟩ := Table.mem_select.mp selected
    simp only [Bool.and_eq_true, decide_eq_true_eq, List.mem_map] at met
    obtain ⟨⟨⟨rfl, rfl⟩, rfl⟩, row, owned, uuid⟩ := met
    obtain ⟨listed, owner⟩ := Table.mem_select.mp owned
    refine ⟨row, listed, basic, member, uuid.symm, ?_⟩
    rw [deviceAddress, of_decide_eq_true owner]
  · rintro ⟨row, listed, basic, member, uuid, same⟩ nothing
    obtain ⟨rfl, rfl, rfl, rfl⟩ := DeviceAddress.mk.inj same
    have selected : basic ∈ store.deviceBasic.select fun other =>
        decide (other.ip = basic.ip) && decide (other.port = basic.port) &&
          decide (other.channel = basic.channel) &&
          decide (other.uuid ∈ (store.accountDevice.select fun device =>
            decide (device.refAdminUuid = row.refAdminUuid)).map AccountDevice.uuid) := by
      apply Table.mem_select.mpr
      simp only [decide_true, Bool.true_and, decide_eq_true_eq]
      refine ⟨member, List.mem_map.mpr ⟨row, ?_, uuid.symm⟩⟩
      exact Table.mem_select.mpr ⟨listed, decide_eq_true rfl⟩
    rw [nothing] at selected
    cases selected

private theorem dbAccountDeviceWorkpathValid_iff {workpath : Bytes} :
    dbAccountDeviceWorkpathValid store workpath = true ↔ workpath ∈ folders store := by
  rw [dbAccountDeviceWorkpathValid, decide_eq_true_iff, folders, List.mem_map]
  constructor
  · intro found
    obtain ⟨basic, selected⟩ := List.exists_mem_of_ne_nil _ found
    obtain ⟨member, met⟩ := Table.mem_select.mp selected
    exact ⟨basic, member, of_decide_eq_true met⟩
  · rintro ⟨basic, member, same⟩ nothing
    have selected : basic ∈ store.deviceBasic.select fun row => decide (row.segFolder = workpath) :=
      Table.mem_select.mpr ⟨member, decide_eq_true same⟩
    rw [nothing] at selected
    cases selected

/-- A row of `t_device_basic` adds a folder, and no address before its other row. -/
theorem insertBasic_apart {row : DeviceBasic} {deviceBasic : Table DeviceBasic.uuid}
    (rows : ∀ uuid ∈ store.accountDevice.keys, uuid ∈ store.deviceBasic.keys)
    (inserted : store.deviceBasic.insert row = some deviceBasic) :
    addresses { store with deviceBasic } = addresses store ∧
      folders { store with deviceBasic } = folders store ++ [row.segFolder] := by
  obtain ⟨_, listed⟩ := Table.insert_some inserted
  constructor
  · apply List.filterMap_congr
    intro device member
    obtain ⟨basic, known, uuid⟩ := Table.mem_keys.mp (rows _ (Table.key_mem member))
    have before := Table.find_key known
    have after := Table.find_key (Table.mem_of_insert inserted known)
    rw [uuid] at before after
    simp only [before, after]
  · simp [folders, listed]

/-- A row of `t_account_device` adds the address of its device. -/
theorem insertAccount_apart {row : AccountDevice} {basic : DeviceBasic}
    {accountDevice : Table AccountDevice.uuid} (member : basic ∈ store.deviceBasic.rows)
    (uuid : basic.uuid = row.uuid) (inserted : store.accountDevice.insert row = some accountDevice) :
    addresses { store with accountDevice } =
      addresses store ++ [deviceAddress row.refAdminUuid basic] := by
  obtain ⟨_, listed⟩ := Table.insert_some inserted
  have found := Table.find_key member
  rw [uuid] at found
  simp only [addresses, listed, List.filterMap_append, List.filterMap_cons, List.filterMap_nil,
    found, Option.map_some]

end

private theorem deviceSegmentParams_address {req : Option RpcReq} {device after : Device}
    (read : deviceSegmentParams req device = some after) :
    after.ip = device.ip ∧ after.port = device.port ∧ after.channel = device.channel := by
  simp only [deviceSegmentParams, bind, Option.bind_eq_some_iff] at read
  obtain ⟨_, _, _, _, _, _, same⟩ := read
  obtain rfl := Option.some.inj same
  exact ⟨rfl, rfl, rfl⟩

private theorem deviceTreeParams_address {req : Option RpcReq} {device after : Device}
    (read : deviceTreeParams req device = some after) :
    after.ip = device.ip ∧ after.port = device.port ∧ after.channel = device.channel ∧
      after.segFolder = device.segFolder := by
  obtain ⟨isTopLevel, _, read⟩ := Option.bind_eq_some_iff.mp read
  dsimp only at read
  split at read <;>
  · obtain ⟨refParentUuid, _, same⟩ := Option.bind_eq_some_iff.mp read
    obtain rfl := Option.some.inj same
    exact ⟨rfl, rfl, rfl, rfl⟩

/-! ### What one statement can do -/

namespace Creation

/-- The cases of a step. -/
inductive Moves (store : Store) (creation : Creation) : Store → Creation → Prop where
  /-- A claim may be given up; nothing else changes. -/
  | quiet {later : Creation} : (later.address = creation.address ∨ later.address = none) →
      (later.folder = creation.folder ∨ later.folder = none) →
      (∀ device, later.phase ≠ .insertAccount device) → Moves store creation store later
  | address {device : Device} : creation.phase = .checkExist device →
      ⟨creation.uuid, device.ip, device.port, device.channel⟩ ∉ addresses store →
      Moves store creation store { creation with phase := .checkUuid device }
  | folder {device after : Device} : creation.phase = .checkFolder device →
      device.segFolder ∉ folders store → deviceTreeParams creation.req device = some after →
      Moves store creation store { creation with phase := .addUser after }
  | insertBasic {device : Device} {row : DeviceBasic} {deviceBasic : Table DeviceBasic.uuid} :
      creation.phase = .insertBasic device → row.uuid = device.uuid →
      row.segFolder = device.segFolder →
      deviceAddress creation.uuid row = ⟨creation.uuid, device.ip, device.port, device.channel⟩ →
      store.deviceBasic.insert row = some deviceBasic →
      Moves store creation { store with deviceBasic }
        { creation with phase := .insertAccount device }
  | insertAccount {device : Device} {row : AccountDevice} {accountDevice : Table AccountDevice.uuid} :
      creation.phase = .insertAccount device → row.uuid = device.uuid →
      row.refAdminUuid = creation.uuid → store.accountDevice.insert row = some accountDevice →
      Moves store creation { store with accountDevice } { creation with phase := .replied 0 }

theorem step_moves (creation : Creation) (store : Store) (now : Bytes) :
    creation.Moves store (creation.step store now).1 (creation.step store now).2 := by
  have replied : ∀ result, creation.Moves store store { creation with phase := .replied result } :=
    fun result => .quiet (.inr rfl) (.inr rfl) nofun
  cases phase : creation.phase with
  | user =>
    simp only [step, phase]
    split
    · exact .quiet (.inr rfl) (.inr rfl) nofun
    · exact replied _
  | license =>
    simp only [step, phase]
    split
    · split
      · exact replied _
      · exact .quiet (.inr rfl) (.inr rfl) nofun
    · exact replied _
  | checkExist device =>
    simp only [step, phase]
    split
    · exact replied _
    · rename_i absent
      exact .address phase (mt dbAccountDeviceCheckExist_iff.mpr absent)
  | checkUuid device =>
    simp only [step, phase]
    split
    · exact replied _
    · split
      · exact replied _
      · rename_i after read
        obtain ⟨ip, port, channel⟩ := deviceSegmentParams_address read
        refine .quiet (.inl ?_) (.inr rfl) nofun
        simp only [address, phase, ip, port, channel]
  | checkFolder device =>
    simp only [step, phase]
    split
    · exact replied _
    · rename_i absent
      split
      · exact replied _
      · rename_i after read
        exact .folder phase (mt dbAccountDeviceWorkpathValid_iff.mpr absent) read
  | addUser device =>
    simp only [step, phase]
    split
    · exact .quiet (.inl (by simp only [address, phase])) (.inl (by simp only [folder, phase])) nofun
    · exact replied _
  | addLicense device =>
    simp only [step, phase]
    split
    · exact .quiet (.inl (by simp only [address, phase])) (.inl (by simp only [folder, phase])) nofun
    · exact replied _
  | addCheckExist device =>
    simp only [step, phase]
    split
    · exact replied _
    · exact .quiet (.inl (by simp only [address, phase])) (.inl (by simp only [folder, phase])) nofun
  | insertBasic device =>
    simp only [step, phase]
    split
    · exact replied _
    · rename_i deviceBasic inserted
      exact .insertBasic phase rfl rfl rfl inserted
  | insertAccount device =>
    simp only [step, phase]
    split
    · exact replied _
    · rename_i accountDevice inserted
      exact .insertAccount phase rfl rfl inserted
  | replied result =>
    simp only [step, phase]
    refine .quiet (.inl rfl) (.inl rfl) ?_
    rw [phase]
    exact nofun

end Creation

/-! ### One request alone -/

theorem isAdminAccount_iff {store : Store} {ambient : Ambient} {uuid : Bytes} :
    isAdminAccount store ambient uuid = true ↔
      uuid ∈ store.basic.keys ∧ (dbAccountLicenseGet store uuid).isSome := by
  unfold isAdminAccount dbAccountCheckUserExist
  by_cases known : uuid ∈ store.basic.keys
  · rw [if_pos known]
    cases dbAccountLicenseGet store uuid with
    | some license => simp [known]
    | none => cases (store.child.select fun row => decide (row.uuid = uuid)).head? <;> simp
  · simp [known]

namespace Creation

section
variable {store after : Store} {ambient : Ambient} {now uuid : Bytes} {req : Option RpcReq}
variable {creation later : Creation} {device : Device} {outcome : Store × Reply}

/-- These many steps in a row end the request with an outcome. -/
def Finishes (now : Bytes) (steps : Nat) (store : Store) (creation : Creation)
    (outcome : Store × Reply) : Prop :=
  ∃ result, (creation.finish now steps store).2.phase = .replied result ∧
    ((creation.finish now steps store).1, rid result) = outcome

theorem Finishes.step (stepped : creation.step store now = (after, later))
    (finishes : Finishes now steps after later outcome) :
    Finishes now (steps + 1) store creation outcome := by
  unfold Finishes finish
  rw [stepped]
  exact finishes

theorem Finishes.replied (steps : Nat) (store : Store) (result : Int) :
    Finishes now steps store ⟨uuid, req, .replied result⟩ (store, rid result) := by
  induction steps with
  | zero => exact ⟨result, rfl, rfl⟩
  | succ steps ih => exact ih.step rfl

private theorem finishes_add (isAdmin : isAdminAccount store ambient uuid = true) :
    Finishes ambient.now 5 store ⟨uuid, req, .addUser device⟩
      ((dbAccountDeviceAdd store ambient uuid device).2,
        rid (if (dbAccountDeviceAdd store ambient uuid device).1 then 0 else -256)) := by
  obtain ⟨known, license⟩ := isAdminAccount_iff.mp isAdmin
  obtain ⟨ref, admin⟩ : ∃ ref, dbAccountCheckUserExist store ambient uuid = some ⟨true, ref⟩ := by
    unfold dbAccountCheckUserExist
    rw [if_pos known]
    obtain ⟨value, found⟩ := Option.isSome_iff_exists.mp license
    rw [found]
    exact ⟨[], rfl⟩
  have user : step ⟨uuid, req, .addUser device⟩ store ambient.now =
      (store, ⟨uuid, req, .addLicense device⟩) := by
    simp only [step, if_pos known]
  have licensed : step ⟨uuid, req, .addLicense device⟩ store ambient.now =
      (store, ⟨uuid, req, .addCheckExist device⟩) := by
    simp only [step, if_pos license]
  apply Finishes.step user
  apply Finishes.step licensed
  simp only [dbAccountDeviceAdd, admin]
  by_cases present : dbAccountDeviceCheckExist store uuid device.ip device.port device.port = true
  · rw [if_pos present]
    apply Finishes.step (by simp only [step, if_pos present]; rfl)
    exact .replied _ store (-256)
  · rw [if_neg present]
    apply Finishes.step (by simp only [step, if_neg present]; rfl)
    cases basic : store.deviceBasic.insert ⟨device.uuid, device.pluginName, device.ip, device.port,
        device.user, device.pwd, device.channel, device.segFolder, device.segInCount,
        device.segPerSec, ambient.now⟩ with
    | none =>
      apply Finishes.step (by simp only [step, basic]; rfl)
      exact .replied _ store (-256)
    | some deviceBasic =>
      apply Finishes.step (by simp only [step, basic]; rfl)
      cases account : store.accountDevice.insert ⟨device.uuid, uuid, device.nickname, device.comment,
          device.isTopLevel, device.refParentUuid, ambient.now⟩ with
      | none =>
        apply Finishes.step (by simp only [step, account]; rfl)
        exact .replied _ _ (-256)
      | some accountDevice =>
        apply Finishes.step (by simp only [step, account]; rfl)
        exact .replied _ _ 0

/-- A request that no other one interrupts is `req_device_create` as a whole. -/
theorem finishes_deviceCreate (store : Store) (ambient : Ambient) (uuid : Bytes)
    (req : Option RpcReq) :
    Finishes ambient.now 10 store ⟨uuid, req, .user⟩
      (if isAdminAccount store ambient uuid then deviceCreate req store ambient uuid
        else (store, rid (-1))) := by
  by_cases isAdmin : isAdminAccount store ambient uuid = true
  · obtain ⟨known, license⟩ := isAdminAccount_iff.mp isAdmin
    rw [if_pos isAdmin, deviceCreate]
    apply Finishes.step (by simp only [step, if_pos known]; rfl)
    cases basicParams : deviceBasicParams req with
    | none =>
      apply Finishes.step (by simp only [step, if_pos license, basicParams]; rfl)
      exact .replied _ store (-255)
    | some device =>
      apply Finishes.step (by simp only [step, if_pos license, basicParams]; rfl)
      dsimp only
      by_cases present :
          dbAccountDeviceCheckExist store uuid device.ip device.port device.channel = true
      · rw [if_pos present]
        apply Finishes.step (by simp only [step, if_pos present]; rfl)
        exact .replied _ store (-2)
      · rw [if_neg present]
        apply Finishes.step (by simp only [step, if_neg present]; rfl)
        by_cases listed : (dbAccountDeviceGet store uuid (some device.uuid)).isSome = true
        · rw [if_pos listed]
          apply Finishes.step (by simp only [step, if_pos listed]; rfl)
          exact .replied _ store (-2)
        · rw [if_neg listed]
          cases segmentParams : deviceSegmentParams req device with
          | none =>
            apply Finishes.step (by simp only [step, if_neg listed, segmentParams]; rfl)
            exact .replied _ store (-255)
          | some segmented =>
            apply Finishes.step (by simp only [step, if_neg listed, segmentParams]; rfl)
            dsimp only
            by_cases taken : dbAccountDeviceWorkpathValid store segmented.segFolder = true
            · rw [if_pos taken]
              apply Finishes.step (by simp only [step, if_pos taken]; rfl)
              exact .replied _ store (-3)
            · rw [if_neg taken]
              cases treeParams : deviceTreeParams req segmented with
              | none =>
                apply Finishes.step (by simp only [step, if_neg taken, treeParams]; rfl)
                exact .replied _ store (-255)
              | some whole =>
                apply Finishes.step (by simp only [step, if_neg taken, treeParams]; rfl)
                exact finishes_add isAdmin
  · rw [if_neg isAdmin]
    by_cases known : uuid ∈ store.basic.keys
    · have license : ¬ (dbAccountLicenseGet store uuid).isSome = true :=
        fun license => isAdmin (isAdminAccount_iff.mpr ⟨known, license⟩)
      apply Finishes.step (by simp only [step, if_pos known]; rfl)
      apply Finishes.step (by simp only [step, if_neg license]; rfl)
      exact .replied _ store (-1)
    · apply Finishes.step (by simp only [step, if_neg known]; rfl)
      exact .replied _ store (-1)

end

end Creation

/-! ### Every interleaving -/

namespace Creating

/-- What the requests in progress have found free, they still find free. -/
structure Held (state : Creating) : Prop where
  addresses : Reserved (addresses state.store) (state.creations.map Creation.address)
  folders : Reserved (folders state.store) (state.creations.map Creation.folder)
  rows : ∀ uuid ∈ state.store.accountDevice.keys, uuid ∈ state.store.deviceBasic.keys
  /-- The first row of a request that comes to its second insertion. -/
  own : ∀ creation ∈ state.creations, ∀ device, creation.phase = .insertAccount device →
    ∃ basic ∈ state.store.deviceBasic.rows, basic.uuid = device.uuid ∧
      deviceAddress creation.uuid basic = ⟨creation.uuid, device.ip, device.port, device.channel⟩

private theorem others {Key : Type} {creations : List Creation} {f : Creation → Option Key}
    {index : Nat} {key : Key} (alone : some key ∉ (creations.eraseIdx index).map f) :
    ∀ other, other ≠ index → (creations.map f)[other]? ≠ some (some key) := by
  intro other differ found
  rw [List.getElem?_map, Option.map_eq_some_iff] at found
  obtain ⟨creation, at_place, same⟩ := found
  apply alone
  rw [← same]
  apply List.mem_map_of_mem
  exact List.mem_eraseIdx_iff_getElem?.mpr ⟨other, differ, at_place⟩

namespace Held
variable {state : Creating}

theorem request (held : Held state) (uuid : Bytes) (req : Option RpcReq) :
    Held { state with creations := state.creations ++ [⟨uuid, req, .user⟩] } := by
  refine ⟨?_, ?_, held.rows, ?_⟩
  · rw [List.map_append]
    exact held.addresses.join
  · rw [List.map_append]
    exact held.folders.join
  · intro creation member device waits
    rcases List.mem_append.mp member with old | new
    · exact held.own creation old device waits
    · rw [List.mem_singleton.mp new] at waits
      cases waits

/-- A statement under the condition: one case for each kind of step. -/
theorem moved (held : Held state) {creation later : Creation} {store : Store}
    (found : state.creations[index]? = some creation)
    (met : Guard state (.step index now)) (moves : creation.Moves state.store store later) :
    Held ⟨store, state.creations.set index later⟩ := by
  have member := List.mem_of_getElem? found
  have met := met creation found
  have address : (state.creations.map Creation.address)[index]? = some creation.address := by
    rw [List.getElem?_map, found, Option.map_some]
  have folder : (state.creations.map Creation.folder)[index]? = some creation.folder := by
    rw [List.getElem?_map, found, Option.map_some]
  -- Rows of `t_device_basic` stay, so the requests that have theirs keep them.
  have owned : (∀ basic ∈ state.store.deviceBasic.rows, basic ∈ store.deviceBasic.rows) →
      (∀ device, later.phase = .insertAccount device →
        ∃ basic ∈ store.deviceBasic.rows, basic.uuid = device.uuid ∧
          deviceAddress later.uuid basic = ⟨later.uuid, device.ip, device.port, device.channel⟩) →
      ∀ other ∈ state.creations.set index later, ∀ device, other.phase = .insertAccount device →
        ∃ basic ∈ store.deviceBasic.rows, basic.uuid = device.uuid ∧
          deviceAddress other.uuid basic = ⟨other.uuid, device.ip, device.port, device.channel⟩ := by
    intro stays new other listed device waits
    rcases List.mem_or_eq_of_mem_set listed with old | same
    · obtain ⟨basic, known, uuid, same⟩ := held.own other old device waits
      exact ⟨basic, stays basic known, uuid, same⟩
    · subst same
      exact new device waits
  cases moves with
  | quiet keepsAddress keepsFolder elsewhere =>
    refine ⟨?_, ?_, held.rows, owned (fun _ known => known) ?_⟩
    · rw [List.map_set]
      exact held.addresses.keep address keepsAddress
    · rw [List.map_set]
      exact held.folders.keep folder keepsFolder
    · intro device waits
      exact absurd waits (elsewhere device)
  | @address device phase fresh =>
    simp only [phase] at met
    refine ⟨?_, ?_, held.rows, owned (fun _ known => known) nofun⟩
    · rw [List.map_set]
      exact held.addresses.claim fresh (others met)
    · rw [List.map_set]
      exact held.folders.drop index
  | @folder device after phase fresh read =>
    simp only [phase] at met
    obtain ⟨ip, port, channel, segFolder⟩ := deviceTreeParams_address read
    refine ⟨?_, ?_, held.rows, owned (fun _ known => known) nofun⟩
    · rw [List.map_set]
      refine held.addresses.keep address (.inl ?_)
      simp only [Creation.address, phase, ip, port, channel]
    · rw [List.map_set]
      simp only [Creation.folder, segFolder]
      exact held.folders.claim fresh (others met)
  | @insertBasic device row deviceBasic phase uuid segFolder same inserted =>
    obtain ⟨addresses, folders⟩ := insertBasic_apart held.rows inserted
    refine ⟨?_, ?_, ?_, owned ?_ ?_⟩
    · rw [List.map_set, addresses]
      refine held.addresses.keep address (.inl ?_)
      simp only [Creation.address, phase]
    · rw [List.map_set, folders, segFolder]
      apply held.folders.take
      rw [folder, Creation.folder, phase]
    · intro other listed
      exact (Table.keys_insert inserted).mpr (.inl (held.rows other listed))
    · intro basic known
      exact Table.mem_of_insert inserted known
    · intro other waits
      obtain rfl := CreatePhase.insertAccount.inj waits
      refine ⟨row, ?_, uuid, same⟩
      rw [(Table.insert_some inserted).2]
      exact List.mem_append_right _ List.mem_cons_self
  | @insertAccount device row accountDevice phase uuid owner inserted =>
    obtain ⟨basic, known, named, same⟩ := held.own creation member device phase
    have addresses := insertAccount_apart known (named.trans uuid.symm) inserted
    refine ⟨?_, ?_, ?_, owned (fun _ known => known) nofun⟩
    · rw [List.map_set, addresses, owner, same]
      apply held.addresses.take
      rw [address, Creation.address, phase]
    · rw [List.map_set]
      exact held.folders.drop index
    · intro other listed
      rcases (Table.keys_insert inserted).mp listed with old | rfl
      · exact held.rows other old
      · rw [uuid, ← named]
        exact Table.key_mem known

end Held

/-- While no two requests for one address or one folder are between a check and its
insertion, no two devices share one. -/
theorem devicesApart_of_guard {state : Creating} (reached : system.Reachable Guard state) :
    DevicesApart state.store := by
  have held : Held state := by
    refine reached.invariant Held ?_ ?_
    · rintro ⟨store, creations⟩ ⟨rfl, apart, rows⟩
      refine ⟨.start apart.addresses, .start apart.folders, rows, fun creation member => ?_⟩
      exact absurd member List.not_mem_nil
    · intro before action after held met step
      cases action with
      | request uuid req =>
        obtain rfl := Option.some.inj step
        exact held.request uuid req
      | step index now =>
        obtain ⟨creation, found, rfl⟩ := Option.map_eq_some_iff.mp step
        exact held.moved found met (creation.step_moves before.store now)
  exact ⟨held.addresses.unique, held.folders.unique⟩

instance (state : Creating) (action : Action) : Decidable (Guard state action) :=
  match action with
  | .request _ _ => .isTrue trivial
  | .step index _ =>
    have decides (creation : Creation) : Decidable (match creation.phase with
        | .checkExist device =>
          some ⟨creation.uuid, device.ip, device.port, device.channel⟩ ∉
            (state.creations.eraseIdx index).map Creation.address
        | .checkFolder device =>
          some device.segFolder ∉ (state.creations.eraseIdx index).map Creation.folder
        | _ => True) := by
      split <;> infer_instance
    inferInstanceAs (Decidable (∀ creation ∈ state.creations[index]?, _))

/-- An admin without devices. -/
private def adminOnly : Store :=
  (dbAccountAdminAdd .init id ⟨[50], [], []⟩ ⟨ascii "a", ascii "w", [], []⟩).2

private def deviceRequest (uuid ip folder : String) : Action :=
  .request (ascii "a") (some ([("uuid", uuid), ("plugin_name", "p"), ("ip", ip), ("port", "80"),
    ("user", "u"), ("pwd", "w"), ("channel", "1"), ("seg_folder", folder), ("seg_in_count", "2"),
    ("seg_per_sec", "3"), ("is_top_level", "1")].map fun (key, value) =>
      ⟨ascii key, some (ascii value), value.length⟩))

/-- Two requests whose statements alternate. -/
private def alternating (first second : Action) : List Action :=
  [first, second] ++ (List.replicate 10 [.step 0 [50], .step 1 [50]]).flatten

theorem devicesApart_alternating :
    ∃ state, system.run ⟨adminOnly, []⟩
        (alternating (deviceRequest "d" "i" "f") (deviceRequest "e" "j" "g")) = some state ∧
      state.creations.map Creation.phase = [.replied 0, .replied 0] ∧
      state.store.accountDevice.keys = [ascii "d", ascii "e"] ∧ DevicesApart state.store := by
  have started : system.Reachable Guard ⟨adminOnly, []⟩ :=
    .start ⟨rfl, by decide, by decide⟩
  have met : system.Guarded Guard ⟨adminOnly, []⟩
      (alternating (deviceRequest "d" "i" "f") (deviceRequest "e" "j" "g")) := by
    decide +kernel
  exact ⟨_, rfl, by decide +kernel, by decide +kernel, devicesApart_of_guard (started.run met rfl)⟩

/-- Two requests for one address, with two uuids and two folders: each passes its checks
before the other one has inserted its rows, and both get the answer 0. -/
theorem address_taken_twice :
    ∃ state, system.Reachable System.Free state ∧
      state.creations.map Creation.phase = [.replied 0, .replied 0] ∧ ¬ DevicesApart state.store := by
  have started : system.Reachable System.Free ⟨adminOnly, []⟩ :=
    .start ⟨rfl, by decide, by decide⟩
  have run := started.run (System.guarded_free _
    (alternating (deviceRequest "d" "i" "f") (deviceRequest "e" "i" "g"))) rfl
  exact ⟨_, run, by decide +kernel, by decide +kernel⟩

end Creating
end Livezure.Service
