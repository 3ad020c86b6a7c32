import Livezure.Core.Counters
import Livezure.Core.Transition
import Livezure.Service.Session

/-! The devices at work, with the reference counts of `pref.c`: over any calls of
`session_device_ref_work` and `session_device_dref` the list counts the references. -/
namespace Livezure.Service
open Livezure.Core Common

/-- `session_device_dref` with `pref_release`; `none` if the call does not return. -/
def drefLoop (uuid : Bytes) : List DeviceEntry → Option (Int × List DeviceEntry)
  | [] => some (-1, [])
  | entry :: rest =>
    if entry.deviceUuid = uuid then
      let cRef := prefPut entry.ref
      if cRef = 0 then (prefRelease cRef).map fun _ => (cRef, rest)
      else some (cRef, { entry with ref := cRef } :: rest)
    else (drefLoop uuid rest).map fun (count, rest) => (count, entry :: rest)

def sessionDeviceCount (devices : List DeviceEntry) : Nat := devices.foldl (fun cnt _ => cnt + 1) 0

inductive DeviceCall where
  | refWork (uuid : Bytes)
  | dref (uuid : Bytes)
  deriving DecidableEq

def DeviceCall.uuid : DeviceCall → Bytes
  | .refWork uuid | .dref uuid => uuid

def DeviceCall.run (devices : List DeviceEntry) : DeviceCall → Option (Int × List DeviceEntry)
  | .refWork uuid => some (sessionDeviceRefWork uuid devices)
  | .dref uuid => drefLoop uuid devices

/-- The list, and the calls so far, each with whether it found an entry. -/
@[ext] structure DeviceTable where
  devices : List DeviceEntry
  calls : List (DeviceCall × Bool)

namespace DeviceTable

def init : DeviceTable := ⟨[], []⟩

def step (table : DeviceTable) (call : DeviceCall) : DeviceTable where
  devices := ((call.run table.devices).map Prod.snd).getD table.devices
  calls := table.calls ++ [(call, table.devices.any fun entry => decide (entry.deviceUuid = call.uuid))]

/-- The calls for a uuid that took a reference, less those that gave one back. -/
def net (table : DeviceTable) (uuid : Bytes) : Int :=
  (table.calls.countP fun call => decide (call.1 = .refWork uuid) : Nat) -
    (table.calls.countP fun call => decide (call = (.dref uuid, true)) : Nat)

/-- Each uuid with references has one entry, and no other has one. -/
structure Exact (table : DeviceTable) : Prop where
  nonneg : ∀ uuid, 0 ≤ table.net uuid
  entries : ∀ uuid, (table.devices.filter fun entry => decide (entry.deviceUuid = uuid)).length =
    if 0 < table.net uuid then 1 else 0
  size : sessionDeviceCount table.devices = {uuid | 0 < table.net uuid}.ncard

/-- One more reference is still an `int`. -/
def Room (table : DeviceTable) (call : DeviceCall) : Prop :=
  ∀ uuid, call = .refWork uuid → table.net uuid + 1 < 2 ^ 31

/-- The call returns the references that are left, or -1 if there were none to give back. -/
structure Answers (table : DeviceTable) (call : DeviceCall) : Prop where
  refWork : ∀ uuid, call = .refWork uuid →
    ∃ devices, call.run table.devices = some ((table.step call).net uuid, devices)
  dref : ∀ uuid, call = .dref uuid →
    if table.net uuid = 0 then
      call.run table.devices = some (-1, table.devices) ∧ (table.step call).net uuid = 0
    else ∃ devices, call.run table.devices = some ((table.step call).net uuid, devices)
  others : ∀ other, other ≠ call.uuid → (table.step call).net other = table.net other

end DeviceTable

/-! ### What a call does to the entries -/

/-- `pref_release` is called for a count of 0 only, so it does not wait. -/
theorem drefLoop_eq (uuid : Bytes) (devices : List DeviceEntry) :
    drefLoop uuid devices = some (sessionDeviceDref uuid devices) := by
  induction devices with
  | nil => rfl
  | cons entry rest ih =>
    rw [drefLoop, sessionDeviceDref, ih]
    by_cases same : entry.deviceUuid = uuid
    · rw [if_pos same, if_pos same]
      by_cases last : prefPut entry.ref = 0
      · simp [prefRelease, last]
      · simp [last]
    · rw [if_neg same, if_neg same]
      rfl

def uuidsOf (devices : List DeviceEntry) : List Bytes := devices.map DeviceEntry.deviceUuid

def countersOf (devices : List DeviceEntry) : List (Bytes × Int) :=
  devices.map fun entry => (entry.deviceUuid, entry.ref)

section Entries
variable {uuid : Bytes} {devices front back : List DeviceEntry}

@[simp] theorem countersOf_keys : (countersOf devices).map Prod.fst = uuidsOf devices := by
  simp [countersOf, uuidsOf]

theorem countersOf_split {ref : Int} : countersOf (front ++ ⟨uuid, ref⟩ :: back) =
    countersOf front ++ (uuid, ref) :: countersOf back := by
  rw [countersOf, List.map_append, List.map_cons]
  rfl

private theorem sessionDeviceRefWork_absent (short : uuid.length ≤ 38) (absent : uuid ∉ uuidsOf devices) :
    sessionDeviceRefWork uuid devices = (1, devices ++ [⟨uuid, 1⟩]) := by
  induction devices with
  | nil =>
    rw [sessionDeviceRefWork, List.take_of_length_le short, List.nil_append]
    rfl
  | cons entry rest ih =>
    obtain ⟨differ, later⟩ := not_or.mp (mt List.mem_cons.mpr absent)
    rw [sessionDeviceRefWork, if_neg fun same => differ same.symm, ih later]
    rfl

private theorem sessionDeviceRefWork_present {ref : Int} (before : uuid ∉ uuidsOf front) :
    sessionDeviceRefWork uuid (front ++ ⟨uuid, ref⟩ :: back) =
      (prefGet ref, front ++ ⟨uuid, prefGet ref⟩ :: back) := by
  induction front with
  | nil =>
    rw [List.nil_append, sessionDeviceRefWork]
    exact if_pos rfl
  | cons entry front ih =>
    obtain ⟨differ, later⟩ := not_or.mp (mt List.mem_cons.mpr before)
    rw [List.cons_append, sessionDeviceRefWork, if_neg fun same => differ same.symm, ih later]
    rfl

private theorem sessionDeviceDref_absent (absent : uuid ∉ uuidsOf devices) :
    sessionDeviceDref uuid devices = (-1, devices) := by
  induction devices with
  | nil => rfl
  | cons entry rest ih =>
    obtain ⟨differ, later⟩ := not_or.mp (mt List.mem_cons.mpr absent)
    rw [sessionDeviceDref, if_neg fun same => differ same.symm, ih later]

private theorem sessionDeviceDref_present {ref : Int} (before : uuid ∉ uuidsOf front) :
    sessionDeviceDref uuid (front ++ ⟨uuid, ref⟩ :: back) =
      if prefPut ref = 0 then (prefPut ref, front ++ back)
      else (prefPut ref, front ++ ⟨uuid, prefPut ref⟩ :: back) := by
  induction front with
  | nil =>
    rw [List.nil_append, sessionDeviceDref]
    exact if_pos rfl
  | cons entry front ih =>
    obtain ⟨differ, later⟩ := not_or.mp (mt List.mem_cons.mpr before)
    rw [List.cons_append, sessionDeviceDref, if_neg fun same => differ same.symm, ih later]
    by_cases last : prefPut ref = 0
    · rw [if_pos last, if_pos last]
      rfl
    · rw [if_neg last, if_neg last]
      rfl

private theorem split_of_counted {uses : Multiset Bytes} (counted : Counted (countersOf devices) uses)
    (used : uuid ∈ uses) : ∃ front ref back, devices = front ++ ⟨uuid, ref⟩ :: back ∧
      uuid ∉ uuidsOf front := by
  have listed := (counted.listed uuid).mpr used
  rw [countersOf_keys] at listed
  obtain ⟨entry, member, rfl⟩ := List.mem_map.mp listed
  obtain ⟨front, back, rfl⟩ := List.append_of_mem member
  refine ⟨front, entry.ref, back, rfl, fun before => ?_⟩
  have unique := counted.unique
  rw [countersOf_keys, uuidsOf, List.map_append, List.map_cons] at unique
  exact (List.nodup_append.mp unique).2.2 _ before _ List.mem_cons_self rfl

private theorem refWork_counted {uses : Multiset Bytes} (short : uuid.length ≤ 38)
    (few : uses.count uuid + 1 < 2 ^ 31) (counted : Counted (countersOf devices) uses) :
    (sessionDeviceRefWork uuid devices).1 = uses.count uuid + 1 ∧
      Counted (countersOf (sessionDeviceRefWork uuid devices).2) (uuid ::ₘ uses) := by
  by_cases used : uuid ∈ uses
  · obtain ⟨front, ref, back, rfl, before⟩ := split_of_counted counted used
    rw [countersOf_split] at counted
    have taken : prefGet ref = ref + 1 := by
      have count := counted.split.1
      exact prefGet_of_locked (signed_of_fits ⟨by omega, by omega⟩)
    rw [sessionDeviceRefWork_present before, taken, countersOf_split]
    have changed := counted.change (Multiset.mem_cons_self uuid uses)
      fun other differ => Multiset.count_cons_of_ne differ uses
    rw [Multiset.count_cons_self, Nat.cast_add, ← counted.split.1] at changed
    exact ⟨congrArg (· + 1) counted.split.1, changed⟩
  · have absent : uuid ∉ uuidsOf devices := by
      rw [← countersOf_keys, counted.listed]
      exact used
    rw [sessionDeviceRefWork_absent short absent, Multiset.count_eq_zero_of_notMem used]
    have added := counted.add (by rw [countersOf_keys]; exact absent)
    rw [countersOf, List.map_append]
    exact ⟨rfl, added⟩

private theorem dref_counted {uses : Multiset Bytes} (few : uses.count uuid < 2 ^ 31)
    (counted : Counted (countersOf devices) uses) (used : uuid ∈ uses) :
    (sessionDeviceDref uuid devices).1 = uses.count uuid - 1 ∧
      Counted (countersOf (sessionDeviceDref uuid devices).2) (uses.erase uuid) := by
  obtain ⟨front, ref, back, rfl, before⟩ := split_of_counted counted used
  rw [countersOf_split] at counted
  obtain ⟨count, positive, _⟩ := counted.split
  have given : prefPut ref = ref - 1 := prefPut_of_locked (signed_of_fits ⟨by omega, by omega⟩)
  rw [sessionDeviceDref_present before, given]
  have left : ((uses.erase uuid).count uuid : Int) = ref - 1 := by
    rw [Multiset.count_erase_self, count]
    omega
  have others : ∀ other ≠ uuid, (uses.erase uuid).count other = uses.count other :=
    fun other differ => Multiset.count_erase_of_ne differ uses
  rw [← count]
  split
  · rename_i last
    have unused : uuid ∉ uses.erase uuid := by
      rw [← Multiset.count_eq_zero]
      omega
    refine ⟨rfl, ?_⟩
    rw [countersOf, List.map_append]
    exact counted.remove unused others
  · rename_i more
    have still : uuid ∈ uses.erase uuid := by
      rw [← Multiset.count_pos]
      omega
    have changed := counted.change still others
    rw [left] at changed
    rw [countersOf_split]
    exact ⟨rfl, changed⟩

end Entries

/-! ### Runs -/

namespace DeviceTable

/-- The entries count the uses that the calls add up to, and no count overflows. -/
def Holds (table : DeviceTable) : Prop :=
  ∃ uses, Counted (countersOf table.devices) uses ∧ (∀ uuid, table.net uuid = uses.count uuid) ∧
    ∀ uuid, table.net uuid < 2 ^ 31

theorem init_holds : init.Holds := by
  have none_ : ∀ uuid, init.net uuid = 0 := fun _ => by simp [net, init]
  refine ⟨0, .nil, fun uuid => none_ uuid, fun uuid => ?_⟩
  rw [none_]
  decide

theorem run_devices (table : DeviceTable) (call : DeviceCall) :
    call.run table.devices = some (match call with
      | .refWork uuid => sessionDeviceRefWork uuid table.devices
      | .dref uuid => sessionDeviceDref uuid table.devices) := by
  cases call with
  | refWork uuid => rfl
  | dref uuid => exact drefLoop_eq uuid table.devices

theorem step_devices (table : DeviceTable) (call : DeviceCall) :
    some (table.step call).devices = (call.run table.devices).map Prod.snd := by
  rw [step, run_devices]
  rfl

theorem step_calls (table : DeviceTable) (call : DeviceCall) : (table.step call).calls =
    table.calls ++ [(call, decide (call.uuid ∈ uuidsOf table.devices))] := by
  have found : (table.devices.any fun entry => decide (entry.deviceUuid = call.uuid)) =
      decide (call.uuid ∈ uuidsOf table.devices) := by
    rw [Bool.eq_iff_iff, List.any_eq_true, decide_eq_true_iff]
    simp [uuidsOf]
  rw [step, found]

theorem net_refWork (table : DeviceTable) (uuid other : Bytes) :
    (table.step (.refWork uuid)).net other =
      table.net other + if uuid = other then 1 else 0 := by
  simp only [net, step_calls, List.countP_append, List.countP_singleton]
  by_cases same : uuid = other <;> simp [same]
  omega

theorem net_dref (table : DeviceTable) (uuid other : Bytes) :
    (table.step (.dref uuid)).net other =
      table.net other - if uuid = other ∧ uuid ∈ uuidsOf table.devices then 1 else 0 := by
  simp only [net, step_calls, List.countP_append, List.countP_singleton, DeviceCall.uuid]
  by_cases same : uuid = other
  · subst same
    by_cases listed : uuid ∈ uuidsOf table.devices
    · simp [listed]
      omega
    · simp [listed]
  · simp [same]

section Steps
variable {table : DeviceTable} {uuid : Bytes}

/-- The uuids of the entries are those with references, and an entry has their number. -/
theorem entry_of_holds (holds : table.Holds) (uuid : Bytes) :
    (uuid ∈ uuidsOf table.devices ↔ table.net uuid ≠ 0) ∧
      ∀ entry ∈ table.devices, entry.ref = table.net entry.deviceUuid := by
  obtain ⟨uses, counted, nets, _⟩ := holds
  have listed := counted.listed uuid
  rw [countersOf_keys] at listed
  refine ⟨?_, fun entry member => ?_⟩
  · rw [listed, nets, ← Multiset.count_pos]
    omega
  · rw [nets]
    exact counted.exact (entry.deviceUuid, entry.ref) (List.mem_map_of_mem member)

/-- What a call of `session_device_ref_work` returns, and that the list still counts. -/
theorem refWork_step (holds : table.Holds) (short : uuid.length ≤ 38)
    (room : table.net uuid + 1 < 2 ^ 31) :
    (table.step (.refWork uuid)).Holds ∧ ∃ devices,
      (DeviceCall.refWork uuid).run table.devices =
        some ((table.step (.refWork uuid)).net uuid, devices) := by
  obtain ⟨uses, counted, nets, few⟩ := holds
  obtain ⟨result, after⟩ := refWork_counted short (by exact_mod_cast nets uuid ▸ room) counted
  have run := table.run_devices (.refWork uuid)
  refine ⟨⟨uuid ::ₘ uses, ?_, fun other => ?_, fun other => ?_⟩,
    (sessionDeviceRefWork uuid table.devices).2, ?_⟩
  · simp only [step, run, Option.map_some, Option.getD_some]
    exact after
  · rw [net_refWork, nets, Multiset.count_cons]
    by_cases same : uuid = other
    · rw [if_pos same, if_pos same.symm]
      rfl
    · rw [if_neg same, if_neg fun other => same other.symm]
      rfl
  · rw [net_refWork]
    by_cases same : uuid = other
    · rw [if_pos same, ← same]
      exact room
    · rw [if_neg same, Int.add_zero]
      exact few other
  · rw [run, net_refWork, if_pos rfl, nets, ← result]

/-- What `session_device_ref_work` returns is a value of `int`. -/
theorem refWork_fits (uuid : Bytes) (devices : List DeviceEntry) :
    Fits 32 (sessionDeviceRefWork uuid devices).1 := by
  induction devices with
  | nil => exact (by decide : Fits 32 1)
  | cons entry rest ih =>
    rw [sessionDeviceRefWork]
    split
    · exact narrow_fits _
    · exact ih

private theorem net_dref_lt (few : ∀ other, table.net other < 2 ^ 31) (other : Bytes) :
    (table.step (.dref uuid)).net other < 2 ^ 31 := by
  have before := few other
  rw [net_dref]
  split <;> omega

private theorem dref_listed {uses : Multiset Bytes} (counted : Counted (countersOf table.devices) uses)
    (nets : ∀ other, table.net other = uses.count other) (few : table.net uuid < 2 ^ 31)
    (used : uuid ∈ uses) :
    Counted (countersOf (table.step (.dref uuid)).devices) (uses.erase uuid) ∧
      (∀ other, (table.step (.dref uuid)).net other = (uses.erase uuid).count other) ∧
      ∃ devices, (DeviceCall.dref uuid).run table.devices =
        some ((table.step (.dref uuid)).net uuid, devices) := by
  have count : uses.count uuid < 2 ^ 31 := by exact_mod_cast nets uuid ▸ few
  obtain ⟨result, after⟩ := dref_counted count counted used
  have positive := Multiset.count_pos.mpr used
  have listed := (counted.listed uuid).mpr used
  rw [countersOf_keys] at listed
  have run := table.run_devices (.dref uuid)
  refine ⟨?_, fun other => ?_, ?_⟩
  · simp only [step, run, Option.map_some, Option.getD_some]
    exact after
  · rw [net_dref, nets]
    by_cases same : uuid = other
    · subst same
      rw [if_pos ⟨rfl, listed⟩, Multiset.count_erase_self]
      omega
    · rw [if_neg fun both => same both.1, Multiset.count_erase_of_ne fun other => same other.symm]
      omega
  · rw [run, net_dref, if_pos ⟨rfl, listed⟩, nets, ← result]
    exact ⟨_, rfl⟩

private theorem dref_absent (absent : uuid ∉ uuidsOf table.devices) :
    (DeviceCall.dref uuid).run table.devices = some (-1, table.devices) ∧
      (table.step (.dref uuid)).devices = table.devices ∧
      ∀ other, (table.step (.dref uuid)).net other = table.net other := by
  have same : (DeviceCall.dref uuid).run table.devices = some (-1, table.devices) := by
    rw [run_devices]
    exact congrArg some (sessionDeviceDref_absent absent)
  refine ⟨same, ?_, fun other => ?_⟩
  · rw [step, same]
    rfl
  · rw [net_dref, if_neg fun both => absent both.2, Int.sub_zero]

/-- What a call of `session_device_dref` returns, and that the list still counts. -/
theorem dref_step (holds : table.Holds) :
    (table.step (.dref uuid)).Holds ∧
      if table.net uuid = 0 then
        (DeviceCall.dref uuid).run table.devices = some (-1, table.devices) ∧
          (table.step (.dref uuid)).net uuid = 0
      else ∃ devices, (DeviceCall.dref uuid).run table.devices =
        some ((table.step (.dref uuid)).net uuid, devices) := by
  obtain ⟨uses, counted, nets, few⟩ := holds
  by_cases used : uuid ∈ uses
  · obtain ⟨after, left, ran⟩ := dref_listed counted nets (few uuid) used
    have some_left : table.net uuid ≠ 0 := by
      rw [nets, Nat.cast_ne_zero]
      exact (Multiset.count_pos.mpr used).ne'
    refine ⟨⟨uses.erase uuid, after, left, net_dref_lt few⟩, ?_⟩
    rw [if_neg some_left]
    exact ran
  · have absent : uuid ∉ uuidsOf table.devices := by
      rw [← countersOf_keys, counted.listed]
      exact used
    obtain ⟨ran, same, unchanged⟩ := dref_absent absent
    have none_left : table.net uuid = 0 := by
      rw [nets, Multiset.count_eq_zero_of_notMem used]
      rfl
    refine ⟨⟨uses, same ▸ counted, fun other => (unchanged other).trans (nets other), net_dref_lt few⟩, ?_⟩
    rw [if_pos none_left]
    exact ⟨ran, (unchanged uuid).trans none_left⟩

theorem step_holds (holds : table.Holds) {call : DeviceCall} (short : call.uuid.length ≤ 38)
    (room : table.Room call) : (table.step call).Holds := by
  cases call with
  | refWork uuid => exact (refWork_step holds short (room uuid rfl)).1
  | dref uuid => exact (dref_step holds).1

theorem sessionDeviceCount_length (devices : List DeviceEntry) :
    sessionDeviceCount devices = devices.length := by
  have counts : ∀ start, devices.foldl (fun cnt _ => cnt + 1) start = start + devices.length := by
    induction devices with
    | nil => exact fun _ => rfl
    | cons entry rest ih =>
      intro start
      rw [List.foldl_cons, ih, List.length_cons]
      omega
  rw [sessionDeviceCount, counts, Nat.zero_add]

theorem exact_of_holds (holds : table.Holds) : table.Exact := by
  obtain ⟨uses, counted, nets, _⟩ := holds
  refine ⟨fun uuid => ?_, fun uuid => ?_, ?_⟩
  · rw [nets]
    exact Int.natCast_nonneg _
  · have unique := counted.unique
    have listed := counted.listed uuid
    rw [countersOf_keys] at unique listed
    have filtered : (table.devices.filter fun entry => decide (entry.deviceUuid = uuid)).length =
        (uuidsOf table.devices).count uuid := by
      rw [uuidsOf, List.count, List.countP_map, List.countP_eq_length_filter]
      simp [Function.comp_def, beq_eq_decide]
    rw [filtered, nets]
    by_cases used : uuid ∈ uses
    · rw [if_pos (by exact_mod_cast Multiset.count_pos.mpr used)]
      exact List.count_eq_one_of_mem unique (listed.mpr used)
    · rw [if_neg (by simp [Multiset.count_eq_zero_of_notMem used])]
      exact List.count_eq_zero_of_not_mem (mt listed.mp used)
  · have size := counted.length
    rw [countersOf, List.length_map] at size
    rw [sessionDeviceCount_length, size]
    simp only [nets, Int.natCast_pos]

private theorem answers_of_holds (holds : table.Holds) {call : DeviceCall}
    (short : call.uuid.length ≤ 38) (room : table.Room call) : table.Answers call := by
  cases call with
  | refWork uuid =>
    refine ⟨fun other same => ?_, fun _ same => (nomatch same), fun other differ => ?_⟩
    · cases same
      exact (refWork_step holds short (room uuid rfl)).2
    · rw [net_refWork, if_neg fun same => differ same.symm, Int.add_zero]
  | dref uuid =>
    refine ⟨fun _ same => (nomatch same), fun other same => ?_, fun other differ => ?_⟩
    · cases same
      exact (dref_step holds).2
    · rw [net_dref, if_neg fun both => differ both.1.symm, Int.sub_zero]

private theorem holds_of_few (calls : List DeviceCall) (short : ∀ call ∈ calls, call.uuid.length ≤ 38)
    (holds : table.Holds)
    (few : ∀ reached ∈ trajectory step table calls, ∀ uuid, reached.net uuid < 2 ^ 31)
    {reached : DeviceTable} (member : reached ∈ trajectory step table calls) : reached.Holds := by
  induction calls generalizing table with
  | nil =>
    rw [List.mem_singleton.mp member]
    exact holds
  | cons call calls ih =>
    rcases List.mem_cons.mp member with rfl | later
    · exact holds
    · have room : table.Room call := by
        rintro uuid rfl
        have next := few _ (List.mem_cons_of_mem _ (mem_trajectory step _ calls)) uuid
        rwa [net_refWork, if_pos rfl] at next
      apply ih (fun other listed => short other (List.mem_cons_of_mem _ listed)) _ _ later
      · exact step_holds holds (short call List.mem_cons_self) room
      · exact fun other listed => few other (List.mem_cons_of_mem _ listed)

end Steps

/-- Every state of a run in which no count overflows is exact, and every call in it answers by it. -/
theorem run_exact (calls : List DeviceCall) (short : ∀ call ∈ calls, call.uuid.length ≤ 38)
    (few : ∀ table ∈ trajectory step init calls, ∀ uuid, table.net uuid < 2 ^ 31) :
    ∀ table ∈ trajectory step init calls, table.Exact ∧
      ∀ call : DeviceCall, call.uuid.length ≤ 38 → table.Room call → table.Answers call := by
  intro table member
  have holds : table.Holds := holds_of_few calls short init_holds few member
  exact ⟨exact_of_holds holds, fun call => answers_of_holds holds⟩

/-- Two uses of a device and one end. -/
private def twiceUsed : List DeviceCall :=
  [.refWork (ascii "d"), .refWork (ascii "d"), .dref (ascii "d")]

/-- The table behind them. -/
private def twice : DeviceTable := twiceUsed.foldl step init

theorem run_exact_twice : twice.Exact ∧ twice.Answers (.dref (ascii "d")) := by
  have few : ∀ table ∈ trajectory step init twiceUsed, ∀ uuid, table.net uuid < 2 ^ 31 := by
    intro table member uuid
    have calls : ∀ table ∈ trajectory step init twiceUsed, table.calls.length ≤ 3 := by decide
    have most := calls table member
    have counted : (table.calls.countP fun call => decide (call.1 = .refWork uuid)) ≤
        table.calls.length := List.countP_le_length
    unfold net
    omega
  have run := run_exact twiceUsed (by decide) few twice (foldl_mem_trajectory step _ _)
  exact ⟨run.1, run.2 _ (by decide) nofun⟩

private theorem refWorks_holds (count : Nat) (few : count < 2 ^ 31) :
    ((List.replicate count (.refWork (ascii "d"))).foldl step init).Holds ∧
      ((List.replicate count (.refWork (ascii "d"))).foldl step init).net (ascii "d") = count := by
  induction count with
  | zero => exact ⟨init_holds, rfl⟩
  | succ count ih =>
    obtain ⟨holds, uses⟩ := ih (by omega)
    rw [List.replicate_succ', List.foldl_append]
    have next := @refWork_step _ (ascii "d") holds (by decide) (by rw [uses]; exact_mod_cast few)
    refine ⟨next.1, ?_⟩
    rw [List.foldl_cons, List.foldl_nil, net_refWork, if_pos rfl, uses]
    rfl

/-- The use number 2^31 returns a negative count. -/
theorem not_run_exact : ¬∀ calls : List DeviceCall, (∀ call ∈ calls, call.uuid.length ≤ 38) →
    ∀ table ∈ trajectory step init calls, table.Exact ∧
      ∀ call : DeviceCall, call.uuid.length ≤ 38 → table.Answers call := by
  intro all
  obtain ⟨⟨uses, counted, nets, _⟩, most⟩ := refWorks_holds (2 ^ 31 - 1) (by decide)
  have short : ∀ call ∈ List.replicate (2 ^ 31 - 1) (DeviceCall.refWork (ascii "d")),
      call.uuid.length ≤ 38 := by
    intro call member
    rw [(List.mem_replicate.mp member).2]
    decide
  have answers := (all _ short _ (foldl_mem_trajectory step _ _)).2 (.refWork (ascii "d")) (by decide)
  obtain ⟨devices, run⟩ := answers.refWork _ rfl
  rw [net_refWork, if_pos rfl, most, run_devices] at run
  rw [nets] at most
  have used : ascii "d" ∈ uses := by
    rw [← Multiset.count_pos]
    omega
  obtain ⟨front, ref, back, split, before⟩ := split_of_counted counted used
  rw [split, countersOf_split] at counted
  have full : ref = 2 ^ 31 - 1 := counted.split.1.trans most
  dsimp only at run
  rw [split, sessionDeviceRefWork_present before, full] at run
  have wrapped : prefGet (2 ^ 31 - 1) = -2 ^ 31 := by decide
  have same : prefGet (2 ^ 31 - 1) = 2 ^ 31 := congrArg Prod.fst (Option.some.inj run)
  rw [wrapped] at same
  exact absurd same (by decide)

end DeviceTable
end Livezure.Service
