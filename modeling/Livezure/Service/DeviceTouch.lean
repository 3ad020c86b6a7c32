import Livezure.Core.Ledger
import Livezure.Service.Prints

/-! `session_device_touch` with its `assert`s and the arrays it obtains. -/
namespace Livezure.Service
open Livezure.Core Common Db

/-- What ends a call before its time. -/
inductive Halt where
  | assertion
  | fault (fault : Fault)
  deriving DecidableEq

/-- `assert`, unless it is compiled out. -/
def assertThat (asserts holds : Bool) : Except Halt Unit :=
  if asserts && !holds then .error .assertion else .ok ()

/-- An array that a query has allocated and filled in. -/
structure Filled (α : Type) where
  block : Nat
  items : List α

/-- What a query gives back: its result, the array or NULL, and the arrays that are out. -/
def fetched {α : Type} (rows : Option (List α)) (ledger : Ledger) :
    Bool × Option (Filled α) × Ledger :=
  match rows with
  | none => (false, none, ledger)
  | some items => (true, some ⟨ledger.next, items⟩, ledger.take)

def countOf {α : Type} (array : Option (Filled α)) : Nat :=
  (array.map fun array => array.items.length).getD 0

def entryAt {α : Type} (array : Option (Filled α)) (index : Nat) (ledger : Ledger) :
    Except Halt α :=
  match array with
  | none => .error (.fault .nullPointer)
  | some array =>
    if array.block ∈ ledger.live then
      match array.items[index]? with
      | none => .error (.fault .outOfBounds)
      | some item => .ok item
    else .error (.fault .useAfterFree)

/-- Both functions that free an array have an `assert` against NULL, and do nothing with it. -/
def freeArray {α : Type} (asserts : Bool) (array : Option (Filled α)) (ledger : Ledger) :
    Except Halt Ledger :=
  match array with
  | none => do
    assertThat asserts false
    return ledger
  | some array => (ledger.give array.block).mapError .fault

def dbAccountListFree (asserts : Bool) (account : Option (Filled AccountBasic)) (ledger : Ledger) :
    Except Halt Ledger :=
  freeArray asserts account ledger

def dbAccountDeviceFree (asserts : Bool) (device : Option (Filled Device)) (ledger : Ledger) :
    Except Halt Ledger :=
  freeArray asserts device ledger

/-- The loop over the devices of an admin, of which it always compares the first one. -/
def touchDevices (device : Option (Filled Device)) (uuid : Bytes) (ledger : Ledger) :
    Nat → Except Halt Bool
  | 0 => .ok false
  | remaining + 1 => do
    let first ← entryAt device 0 ledger
    if first.uuid = uuid then return true
    else touchDevices device uuid ledger remaining

/-- The loop over the admins; true if it has found the device, and has freed both arrays. -/
def touchAdmins (asserts : Bool) (store : Store) (admin : Option (Filled AccountBasic))
    (uuid : Bytes) : (remaining loop : Nat) → Ledger → Except Halt (Bool × Ledger)
  | 0, _, ledger => .ok (false, ledger)
  | remaining + 1, loop, ledger => do
    let account ← entryAt admin loop ledger
    let (r, device, ledger) := fetched (dbAccountDeviceGet store account.uuid none) ledger
    assertThat asserts r
    if ← touchDevices device uuid ledger (countOf device) then
      let ledger ← dbAccountListFree asserts admin ledger
      let ledger ← dbAccountDeviceFree asserts device ledger
      return (true, ledger)
    else
      let ledger ← dbAccountDeviceFree asserts device ledger
      touchAdmins asserts store admin uuid remaining (loop + 1) ledger

/-- The count, and the arrays that are still out. -/
def sessionDeviceTouchAsserted (asserts : Bool) (store : Store) (devices : List DeviceEntry)
    (uuid : Bytes) : Except Halt (Int × Ledger) :=
  match devices.find? fun entry => decide (entry.deviceUuid = uuid) with
  | some entry => .ok (prefCount entry.ref, .empty)
  | none => do
    let (r, admin, ledger) := fetched (dbAccountListAdminGet store none) .empty
    assertThat asserts (r && decide (1 < countOf admin))
    let (found, ledger) ← touchAdmins asserts store admin uuid (countOf admin) 0 ledger
    if found then return (0, ledger)
    else
      let ledger ← dbAccountListFree asserts admin ledger
      assertThat asserts false
      return (-1, ledger)

/-! ### The purpose -/

/-- The uuid is a device of an admin. -/
def IsDevice (store : Store) (uuid : Bytes) : Prop :=
  uuid ∈ store.deviceBasic.keys ∧
    ∃ row ∈ store.accountDevice.rows, row.uuid = uuid ∧ store.IsAdmin row.refAdminUuid

/-- A working device has its count, any other one of an admin 0, and anything else -1. -/
def IsTouchCount (store : Store) (devices : List DeviceEntry) (uuid : Bytes) (count : Int) : Prop :=
  match devices.find? fun entry => decide (entry.deviceUuid = uuid) with
  | some entry => count = entry.ref
  | none => IsDevice store uuid ∧ count = 0 ∨ ¬IsDevice store uuid ∧ count = -1

/-- With and without `assert`, the call ends with that count, and with all arrays freed. -/
def Touches (store : Store) (devices : List DeviceEntry) (uuid : Bytes) : Prop :=
  ∀ asserts, ∃ count ledger, sessionDeviceTouchAsserted asserts store devices uuid = .ok (count, ledger) ∧
    IsTouchCount store devices uuid count ∧ ledger.live = []

def devicesOf (store : Store) (account : AccountBasic) : List Device :=
  (dbAccountDeviceGet store account.uuid none).getD []

def deviceLists (store : Store) : List (List Device) :=
  ((dbAccountListAdminGet store none).getD []).map (devicesOf store)

/-- The device stands first in a list, and no list before is empty. -/
def FoundFirst (uuid : Bytes) : List (List Device) → Prop
  | [] | [] :: _ => False
  | (first :: _) :: rest => first.uuid = uuid ∨ FoundFirst uuid rest

/-! ### The loops -/

/-- What the loops over the admins come to, or nothing if an `assert` fails. -/
def scan (asserts : Bool) (uuid : Bytes) : List (List Device) → Option Bool
  | [] => some false
  | [] :: rest => if asserts then none else scan asserts uuid rest
  | (first :: _) :: rest => if first.uuid = uuid then some true else scan asserts uuid rest

private theorem foundFirst_iff (uuid : Bytes) (lists : List (List Device)) :
    FoundFirst uuid lists ↔ scan true uuid lists = some true := by
  induction lists with
  | nil => simp [FoundFirst, scan]
  | cons list rest ih =>
    cases list with
    | nil => simp [FoundFirst, scan]
    | cons first more =>
      rw [FoundFirst, scan, ih]
      by_cases same : first.uuid = uuid
      · simp [same]
      · simp [same]

theorem scan_release {uuid : Bytes} {lists : List (List Device)}
    (found : scan true uuid lists = some true) : scan false uuid lists = some true := by
  induction lists with
  | nil => cases found
  | cons list rest ih =>
    cases list with
    | nil => cases found
    | cons first more =>
      rw [scan] at found ⊢
      by_cases same : first.uuid = uuid
      · rw [if_pos same]
      · rw [if_neg same] at found ⊢
        exact ih found

def firstIs (uuid : Bytes) (list : List Device) : Bool :=
  list.head?.any fun device => decide (device.uuid = uuid)

/-- Without `assert` the loops look for a list with the device in front. -/
theorem scan_any (uuid : Bytes) (lists : List (List Device)) :
    scan false uuid lists = some (lists.any (firstIs uuid)) := by
  induction lists with
  | nil => rfl
  | cons list rest ih =>
    cases list with
    | nil => exact ih
    | cons first more =>
      have head : firstIs uuid (first :: more) = decide (first.uuid = uuid) := rfl
      rw [scan, List.any_cons, head]
      by_cases same : first.uuid = uuid
      · rw [if_pos same, decide_eq_true same, Bool.true_or]
      · rw [if_neg same, decide_eq_false same, Bool.false_or]
        exact ih

private theorem dbAccountDeviceGet_ne_nil {store : Store} {refAdminUuid : Bytes} {items : List Device}
    (got : dbAccountDeviceGet store refAdminUuid none = some items) : items ≠ [] := by
  unfold dbAccountDeviceGet at got
  dsimp only at got
  split at got
  · cases got
  · rename_i some_
    exact Option.some.inj got ▸ some_

section Loops
variable {ledger : Ledger} {uuid : Bytes}

theorem freeArray_ok {α : Type} (asserts : Bool) (items : List α) {block : Nat} {after : Ledger}
    (given : ledger.give block = .ok after) :
    freeArray asserts (some ⟨block, items⟩) ledger = .ok after := by
  rw [freeArray, given]
  rfl

variable (ledger) in
theorem touchDevices_first {first : Device} {more : List Device} {block : Nat}
    (out : block ∈ ledger.live) (remaining : Nat) :
    touchDevices (some ⟨block, first :: more⟩) uuid ledger (remaining + 1) =
      .ok (decide (first.uuid = uuid)) := by
  have read : entryAt (some ⟨block, first :: more⟩) 0 ledger = .ok first := by
    simp [entryAt, out]
  induction remaining with
  | zero =>
    rw [touchDevices, read]
    by_cases same : first.uuid = uuid <;> simp [same, touchDevices, bind, Except.bind, pure, Except.pure]
  | succ remaining ih =>
    rw [touchDevices, read]
    by_cases same : first.uuid = uuid
    · simp [same, bind, Except.bind, pure, Except.pure]
    · simp only [bind, Except.bind, if_neg same]
      exact ih

variable (uuid) in
/-- The loop over the admins follows the lists of their devices. -/
theorem touchAdmins_scan (asserts : Bool) (store : Store) {block : Nat}
    {accounts : List AccountBasic} (remaining loop : Nat) (out : block ∈ ledger.live)
    (bound : loop + remaining = accounts.length) :
    match scan asserts uuid ((accounts.drop loop).map (devicesOf store)) with
    | none => touchAdmins asserts store (some ⟨block, accounts⟩) uuid remaining loop ledger =
        .error .assertion
    | some found => ∃ after,
        touchAdmins asserts store (some ⟨block, accounts⟩) uuid remaining loop ledger =
          .ok (found, after) ∧
        after.live = if found then ledger.live.erase block else ledger.live := by
  induction remaining generalizing loop ledger with
  | zero =>
    rw [List.drop_of_length_le (by omega)]
    exact ⟨ledger, rfl, rfl⟩
  | succ remaining ih =>
    have inside : loop < accounts.length := by omega
    have read : entryAt (some ⟨block, accounts⟩) loop ledger = .ok accounts[loop] := by
      simp [entryAt, out, inside]
    rw [List.drop_eq_getElem_cons inside, List.map_cons, touchAdmins, read]
    simp only [bind, Except.bind]
    cases got : dbAccountDeviceGet store accounts[loop].uuid none with
    | none =>
      have empty : devicesOf store accounts[loop] = [] := by rw [devicesOf, got]; rfl
      rw [empty, scan]
      cases asserts with
      | true => rfl
      | false => exact ih (loop + 1) out (by omega)
    | some items =>
      have listed : devicesOf store accounts[loop] = items := by rw [devicesOf, got]; rfl
      obtain ⟨first, more, rfl⟩ := List.exists_cons_of_ne_nil (dbAccountDeviceGet_ne_nil got)
      have asserted : assertThat asserts true = .ok () := by simp [assertThat]
      rw [listed, scan]
      simp only [fetched, asserted, countOf, Option.map_some, Option.getD_some, List.length_cons]
      rw [touchDevices_first ledger.take List.mem_cons_self]
      by_cases same : first.uuid = uuid
      · obtain ⟨middle, after, one, two, left⟩ := ledger.give_both out
        rw [if_pos same]
        refine ⟨after, ?_, left⟩
        simp only [decide_eq_true same, if_true, dbAccountListFree, dbAccountDeviceFree,
          freeArray_ok asserts accounts one, freeArray_ok asserts (first :: more) two, pure, Except.pure]
      · obtain ⟨after, one, left⟩ := ledger.give_take
        rw [if_neg same]
        have later := ih (loop + 1) (left.symm ▸ out) (by omega)
        simp only [decide_eq_false same, Bool.false_eq_true, if_false, dbAccountDeviceFree,
          freeArray_ok asserts (first :: more) one]
        rw [← left]
        exact later

end Loops

/-! ### The call -/

section Touch
variable (store : Store) {devices : List DeviceEntry} {uuid : Bytes}

private theorem touch_idle (asserts : Bool)
    (idle : devices.find? (fun entry => decide (entry.deviceUuid = uuid)) = none) :
    if asserts && !decide (1 < (deviceLists store).length) then
      sessionDeviceTouchAsserted asserts store devices uuid = .error .assertion
    else
      match scan asserts uuid (deviceLists store) with
      | some true => ∃ ledger,
          sessionDeviceTouchAsserted asserts store devices uuid = .ok (0, ledger) ∧ ledger.live = []
      | some false =>
        if asserts then sessionDeviceTouchAsserted asserts store devices uuid = .error .assertion
        else ∃ ledger, sessionDeviceTouchAsserted asserts store devices uuid = .ok (-1, ledger)
      | none => sessionDeviceTouchAsserted asserts store devices uuid = .error .assertion := by
  unfold deviceLists
  cases got : dbAccountListAdminGet store none with
  | none =>
    have run : sessionDeviceTouchAsserted asserts store devices uuid = (do
        assertThat asserts false
        assertThat asserts false
        assertThat asserts false
        return (-1, .empty)) := by
      rw [sessionDeviceTouchAsserted, idle, got]
      cases asserts <;> rfl
    rw [run]
    cases asserts with
    | true => rfl
    | false => exact ⟨_, rfl⟩
  | some accounts =>
    have run : sessionDeviceTouchAsserted asserts store devices uuid = (do
        assertThat asserts (decide (1 < accounts.length))
        let (found, ledger) ←
          touchAdmins asserts store (some ⟨0, accounts⟩) uuid accounts.length 0 Ledger.empty.take
        if found then return (0, ledger)
        else
          let ledger ← dbAccountListFree asserts (some ⟨0, accounts⟩) ledger
          assertThat asserts false
          return (-1, ledger)) := by
      rw [sessionDeviceTouchAsserted, idle, got]
      rfl
    have out : 0 ∈ Ledger.empty.take.live := List.mem_cons_self
    have scanned := touchAdmins_scan uuid asserts store accounts.length 0 out
      (Nat.zero_add accounts.length)
    rw [List.drop_zero] at scanned
    rw [run, Option.getD_some, List.length_map]
    split
    · rename_i fails
      rw [assertThat, if_pos fails]
      rfl
    · rename_i passes
      rw [assertThat, if_neg passes]
      cases found : scan asserts uuid (accounts.map (devicesOf store)) with
      | none =>
        rw [found] at scanned
        dsimp only at scanned ⊢
        rw [scanned]
        rfl
      | some hit =>
        rw [found] at scanned
        obtain ⟨after, looped, left⟩ := scanned
        cases hit with
        | true =>
          refine ⟨after, ?_, left⟩
          simp only [bind, Except.bind, looped, if_true, pure, Except.pure]
        | false =>
          have held : 0 ∈ after.live := by
            rw [left]
            exact out
          obtain ⟨ended, freed, _⟩ := after.give_ok held
          simp only [bind, Except.bind, looped, Bool.false_eq_true, if_false, dbAccountListFree,
            freeArray_ok asserts accounts freed]
          cases asserts with
          | true => rfl
          | false => exact ⟨ended, rfl⟩

/-- The device works, or is the first one of one of at least two admins, with a device of every admin
before; before and first is what the queries come to before and first. -/
def Touchable (store : Store) (devices : List DeviceEntry) (uuid : Bytes) : Prop :=
  (∃ entry ∈ devices, entry.deviceUuid = uuid) ∨
    IsDevice store uuid ∧ 1 < (deviceLists store).length ∧ FoundFirst uuid (deviceLists store)

private theorem touches_iff_touchable (store : Store) (devices : List DeviceEntry) (uuid : Bytes) :
    Touches store devices uuid ↔ Touchable store devices uuid := by
  unfold Touchable
  cases working : devices.find? fun entry => decide (entry.deviceUuid = uuid) with
  | some entry =>
    have member := List.mem_of_find?_eq_some working
    have same := of_decide_eq_true (List.find?_some working :)
    refine iff_of_true (fun asserts => ⟨prefCount entry.ref, .empty, ?_, ?_, rfl⟩) (.inl ⟨entry, member, same⟩)
    · rw [sessionDeviceTouchAsserted, working]
    · rw [IsTouchCount, working]
      rfl
  | none =>
    have idle : ¬∃ entry ∈ devices, entry.deviceUuid = uuid := by
      rintro ⟨entry, member, same⟩
      exact List.find?_eq_none.mp working entry member (decide_eq_true same)
    rw [or_iff_right idle, foundFirst_iff]
    constructor
    · intro touches
      obtain ⟨count, ledger, run, right, _⟩ := touches true
      have done := touch_idle store true working
      rw [run] at done
      rw [IsTouchCount, working] at right
      split at done
      · cases done
      · rename_i passes
        split at done
        · rename_i found
          obtain ⟨_, same, _⟩ := done
          obtain ⟨rfl, _⟩ := Prod.mk.inj (Except.ok.inj same)
          have isDevice := (right.resolve_right fun other => by cases other.2).1
          exact ⟨isDevice, by simpa using passes, found⟩
        · cases done
        · cases done
    · rintro ⟨isDevice, several, found⟩ asserts
      have done := touch_idle store asserts working
      have scanned : scan asserts uuid (deviceLists store) = some true := by
        cases asserts with
        | true => exact found
        | false => exact scan_release found
      rw [if_neg (by simp [several]), scanned] at done
      obtain ⟨ledger, run, freed⟩ := done
      refine ⟨0, ledger, run, ?_, freed⟩
      rw [IsTouchCount, working]
      exact .inl ⟨isDevice, rfl⟩

/-- Without `assert` the call answers as `sessionDeviceTouch` has it. -/
theorem sessionDeviceTouchAsserted_release (devices : List DeviceEntry) (uuid : Bytes) :
    ∃ ledger, sessionDeviceTouchAsserted false store devices uuid =
      .ok (sessionDeviceTouch store devices uuid, ledger) := by
  rw [sessionDeviceTouch]
  cases working : devices.find? fun entry => decide (entry.deviceUuid = uuid) with
  | some entry =>
    refine ⟨.empty, ?_⟩
    rw [sessionDeviceTouchAsserted, working]
  | none =>
    have done := touch_idle store false working
    rw [Bool.false_and, if_neg Bool.false_ne_true, scan_any, deviceLists, List.any_map] at done
    have same : (firstIs uuid ∘ devicesOf store) = fun admin =>
        (dbAccountDeviceGet store admin.uuid none).any fun devices =>
          devices.head?.any fun device => decide (device.uuid = uuid) := by
      funext admin
      rw [Function.comp_apply, devicesOf]
      cases dbAccountDeviceGet store admin.uuid none <;> rfl
    rw [same] at done
    dsimp only
    split
    · rename_i found
      rw [found] at done
      obtain ⟨ledger, run, _⟩ := done
      exact ⟨ledger, run⟩
    · rename_i found
      rw [Bool.of_not_eq_true found] at done
      exact done

end Touch

/-- By statements that mean it, the call ends as it should exactly for these devices, in whatever
order the queries come to their rows. -/
theorem touches_iff (store : Store) (devices : List DeviceEntry) (uuid : Bytes)
    (plain : AllPlain (touchPrints ⟨store, [], devices⟩ uuid)) :
    AllDenote (touchPrints ⟨store, [], devices⟩ uuid) ∧
      (Touches store devices uuid ↔ Touchable store devices uuid) :=
  ⟨allDenote_iff.mpr plain, touches_iff_touchable store devices uuid⟩

/-- An admin with a device. -/
private def singleAdmin : Store :=
  (dbAccountDeviceAdd (dbAccountAdminAdd .init id ⟨[50], [], []⟩ ⟨ascii "a", [], [], []⟩).2
    ⟨[50], [], []⟩ (ascii "a") ⟨ascii "d", [], [], 1, [], [], 1, [], 0, 0, [], [], [], true, []⟩).2

/-- The same with a second device. -/
private def twoDevices : Store :=
  (dbAccountDeviceAdd singleAdmin ⟨[50], [], []⟩ (ascii "a")
    ⟨ascii "e", [], [], 2, [], [], 2, [], 0, 0, [], [], [], true, []⟩).2

/-- The admins `b` and `a`, which the query gives by their uuids; `a` has a device. -/
private def sortedAdmins : Store :=
  { (dbAccountDeviceAdd
      (dbAccountAdminAdd
        (dbAccountAdminAdd .init id ⟨[50], [], []⟩ ⟨ascii "b", [], [], []⟩).2 id ⟨[50], [], []⟩
          ⟨ascii "a", [], [], []⟩).2
      ⟨[50], [], []⟩ (ascii "a") ⟨ascii "d", [], [], 1, [], [], 1, [], 0, 0, [], [], [], true, []⟩).2 with
    order := ⟨[ascii "a", ascii "b"], [], []⟩ }

theorem touches_sorted : Touches sortedAdmins [] (ascii "d") := by
  have isDevice : IsDevice sortedAdmins (ascii "d") :=
    ⟨by decide, ⟨ascii "d", ascii "a", [], [], true, [], [50]⟩, by decide, rfl, by decide, by decide⟩
  exact (touches_iff sortedAdmins [] (ascii "d") (by decide +kernel)).2.mpr
    (.inr ⟨isDevice, by decide, .inl rfl⟩)

/-- With a single admin an `assert` fails; without it, the second device does not exist. -/
theorem not_touches :
    (sessionDeviceTouchAsserted true singleAdmin [] (ascii "d")).map Prod.fst = .error .assertion ∧
      (sessionDeviceTouchAsserted false twoDevices [] (ascii "e")).map Prod.fst = .ok (-1) ∧
      IsDevice twoDevices (ascii "e") ∧ ¬Touches singleAdmin [] (ascii "d") ∧
      ¬Touches twoDevices [] (ascii "e") := by
  have failed :
      (sessionDeviceTouchAsserted true singleAdmin [] (ascii "d")).map Prod.fst = .error .assertion := by
    decide
  have missed : (sessionDeviceTouchAsserted false twoDevices [] (ascii "e")).map Prod.fst = .ok (-1) := by
    decide
  have isDevice : IsDevice twoDevices (ascii "e") :=
    ⟨by decide, ⟨ascii "e", ascii "a", [], [], true, [], [50]⟩, by decide, rfl, by decide, by decide⟩
  refine ⟨failed, missed, isDevice, fun touches => ?_, fun touches => ?_⟩
  · obtain ⟨_, _, run, _⟩ := touches true
    rw [run] at failed
    cases failed
  · obtain ⟨count, ledger, run, right, _⟩ := touches false
    rw [run] at missed
    have minus : count = -1 := Except.ok.inj missed
    rcases right with ⟨_, zero⟩ | ⟨none_, _⟩
    · omega
    · exact none_ isDevice

end Livezure.Service
