import Mathlib.Data.List.ReduceOption
import Livezure.Core.Transition
import Livezure.Db.Account

/-! The functions that count rows in one section of the connection's lock and fetch them in
a second one, with writes of other threads before, between and behind the sections. -/
namespace Livezure.Db
open Livezure.Core

/-- A call with a pointer for the records. -/
inductive FetchCall where
  | listAdmin (specifiedUuid : Option Bytes)
  | listChild (refAdminUuid : Bytes) (specifiedUuid : Option Bytes)
  | device (refAdminUuid : Bytes) (specifiedUuid : Option Bytes)

/-- What a call returns: `*account` or `*device` is NULL or an array of pointers. -/
structure Fetched (Record : Type) where
  r : Bool
  array : Option (List (Option Record))
  count : Nat

inductive FetchPhase (Record : Type) where
  | counting
  /-- Before the second section, with the number of rows of the first one. -/
  | fetching (retCnt : Nat)
  | returned (result : Fetched Record)

/-- The loop over the rows of the second section. -/
def fetchRows {Row Record : Type} (fetched : Row → Record) (array : List (Option Record))
    (index : Nat) : List Row → Except Fault (List (Option Record))
  | [] => .ok array
  | row :: rows =>
    if index < array.length then
      fetchRows fetched (array.set index (some (fetched row))) (index + 1) rows
    else .error .outOfBounds

namespace FetchCall

def Row : FetchCall → Type
  | .listAdmin _ | .listChild _ _ => AccountBasic
  | .device _ _ => DeviceBasic × AccountDevice

def Record : FetchCall → Type
  | .listAdmin _ | .listChild _ _ => AccountBasic
  | .device _ _ => Device

/-- The rows of the statement in `sqlbuf`. -/
def query : (call : FetchCall) → Store → List call.Row
  | .listAdmin specifiedUuid, store =>
    store.basic.selectIn store.order.admins fun row =>
      decide (row.uuid ∈ store.admin.keys) && match specifiedUuid with
      | none => true
      | some uuid => decide (row.uuid = uuid)
  | .listChild refAdminUuid specifiedUuid, store =>
    let children := store.child.select fun row => decide (row.refAdminUuid = refAdminUuid) &&
      match specifiedUuid with
      | none => true
      | some uuid => decide (row.uuid = uuid)
    store.basic.selectIn store.order.children fun row =>
      decide (row.uuid ∈ children.map AccountChild.uuid)
  | .device refAdminUuid specifiedUuid, store =>
    (store.deviceBasic.scan store.order.devices).flatMap fun basic =>
      (store.accountDevice.select fun row =>
        ownsDevice refAdminUuid specifiedUuid row && decide (row.uuid = basic.uuid)).map
          fun row => (basic, row)

/-- The record as the `strncpy`s leave it. -/
def fetched : (call : FetchCall) → call.Row → call.Record
  | .listAdmin _ => AccountBasic.fetched
  | .listChild _ _ => AccountBasic.fetched
  | .device _ _ => fun row => fetchDevice row.1 row.2

variable (call : FetchCall)

def lockSection (tables : Store) : FetchPhase call.Record → Except Fault (FetchPhase call.Record)
  | .counting =>
    if call.query tables = [] then .ok (.returned ⟨false, none, 0⟩)
    else .ok (.fetching (call.query tables).length)
  | .fetching retCnt => do
    let array ← fetchRows call.fetched (List.replicate retCnt none) 0 (call.query tables)
    return .returned ⟨true, some array, retCnt⟩
  | .returned result => .ok (.returned result)

end FetchCall

/-- A call and the tables, with the states that the tables had before. -/
structure FetchState (call : FetchCall) where
  tables : Store
  earlier : List Store
  phase : Except Fault (FetchPhase call.Record)

inductive FetchAction where
  | lockSection
  | write (tables : Store)

namespace FetchState

def start (call : FetchCall) (tables : Store) : FetchState call := ⟨tables, [], .ok .counting⟩

variable {call : FetchCall}

def step (state : FetchState call) : FetchAction → FetchState call
  | .lockSection => { state with phase := state.phase.bind (call.lockSection state.tables) }
  | .write tables => { state with tables, earlier := state.tables :: state.earlier }

/-- No entry behind the array is written, the count is that of the entries that are not NULL, and
the records are those of one state of the tables. -/
def Sound (state : FetchState call) : Prop :=
  match state.phase with
  | .error _ => False
  | .ok (.returned result) =>
    result.count = (result.array.getD []).reduceOption.length ∧
      ∃ tables ∈ state.tables :: state.earlier,
        (result.array.getD []).reduceOption = (call.query tables).map call.fetched
  | .ok _ => True

/-- The second section finds as many rows as the first one. -/
def Agrees (state : FetchState call) : FetchAction → Prop
  | .lockSection => ∀ retCnt, state.phase = .ok (.fetching retCnt) →
      (call.query state.tables).length = retCnt
  | .write _ => True

end FetchState

/-! ### The loop -/

/-- The rows fill the array from the front; a row behind its end is out of bounds. -/
theorem fetchRows_fill {Row Record : Type} (fetched : Row → Record) (rows : List Row)
    (front : List (Option Record)) (room : Nat) :
    fetchRows fetched (front ++ List.replicate room none) front.length rows =
      if rows.length ≤ room then
        .ok (front ++ rows.map (fun row => some (fetched row)) ++
          List.replicate (room - rows.length) none)
      else .error .outOfBounds := by
  induction rows generalizing front room with
  | nil => simp [fetchRows]
  | cons row rows ih =>
    cases room with
    | zero => simp [fetchRows]
    | succ room =>
      have later := ih (front ++ [some (fetched row)]) room
      have inside : front.length < (front ++ List.replicate (room + 1) none).length := by simp
      rw [List.length_append, List.length_singleton] at later
      rw [fetchRows, if_pos inside, List.set_append_right _ _ (Nat.le_refl _), Nat.sub_self,
        List.replicate_succ, List.set_cons_zero, List.append_cons, later]
      simp only [List.length_cons, Nat.add_le_add_iff_right, List.map_cons, List.append_assoc,
        Nat.add_sub_add_right, List.cons_append, List.nil_append]

private theorem reduceOption_filled {Row Record : Type} (fetched : Row → Record) (rows : List Row)
    (rest : Nat) : (rows.map (fun row => some (fetched row)) ++
      List.replicate rest none).reduceOption = rows.map fetched := by
  rw [List.reduceOption_append, List.reduceOption_replicate_none, List.append_nil]
  induction rows with
  | nil => rfl
  | cons row rows ih =>
    rw [List.map_cons, List.map_cons, List.reduceOption_cons_of_some, ih]

section Sections
variable {call : FetchCall}

theorem FetchCall.lockSection_fetching (tables : Store) (retCnt : Nat) :
    call.lockSection tables (.fetching retCnt) =
      if (call.query tables).length ≤ retCnt then
        .ok (.returned ⟨true, some ((call.query tables).map (fun row => some (call.fetched row)) ++
          List.replicate (retCnt - (call.query tables).length) none), retCnt⟩)
      else .error .outOfBounds := by
  have filled := fetchRows_fill call.fetched (call.query tables) [] retCnt
  simp only [List.nil_append, List.length_nil] at filled
  rw [FetchCall.lockSection, filled]
  split <;> rfl

/-- A fetch is sound exactly if its section finds the rows that were counted. -/
theorem FetchState.fetching_sound_iff (tables : Store) (earlier : List Store) (retCnt : Nat) :
    (⟨tables, earlier, call.lockSection tables (.fetching retCnt)⟩ : FetchState call).Sound ↔
      (call.query tables).length = retCnt := by
  rw [FetchCall.lockSection_fetching]
  split
  · simp only [FetchState.Sound, Option.getD_some, reduceOption_filled, List.length_map]
    constructor
    · rintro ⟨count, _⟩
      exact count.symm
    · intro same
      exact ⟨same.symm, tables, List.mem_cons_self, rfl⟩
  · rename_i more
    exact iff_of_false id fun same => more (Nat.le_of_eq same)

theorem FetchState.write_sound (state : FetchState call) (sound : state.Sound) (tables : Store) :
    (state.step (.write tables)).Sound := by
  obtain ⟨before, earlier, phase⟩ := state
  cases phase with
  | error fault => exact sound
  | ok phase =>
    cases phase with
    | returned result =>
      obtain ⟨count, one, member, same⟩ := sound
      exact ⟨count, one, List.mem_cons_of_mem _ member, same⟩
    | counting => trivial
    | fetching retCnt => trivial

theorem FetchState.step_sound_iff (state : FetchState call) (action : FetchAction)
    (sound : state.Sound) : (state.step action).Sound ↔ state.Agrees action := by
  cases action with
  | write tables => exact iff_of_true (state.write_sound sound tables) trivial
  | lockSection =>
    obtain ⟨tables, earlier, phase⟩ := state
    cases phase with
    | error fault => exact absurd sound id
    | ok phase =>
      cases phase with
      | counting =>
        apply iff_of_true
        · simp only [FetchState.step, Except.bind, FetchCall.lockSection]
          split
          · rename_i none
            refine ⟨rfl, tables, List.mem_cons_self, ?_⟩
            rw [none]
            rfl
          · trivial
        · intro retCnt same
          cases same
      | fetching retCnt =>
        apply (FetchState.fetching_sound_iff tables earlier retCnt).trans
        constructor
        · intro same other current
          cases current
          exact same
        · intro agrees
          exact agrees retCnt rfl
      | returned result =>
        apply iff_of_true sound
        intro retCnt same
        cases same

/-- The states of a run are sound exactly if its second section agrees with its first one. -/
theorem fetch_sound_iff (call : FetchCall) (tables : Store) (actions : List FetchAction) :
    (∀ state ∈ trajectory FetchState.step (FetchState.start call tables) actions, state.Sound) ↔
      AllSteps FetchState.step FetchState.Agrees (FetchState.start call tables) actions :=
  trajectory_iff FetchState.step FetchState.step_sound_iff
    (show (FetchState.start call tables).Sound from trivial) actions

/-- Any write between the sections that changes the number of rows. -/
theorem FetchState.not_sound_of_write {first second : Store} (some : call.query first ≠ [])
    (differ : (call.query second).length ≠ (call.query first).length) :
    ¬ ∀ state ∈ trajectory FetchState.step (FetchState.start call first)
      [.lockSection, .write second, .lockSection], state.Sound := by
  intro all
  have counted : call.lockSection first .counting = .ok (.fetching (call.query first).length) := by
    rw [FetchCall.lockSection, if_neg some]
  have last := all _ (.tail _ (.tail _ (.tail _ (.head _))))
  simp only [FetchState.start, FetchState.step, Except.bind, counted] at last
  exact differ ((FetchState.fetching_sound_iff second [first] _).mp last)

/-- A child is added between the sections: its row is written behind the array. -/
theorem not_sound_added :
    let ambient : Ambient := ⟨[50], [], []⟩
    let child (store : Store) (uuid : Bytes) : Store :=
      (dbAccountChildAdd store id ambient (ascii "adm") ⟨uuid, [], [], []⟩).2
    let one := child (dbAccountAdminAdd .init id ambient ⟨ascii "adm", [], [], []⟩).2 (ascii "kid")
    ¬ ∀ state ∈ trajectory FetchState.step
      (FetchState.start (.listChild (ascii "adm") none) one)
      [.lockSection, .write (child one (ascii "new")), .lockSection], state.Sound := by
  intro ambient child one all
  exact FetchState.not_sound_of_write (by decide) (by decide) all

end Sections

/-! ### A call alone -/

/-- The functions of the store, which take both sections at once. -/
def FetchCall.read : (call : FetchCall) → Store → Option (List call.Record)
  | .listAdmin specifiedUuid, store => dbAccountListAdminGet store specifiedUuid
  | .listChild refAdminUuid specifiedUuid, store =>
    dbAccountListChildGet store refAdminUuid specifiedUuid
  | .device refAdminUuid specifiedUuid, store => dbAccountDeviceGet store refAdminUuid specifiedUuid

theorem FetchCall.read_eq (call : FetchCall) (tables : Store) : call.read tables =
    if call.query tables = [] then none else some ((call.query tables).map call.fetched) := by
  cases call with
  | listAdmin specifiedUuid => rfl
  | listChild refAdminUuid specifiedUuid => rfl
  | device refAdminUuid specifiedUuid =>
    have joined : ((FetchCall.device refAdminUuid specifiedUuid).query tables).map
        (FetchCall.device refAdminUuid specifiedUuid).fetched =
          (tables.deviceBasic.scan tables.order.devices).flatMap fun basic =>
            (tables.accountDevice.select fun row => ownsDevice refAdminUuid specifiedUuid row &&
              decide (row.uuid = basic.uuid)).map (fetchDevice basic) := by
      change ((tables.deviceBasic.scan _).flatMap fun basic => (tables.accountDevice.select fun row =>
        ownsDevice refAdminUuid specifiedUuid row && decide (row.uuid = basic.uuid)).map
          fun row => (basic, row)).map (fun pair => fetchDevice pair.1 pair.2) = _
      rw [List.map_flatMap]
      simp only [List.map_map]
      rfl
    rw [FetchCall.read, dbAccountDeviceGet, ← joined]
    by_cases none : (FetchCall.device refAdminUuid specifiedUuid).query tables = []
    · rw [if_pos none, none]
      rfl
    · rw [if_neg none]
      exact if_neg fun nothing => none (List.map_eq_nil_iff.mp nothing)

/-- Without a write in between, the sections return what the store has. -/
theorem FetchCall.sections_alone (call : FetchCall) (tables : Store) :
    (call.lockSection tables .counting).bind (call.lockSection tables) =
      .ok (.returned ⟨(call.read tables).isSome, (call.read tables).map (·.map some),
        ((call.read tables).getD []).length⟩) := by
  rw [FetchCall.read_eq]
  by_cases none : call.query tables = []
  · simp only [FetchCall.lockSection, if_pos none, Except.bind]
    rfl
  · have counted : call.lockSection tables .counting = .ok (.fetching (call.query tables).length) := by
      rw [FetchCall.lockSection, if_neg none]
    rw [counted, if_neg none, Except.bind, FetchCall.lockSection_fetching, if_pos (Nat.le_refl _)]
    simp

end Livezure.Db
