import Mathlib.Data.List.Basic

/-! Transition systems: what holds in every state that guarded steps reach. -/
namespace Livezure.Core

/-- The states a run may start in, and what an action does where it is enabled. -/
structure System (State Action : Type) where
  Start : State → Prop
  next : State → Action → Option State

namespace System
variable {State Action : Type} (system : System State Action)

/-- The states reached by steps that meet a condition on the state before and the action. -/
inductive Reachable (guard : State → Action → Prop) : State → Prop where
  | start {state : State} : system.Start state → Reachable guard state
  | step {before after : State} {action : Action} :
      Reachable guard before → guard before action → system.next before action = some after →
      Reachable guard after

def Free : State → Action → Prop := fun _ _ => True

variable {system}

/-- The invariant rule. -/
theorem Reachable.invariant {guard : State → Action → Prop} (holds : State → Prop)
    (start : ∀ state, system.Start state → holds state)
    (kept : ∀ before action after, holds before → guard before action →
      system.next before action = some after → holds after)
    {state : State} (reached : system.Reachable guard state) : holds state := by
  induction reached with
  | start started => exact start _ started
  | step _ met step ih => exact kept _ _ _ ih met step

def run (system : System State Action) : State → List Action → Option State
  | state, [] => some state
  | state, action :: actions => (system.next state action).bind (run system · actions)

theorem run_cons {before middle after : State} {action : Action} {actions : List Action}
    (step : system.next before action = some middle) (later : system.run middle actions = some after) :
    system.run before (action :: actions) = some after :=
  Option.bind_eq_some_iff.mpr ⟨middle, step, later⟩

theorem run_one {before after : State} {action : Action}
    (step : system.next before action = some after) : system.run before [action] = some after :=
  run_cons step rfl

/-- Every action of a run meets a condition in the state it is taken in. -/
def Guarded (system : System State Action) (guard : State → Action → Prop) :
    State → List Action → Prop
  | _, [] => True
  | state, action :: actions =>
    guard state action ∧ ∀ next ∈ system.next state action, Guarded system guard next actions

instance decidableGuarded (guard : State → Action → Prop) [∀ state action, Decidable (guard state action)] :
    (actions : List Action) → (state : State) → Decidable (system.Guarded guard state actions)
  | [], _ => .isTrue trivial
  | action :: actions, state =>
    have (next : State) : Decidable (system.Guarded guard next actions) :=
      decidableGuarded guard actions next
    inferInstanceAs (Decidable (guard state action ∧ ∀ next ∈ system.next state action,
      system.Guarded guard next actions))

theorem guarded_free (state : State) (actions : List Action) :
    system.Guarded Free state actions := by
  induction actions generalizing state with
  | nil => trivial
  | cons action actions ih => exact ⟨trivial, fun next _ => ih next⟩

/-- Conditions that say the same of each action of a run say the same of the run. -/
theorem guarded_congr {left right : State → Action → Prop} {actions : List Action}
    (same : ∀ state, ∀ action ∈ actions, (left state action ↔ right state action)) (state : State) :
    system.Guarded left state actions ↔ system.Guarded right state actions := by
  induction actions generalizing state with
  | nil => exact Iff.rfl
  | cons action actions ih =>
    have later := ih fun state other listed => same state other (List.mem_cons_of_mem _ listed)
    apply and_congr (same state action List.mem_cons_self)
    exact forall_congr' fun next => forall_congr' fun _ => later next

/-- Where an invariant of the state and the actions to come makes two conditions say the same
of the next action, and good steps keep it, they say the same of the run. -/
theorem guarded_iff {good guard : State → Action → Prop} (holds : State → List Action → Prop)
    (same : ∀ state action rest, holds state (action :: rest) →
      (good state action ↔ guard state action))
    (kept : ∀ state action rest next, holds state (action :: rest) → good state action →
      system.next state action = some next → holds next rest)
    {actions : List Action} {state : State} (start : holds state actions) :
    system.Guarded good state actions ↔ system.Guarded guard state actions := by
  induction actions generalizing state with
  | nil => exact Iff.rfl
  | cons action actions ih =>
    constructor
    · rintro ⟨now, later⟩
      refine ⟨(same state action actions start).mp now, fun next step => ?_⟩
      exact (ih (kept state action actions next start now step)).mp (later next step)
    · rintro ⟨now, later⟩
      have done := (same state action actions start).mpr now
      refine ⟨done, fun next step => ?_⟩
      exact (ih (kept state action actions next start done step)).mpr (later next step)

/-- A guarded run ends in a state that guarded steps reach. -/
theorem Reachable.run {guard : State → Action → Prop} {before after : State}
    {actions : List Action} (reached : system.Reachable guard before)
    (met : system.Guarded guard before actions) (done : system.run before actions = some after) :
    system.Reachable guard after := by
  induction actions generalizing before with
  | nil =>
    rw [System.run, Option.some.injEq] at done
    exact done ▸ reached
  | cons action actions ih =>
    obtain ⟨middle, first, rest⟩ := Option.bind_eq_some_iff.mp done
    exact ih (.step reached met.1 first) (met.2 middle first) rest

/-- The simulation rule: steps that are seen as the steps of another system make runs that are seen as
its runs. -/
theorem run_view {Seen : Type} {seen : System Seen Action} {guard : State → Action → Prop}
    (view : State → Seen) (holds : State → Prop)
    (kept : ∀ before action after, holds before → guard before action →
      system.next before action = some after → holds after)
    (same : ∀ before action, holds before → guard before action →
      (system.next before action).map view = seen.next (view before) action)
    {before : State} {actions : List Action} (start : holds before)
    (met : system.Guarded guard before actions) :
    (system.run before actions).map view = seen.run (view before) actions := by
  induction actions generalizing before with
  | nil => rfl
  | cons action actions ih =>
    have step := same before action start met.1
    rw [System.run, System.run, ← step]
    cases next : system.next before action with
    | none => rfl
    | some middle => exact ih (kept _ _ _ start met.1 next) (met.2 middle next)

/-- A run whose steps keep a promise exactly where a condition is met, and never restore it, keeps
it exactly where all its steps meet the condition. -/
theorem run_iff {good holds : State → Prop} {guard : State → Action → Prop}
    (kept : ∀ before action after, holds before → system.next before action = some after →
      holds after)
    (exact_step : ∀ before action after, holds before → good before →
      system.next before action = some after → (good after ↔ guard before action))
    (lost : ∀ before action after, holds before → system.next before action = some after →
      good after → good before)
    {before after : State} {actions : List Action} (start : holds before) (sound : good before)
    (done : system.run before actions = some after) :
    good after ↔ system.Guarded guard before actions := by
  have back {before : State} {actions : List Action} (start : holds before)
      (done : system.run before actions = some after) (late : good after) : good before := by
    induction actions generalizing before with
    | nil =>
      rw [System.run, Option.some.injEq] at done
      exact done ▸ late
    | cons action actions ih =>
      obtain ⟨middle, first, rest⟩ := Option.bind_eq_some_iff.mp done
      exact lost _ _ _ start first (ih (kept _ _ _ start first) rest)
  induction actions generalizing before with
  | nil =>
    rw [System.run, Option.some.injEq] at done
    exact iff_of_true (done ▸ sound) trivial
  | cons action actions ih =>
    obtain ⟨middle, first, rest⟩ := Option.bind_eq_some_iff.mp done
    have next := kept _ _ _ start first
    have same := exact_step _ _ _ start sound first
    constructor
    · intro late
      have early := back next rest late
      refine ⟨same.mp early, fun other step => ?_⟩
      obtain rfl := Option.some.inj (first.symm.trans step)
      exact (ih next early rest).mp late
    · rintro ⟨met, later⟩
      exact (ih next (same.mpr met) rest).mpr (later middle first)

section Ranked
variable {guard : State → Action → Prop} {rank : State → Nat} (holds : State → Prop)
  (lowers : ∀ before action after, holds before → guard before action →
    system.next before action = some after → holds after ∧ rank after < rank before)
include lowers

/-- Steps that lower a rank come to an end. -/
theorem run_length {before after : State} {actions : List Action} (start : holds before)
    (met : system.Guarded guard before actions) (done : system.run before actions = some after) :
    actions.length ≤ rank before := by
  induction actions generalizing before with
  | nil => exact Nat.zero_le _
  | cons action actions ih =>
    obtain ⟨middle, first, rest⟩ := Option.bind_eq_some_iff.mp done
    obtain ⟨kept, lower⟩ := lowers before action middle start met.1 first
    have fewer := ih kept (met.2 middle first) rest
    rw [List.length_cons]
    omega

/-- An action whose steps lower a rank can be repeated until it is no longer enabled. -/
theorem run_rest {action : Action} (met : ∀ state, holds state → guard state action) {before : State}
    (start : holds before) :
    ∃ count last, system.run before (List.replicate count action) = some last ∧ holds last ∧
      system.next last action = none := by
  induction less : rank before using Nat.strongRecOn generalizing before with
  | _ _ ih =>
    cases step : system.next before action with
    | none => exact ⟨0, before, rfl, start, step⟩
    | some middle =>
      obtain ⟨kept, lower⟩ := lowers before action middle start (met before start) step
      obtain ⟨count, last, ran, held, rests⟩ := ih (rank middle) (less ▸ lower) kept rfl
      exact ⟨count + 1, last, run_cons step ran, held, rests⟩

end Ranked

end System

section Trajectory
variable {State Action : Type} (step : State → Action → State)

/-- The states a list of actions goes through, the first one included. -/
def trajectory : State → List Action → List State
  | state, [] => [state]
  | state, action :: actions => state :: trajectory (step state action) actions

def AllSteps (guard : State → Action → Prop) : State → List Action → Prop
  | _, [] => True
  | state, action :: actions =>
    guard state action ∧ AllSteps guard (step state action) actions

theorem mem_trajectory (state : State) (actions : List Action) :
    state ∈ trajectory step state actions := by
  cases actions with
  | nil => exact List.mem_singleton_self state
  | cons action actions => exact List.mem_cons_self

/-- The state that a run comes to. -/
theorem foldl_mem_trajectory (actions : List Action) (state : State) :
    actions.foldl step state ∈ trajectory step state actions := by
  induction actions generalizing state with
  | nil => exact List.mem_singleton_self state
  | cons action actions ih => exact List.mem_cons_of_mem _ (ih (step state action))

/-- Conditions that say the same where an invariant holds say the same of whole runs, if one of them
keeps the invariant. -/
theorem allSteps_iff (holds : State → Prop) {left right : State → Action → Prop}
    (kept : ∀ state action, holds state → left state action → holds (step state action))
    (same : ∀ state action, holds state → (left state action ↔ right state action))
    {state : State} (start : holds state) (actions : List Action) :
    AllSteps step left state actions ↔ AllSteps step right state actions := by
  induction actions generalizing state with
  | nil => exact Iff.rfl
  | cons action actions ih =>
    rw [AllSteps, AllSteps, ← same state action start, and_congr_right_iff]
    intro met
    exact ih (kept state action start met)

/-- If a condition says exactly when one step keeps the invariant, it says so of whole runs. -/
theorem trajectory_iff {holds : State → Prop} {guard : State → Action → Prop}
    (exact_step : ∀ state action, holds state → (holds (step state action) ↔ guard state action))
    {state : State} (start : holds state) (actions : List Action) :
    (∀ reached ∈ trajectory step state actions, holds reached) ↔
      AllSteps step guard state actions := by
  induction actions generalizing state with
  | nil => simpa [trajectory, AllSteps] using start
  | cons action actions ih =>
    rw [trajectory, List.forall_mem_cons, AllSteps]
    constructor
    · rintro ⟨_, later⟩
      have next : holds (step state action) := by
        apply later
        cases actions <;> simp [trajectory]
      exact ⟨(exact_step state action start).mp next, (ih next).mp later⟩
    · rintro ⟨met, later⟩
      have next := (exact_step state action start).mpr met
      exact ⟨start, (ih next).mpr later⟩

end Trajectory
end Livezure.Core
