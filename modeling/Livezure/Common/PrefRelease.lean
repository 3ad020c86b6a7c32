import Livezure.Core.Memory
import Livezure.Core.Transition

/-! `pref_release` against the last calls of `pref_put`: the test of the count, the lock, the wait
and the unlock are steps of their own, and so are those of a put under the lock. -/
namespace Livezure.Common
open Livezure.Core

inductive PutPhase where
  | locked
  | counted
  | signalled
  deriving DecidableEq

/-- Where `pref_release` stands. -/
inductive ReleasePhase where
  | testing
  /-- Before the lock; the test has found a reference. -/
  | locking
  /-- Before `pthread_cond_wait`, with the lock. -/
  | parting
  | waiting
  /-- In `pthread_cond_wait`, on its way back to the lock. -/
  | woken
  | unlocking
  | freed
  deriving DecidableEq

namespace ReleasePhase

def hasLock : ReleasePhase → Bool
  | .parting | .unlocking => true
  | _ => false

/-- `pthread_cond_signal(&ref->cond)`, and the waits that end without one. -/
def signalled : ReleasePhase → ReleasePhase
  | .waiting => .woken
  | phase => phase

end ReleasePhase

structure ReleaseRun where
  refcount : Nat
  put : Option PutPhase
  release : ReleasePhase
  fault : Option Fault
  deriving DecidableEq

inductive ReleaseAction where
  | put
  | putOn
  | releaseOn
  | wake
  deriving DecidableEq

namespace ReleaseRun

def putOn (run : ReleaseRun) : Option ReleaseRun :=
  run.put.map fun phase =>
    if run.release = .freed then { run with fault := some .useAfterFree }
    else
      match phase with
      | .locked => { run with refcount := run.refcount - 1, put := some .counted }
      | .counted => { run with put := some .signalled, release := run.release.signalled }
      | .signalled => { run with put := none }

def releaseOn (run : ReleaseRun) : Option ReleaseRun :=
  match run.release with
  | .testing => some { run with release := if run.refcount ≠ 0 then .locking else .freed }
  | .locking => if run.put = none then some { run with release := .parting } else none
  | .parting => some { run with release := .waiting }
  | .waiting => none
  | .woken => if run.put = none then some { run with release := .unlocking } else none
  | .unlocking => some { run with release := .testing }
  | .freed => none

/-- A put takes the lock for a reference that is left. -/
def next (run : ReleaseRun) (action : ReleaseAction) : Option ReleaseRun :=
  if run.fault.isSome then none
  else
    match action with
    | .put =>
      if 0 < run.refcount ∧ run.put = none ∧ run.release.hasLock = false then
        some { run with put := some .locked }
      else none
    | .putOn => run.putOn
    | .releaseOn => run.releaseOn
    | .wake => if run.release = .waiting then some { run with release := .woken } else none

/-- `pref_release` starts at any point of a put, and there is no get from then on. -/
def system : System ReleaseRun ReleaseAction where
  Start run := ∃ refcount put, (put = some .locked → 0 < refcount) ∧
    run = ⟨refcount, put, .testing, none⟩
  next := next

/-- Nobody waits for a signal that has been given, and the object is there as long as a put uses
its mutex and its condition. -/
structure Sound (run : ReleaseRun) : Prop where
  safe : run.fault = none
  awake : run.release = .waiting → run.refcount = 0 → run.put = some .counted
  last : run.release = .freed → run.refcount = 0 ∧ run.put = none

/-- The last reference is not given back between the test of `pref_release` and its lock, and the
test does not find it gone before that put has unlocked. -/
def Guard (run : ReleaseRun) : ReleaseAction → Prop
  | .putOn => run.put = some .locked → run.refcount = 1 → run.release ≠ .locking
  | .releaseOn => run.release = .testing → run.refcount = 0 → run.put = none
  | _ => True

instance (run : ReleaseRun) (action : ReleaseAction) : Decidable (run.Guard action) := by
  unfold Guard
  split <;> infer_instance

/-! ### The runs -/

variable {run after : ReleaseRun}

structure Holds (run : ReleaseRun) : Prop where
  sound : run.Sound
  owned : run.put = some .locked → 0 < run.refcount
  alone : run.release.hasLock = true → run.put = none
  left : run.release = .locking ∨ run.release = .parting → 0 < run.refcount

theorem Holds.putOn (holds : run.Holds) (met : run.Guard .putOn) (step : run.putOn = some after) :
    after.Holds := by
  obtain ⟨phase, inside, rfl⟩ := Option.map_eq_some_iff.mp step
  have there : run.release ≠ .freed := by
    intro freed
    rw [(holds.sound.last freed).2] at inside
    cases inside
  have unlocked : run.release.hasLock = false := by
    rw [Bool.eq_false_iff]
    intro locked
    rw [holds.alone locked] at inside
    cases inside
  rw [if_neg there]
  cases phase with
  | locked =>
    refine ⟨⟨holds.sound.safe, fun _ _ => rfl, fun freed => absurd freed there⟩, nofun, ?_, ?_⟩
    · exact fun locked => absurd (unlocked ▸ locked) Bool.false_ne_true
    · rintro (locking | parting)
      · have more : run.refcount ≠ 1 := fun one => met inside one locking
        have some_ := holds.owned inside
        dsimp only
        omega
      · dsimp only at parting
        rw [parting] at unlocked
        cases unlocked
  | counted =>
    have same : run.release ≠ .waiting → run.release.signalled = run.release := by
      cases run.release <;> first | exact fun _ => rfl | exact fun other => absurd rfl other
    by_cases waiting : run.release = .waiting
    · rw [waiting]
      exact ⟨⟨holds.sound.safe, nofun, nofun⟩, nofun, nofun, fun early => nomatch early⟩
    · rw [same waiting]
      refine ⟨⟨holds.sound.safe, fun again => absurd again waiting, fun freed => absurd freed there⟩,
        nofun, ?_, holds.left⟩
      exact fun locked => absurd (unlocked ▸ locked) Bool.false_ne_true
  | signalled =>
    refine ⟨⟨holds.sound.safe, fun waiting zero => ?_, fun freed => absurd freed there⟩, nofun,
      fun _ => rfl, holds.left⟩
    have counted := holds.sound.awake waiting zero
    rw [inside] at counted
    cases counted

theorem Holds.releaseOn (holds : run.Holds) (met : run.Guard .releaseOn)
    (step : run.releaseOn = some after) : after.Holds := by
  have safe := holds.sound.safe
  unfold ReleaseRun.releaseOn at step
  cases phase : run.release with
  | testing =>
    rw [phase] at step
    obtain rfl := Option.some.inj step
    by_cases zero : run.refcount = 0
    · have done := met phase zero
      rw [if_neg (not_not.mpr zero)]
      refine ⟨⟨safe, nofun, fun _ => ⟨zero, done⟩⟩, holds.owned, nofun, fun early => nomatch early⟩
    · rw [if_pos zero]
      exact ⟨⟨safe, nofun, nofun⟩, holds.owned, nofun, fun _ => Nat.pos_of_ne_zero zero⟩
  | locking =>
    have left := holds.left (.inl phase)
    rw [phase] at step
    dsimp only at step
    split at step
    · rename_i free_
      obtain rfl := Option.some.inj step
      exact ⟨⟨safe, nofun, nofun⟩, holds.owned, fun _ => free_, fun _ => left⟩
    · cases step
  | parting =>
    have left := holds.left (.inr phase)
    rw [phase] at step
    obtain rfl := Option.some.inj step
    refine ⟨⟨safe, fun _ zero => ?_, nofun⟩, holds.owned, nofun, fun early => nomatch early⟩
    exact absurd zero (Nat.ne_of_gt left)
  | waiting =>
    rw [phase] at step
    cases step
  | woken =>
    rw [phase] at step
    dsimp only at step
    split at step
    · rename_i free_
      obtain rfl := Option.some.inj step
      exact ⟨⟨safe, nofun, nofun⟩, holds.owned, fun _ => free_, fun early => nomatch early⟩
    · cases step
  | unlocking =>
    rw [phase] at step
    obtain rfl := Option.some.inj step
    exact ⟨⟨safe, nofun, nofun⟩, holds.owned, nofun, fun early => nomatch early⟩
  | freed =>
    rw [phase] at step
    cases step

theorem Holds.step {action : ReleaseAction} (holds : run.Holds) (met : run.Guard action)
    (step : next run action = some after) : after.Holds := by
  have running : ¬run.fault.isSome = true := by
    rw [holds.sound.safe]
    exact Bool.false_ne_true
  unfold next at step
  rw [if_neg running] at step
  cases action with
  | put =>
    dsimp only at step
    split at step
    · rename_i enters
      obtain ⟨some_, none_, unlocked⟩ := enters
      obtain rfl := Option.some.inj step
      refine ⟨⟨holds.sound.safe, fun _ zero => ?_, fun freed => ?_⟩, fun _ => some_, ?_, holds.left⟩
      · exact absurd zero (Nat.ne_of_gt some_)
      · exact absurd (holds.sound.last freed).1 (Nat.ne_of_gt some_)
      · exact fun locked => absurd (unlocked ▸ locked) Bool.false_ne_true
    · cases step
  | putOn => exact holds.putOn met step
  | releaseOn => exact holds.releaseOn met step
  | wake =>
    dsimp only at step
    split at step
    · obtain rfl := Option.some.inj step
      exact ⟨⟨holds.sound.safe, nofun, nofun⟩, holds.owned, nofun, fun early => nomatch early⟩
    · cases step

theorem start_holds (started : system.Start run) : run.Holds := by
  obtain ⟨refcount, put, owned, rfl⟩ := started
  exact ⟨⟨rfl, nofun, nofun⟩, owned, nofun, fun early => nomatch early⟩

/-- In a run whose steps all meet the condition `pref_release` hears of the last put, and frees
the object behind it. -/
theorem released_of_guard (run : ReleaseRun) (reached : system.Reachable Guard run) : run.Sound :=
  (reached.invariant Holds (fun _ => start_holds) fun _ _ _ holds => holds.step).sound

private def oneLeft : ReleaseRun := ⟨1, none, .testing, none⟩

private theorem oneLeft_start : system.Start oneLeft := ⟨1, none, nofun, rfl⟩

private theorem awaited_run : system.run oneLeft [.releaseOn, .releaseOn, .releaseOn, .put, .putOn,
    .putOn, .putOn, .releaseOn, .releaseOn, .releaseOn] = some ⟨0, none, .freed, none⟩ := by
  decide

theorem released_awaited : (⟨0, none, .freed, none⟩ : ReleaseRun).Sound :=
  released_of_guard _ ((System.Reachable.start oneLeft_start).run (by decide) awaited_run)

/-- The last put comes and goes between the test and the lock. -/
private def lateWait : List ReleaseAction :=
  [.releaseOn, .put, .putOn, .putOn, .putOn, .releaseOn, .releaseOn]

private def earlyFree : List ReleaseAction := [.put, .putOn, .releaseOn, .putOn]

theorem not_released : system.Start oneLeft ∧
    (∃ run, system.run oneLeft lateWait = some run ∧ run = ⟨0, none, .waiting, none⟩ ∧ ¬run.Sound) ∧
    ∃ run, system.run oneLeft earlyFree = some run ∧ run.fault = some .useAfterFree ∧
      ¬run.Sound := by
  refine ⟨oneLeft_start, ⟨_, rfl, rfl, fun sound => ?_⟩, ⟨_, rfl, rfl, fun sound => ?_⟩⟩
  · cases sound.awake rfl rfl
  · cases sound.safe

end ReleaseRun
end Livezure.Common
