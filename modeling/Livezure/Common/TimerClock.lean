import Livezure.Common.TimerDeletion

/-! When timers fire, against the clock. -/
namespace Livezure.Common
open Livezure.Core

/-- The elapsed time in whole milliseconds, as a value of `int`. -/
theorem myTimerSub_eq {now last : Nat} (order : last ≤ now) :
    myTimerSub now last = narrow 32 ((now - last) / 1000 : Nat) := by
  unfold myTimerSub
  dsimp only
  congr 1
  split <;> omega

namespace Timer

/-- A timer has counted down what has passed between its last firing and a time in a window, up
to a millisecond for every step. -/
structure Counted (low high : Int) (timer : Timer) : Prop where
  fits : Fits 32 timer.milliseconds
  positive : 0 ≤ timer.remaining
  fewer : timer.remaining ≤ timer.milliseconds
  low : timer.since + 1000 * (timer.milliseconds - timer.remaining) ≤ low
  high : 0 < timer.remaining →
    high ≤ timer.since + 1000 * (timer.milliseconds - timer.remaining) + 1000 * timer.rounds

section Counted
variable {timer : Timer} {low high : Int}

theorem Counted.mark (counted : timer.Counted low high) (id : Nat) :
    (timer.mark id).Counted low high := by
  constructor
  · rw [mark_milliseconds]
    exact counted.fits
  · rw [mark_remaining]
    exact counted.positive
  · rw [mark_remaining, mark_milliseconds]
    exact counted.fewer
  · rw [mark_since, mark_remaining, mark_milliseconds]
    exact counted.low
  · rw [mark_since, mark_remaining, mark_milliseconds, mark_rounds]
    exact counted.high

private theorem counted_full (full : timer.remaining = timer.milliseconds) (fits : Fits 32 timer.milliseconds)
    (positive : 0 < timer.milliseconds) (before : timer.since ≤ low) (after : high ≤ timer.since) :
    timer.Counted low high := by
  refine ⟨fits, ?_, le_of_eq full, ?_, fun _ => ?_⟩
  · omega
  · omega
  · omega

/-- A countdown by the time that has passed. -/
theorem Counted.synchronize {elapsed clock : Int}
    (counted : timer.Counted (clock - 1000 * elapsed) (clock - 1000 * elapsed - 999))
    (some_ : 0 < timer.remaining) (forward : 0 ≤ elapsed) (fits : Fits 32 elapsed) :
    (timer.synchronize elapsed).Counted clock clock := by
  have range := counted.fits
  have fewer := counted.fewer
  have low := counted.low
  have high := counted.high some_
  have left : narrow 32 (timer.remaining - elapsed) = timer.remaining - elapsed := by
    apply narrow_of_fits _ (by decide)
    have bound := range.2
    have size := fits.2
    constructor
    · omega
    · omega
  have remaining : (timer.synchronize elapsed).remaining =
      if timer.remaining - elapsed < 0 then 0 else timer.remaining - elapsed := by
    rw [Timer.synchronize, left]
    exact if_neg (ne_of_gt some_)
  have rounds : ((timer.synchronize elapsed).rounds : Int) = timer.rounds + 1 := rfl
  have milliseconds : (timer.synchronize elapsed).milliseconds = timer.milliseconds := rfl
  have since : (timer.synchronize elapsed).since = timer.since := rfl
  refine ⟨range, ?_, ?_, ?_, ?_⟩
  · rw [remaining]
    split <;> omega
  · rw [remaining, milliseconds]
    split <;> omega
  · rw [remaining, milliseconds, since]
    split <;> omega
  · rw [remaining, milliseconds, since, rounds]
    split <;> omega

end Counted
end Timer

namespace TimerRun

/-- The records outside of a step, or that its loop has come past. -/
def settled (run : TimerRun) : List Timer :=
  match run.phase with
  | .idle | .waiting _ => run.timers.all
  | .firing | .calling => run.timers.passed ++ run.timers.late
  | _ => []

def called (run : TimerRun) : List Timer :=
  match run.phase with
  | .calling => run.timers.ahead.head?.toList
  | _ => []

/-- The time up to which the settled records are counted down. -/
def base (run : TimerRun) : Nat :=
  match run.phase with
  | .waiting now => now
  | _ => run.clock

def isWaiting (run : TimerRun) : Bool :=
  match run.phase with
  | .waiting _ => true
  | _ => false

/-- No timer has fired too early, and between two steps none is left that should have fired. -/
structure Timely (run : TimerRun) : Prop where
  early : ∀ timer (clock : Nat), .fired timer clock ∈ run.events → 0 < timer.milliseconds →
    (timer.since + 1000 * timer.milliseconds : Int) ≤ clock
  late : run.phase = .idle ∨ run.isWaiting = true → ∀ timer ∈ run.timers.all,
    0 < timer.milliseconds → timer.bSignAsDeleted = false →
    run.woken < timer.since + 1000 * timer.milliseconds + 1000 * timer.rounds

/-- Time passes in waits only, each of which takes less than 2 to the 31 milliseconds; a timer
that is created in a wait or behind it is not counted down by what has passed before. -/
def ClockGuard (run : TimerRun) : TimerAction → Prop
  | .pass micros => run.isWaiting = true ∨ micros = 0
  | .create _ _ =>
    match run.phase with
    | .waiting now => now = run.clock
    | .syncing elapsed => run.timers.ahead.length ≤ 1 ∨ elapsed = 0
    | _ => True
  | .wake =>
    match run.phase with
    | .waiting now => Fits 32 ((run.clock - now) / 1000 : Nat)
    | _ => True
  | _ => True

instance (run : TimerRun) (action : TimerAction) : Decidable (run.ClockGuard action) := by
  unfold ClockGuard
  split
  · infer_instance
  · split <;> infer_instance
  · split <;> infer_instance
  · infer_instance

/-- The window of the records that `timer_synchronize` still comes to. -/
def Window (run : TimerRun) (timer : Timer) : Prop :=
  ∀ elapsed, run.phase = .syncing elapsed →
    timer.Counted (run.clock - 1000 * elapsed) (run.clock - 1000 * elapsed - 999)

structure Paced (run : TimerRun) : Prop where
  settled : ∀ timer ∈ run.settled, 0 < timer.milliseconds → timer.bSignAsDeleted = false →
    timer.Counted run.base run.base ∧ 0 < timer.remaining
  awaiting : ∀ timer ∈ run.awaiting, 0 < timer.milliseconds → timer.Counted run.clock run.clock
  pending : ∀ timer ∈ run.pending, 0 < timer.milliseconds → timer.bSignAsDeleted = false →
    run.Window timer ∧ 0 < timer.remaining
  called : ∀ timer ∈ run.called, timer.since = run.clock ∧ timer.rounds = 0 ∧
    (0 < timer.milliseconds → Fits 32 timer.milliseconds)
  elapsed : ∀ elapsed, run.phase = .syncing elapsed → 0 ≤ elapsed ∧ Fits 32 elapsed
  woken : run.woken ≤ run.base
  forward : run.base ≤ run.clock
  early : ∀ timer (clock : Nat), .fired timer clock ∈ run.events → 0 < timer.milliseconds →
    (timer.since + 1000 * timer.milliseconds : Int) ≤ clock

section Steps
variable {run : TimerRun}

/-- Between two steps what a timer has left is more than nothing. -/
theorem Paced.timely (paced : run.Paced) : run.Timely where
  early := paced.early
  late outside timer on positive unmarked := by
    have settled : run.settled = run.timers.all := by
      unfold TimerRun.settled
      unfold isWaiting at outside
      split
      · rfl
      · rfl
      all_goals simp_all
    obtain ⟨counted, left⟩ := paced.settled timer (settled ▸ on) positive unmarked
    have high := counted.high left
    have woken := paced.woken
    omega

private theorem new_paced (clock : Nat) : (new clock).Paced where
  settled := nofun
  awaiting := nofun
  pending := nofun
  called := nofun
  elapsed := nofun
  woken := Nat.le_refl _
  forward := Nat.le_refl _
  early := nofun

theorem Paced.pass (paced : run.Paced) {micros : Nat} (met : run.ClockGuard (.pass micros)) :
    ({ run with clock := run.clock + micros } : TimerRun).Paced := by
  rcases met with waiting | rfl
  · obtain ⟨timers, created, clock, timerStopSign, phase, walks, freed, events, doomed, woken, fault⟩ := run
    cases phase with
    | waiting now =>
      refine ⟨paced.settled, nofun, nofun, nofun, nofun, paced.woken, ?_, paced.early⟩
      exact Nat.le_trans paced.forward (Nat.le_add_right _ _)
    | _ => cases waiting
  · exact paced

theorem Paced.tick (paced : run.Paced) (idle : run.phase = .idle) :
    ({ run with phase := .waiting run.clock } : TimerRun).Paced := by
  obtain ⟨timers, created, clock, timerStopSign, phase, walks, freed, events, doomed, woken, fault⟩ := run
  obtain rfl : phase = .idle := idle
  exact ⟨paced.settled, nofun, nofun, nofun, nofun, paced.woken, Nat.le_refl _, paced.early⟩

/-- A wait ends: what it has taken is to be counted down. -/
theorem Paced.woke (paced : run.Paced) {now : Nat} (waiting : run.phase = .waiting now)
    (fits : Fits 32 ((run.clock - now) / 1000 : Nat)) : (run.woke now).Paced := by
  obtain ⟨timers, created, clock, timerStopSign, phase, walks, freed, events, doomed, woken, fault⟩ := run
  obtain rfl : phase = .waiting now := waiting
  have forward : now ≤ clock := paced.forward
  have elapsed : myTimerSub clock now = ((clock - now) / 1000 : Nat) := by
    rw [myTimerSub_eq forward]
    exact narrow_of_fits fits (by decide)
  refine ⟨nofun, ?_, ?_, nofun, ?_, Nat.le_refl _, Nat.le_refl _, paced.early⟩
  · exact nofun
  · intro timer on positive unmarked
    obtain ⟨counted, left⟩ := paced.settled timer on positive unmarked
    refine ⟨fun other same => ?_, left⟩
    obtain rfl := TimerPhase.syncing.inj same
    have low := counted.low
    have high := counted.high
    rw [TimerRun.woke]
    dsimp only [base] at low high ⊢
    rw [elapsed]
    refine ⟨counted.fits, counted.positive, counted.fewer, ?_, fun some_ => ?_⟩
    · omega
    · have high := high some_
      omega
  · intro other same
    obtain rfl := TimerPhase.syncing.inj same
    dsimp only
    rw [elapsed]
    exact ⟨Int.natCast_nonneg _, fits⟩

theorem Paced.synced (paced : run.Paced) {elapsed : Int} (syncing : run.phase = .syncing elapsed) :
    (run.synced elapsed).Paced := by
  obtain ⟨⟨passed, ahead, late⟩, created, clock, timerStopSign, phase, walks, freed, events, doomed, woken,
    fault⟩ := run
  obtain rfl : phase = .syncing elapsed := syncing
  obtain ⟨forward, fits⟩ := paced.elapsed elapsed rfl
  unfold TimerRun.synced
  cases ahead with
  | nil =>
    dsimp only
    split
    · split
      · exact ⟨nofun, nofun, nofun, nofun, nofun, paced.woken, Nat.le_refl _, paced.early⟩
      · exact ⟨nofun, nofun, nofun, nofun, nofun, paced.woken, Nat.le_refl _, paced.early⟩
    · refine ⟨nofun, fun timer on => ?_, nofun, nofun, nofun, paced.woken, Nat.le_refl _, paced.early⟩
      apply paced.awaiting timer
      change timer ∈ passed ++ [] ++ late at on
      rw [List.append_nil] at on
      exact on
  | cons timer rest =>
    dsimp only
    split
    · exact ⟨nofun, paced.awaiting, fun other on => paced.pending other (List.mem_cons_of_mem _ on), nofun,
        paced.elapsed, paced.woken, Nat.le_refl _, paced.early⟩
    · rename_i stays
      rw [Bool.or_eq_true, not_or, Bool.not_eq_true] at stays
      refine ⟨nofun, fun other on positive => ?_,
        fun other on => paced.pending other (List.mem_cons_of_mem _ on), nofun, paced.elapsed, paced.woken,
        Nat.le_refl _, paced.early⟩
      change other ∈ passed ++ timer.synchronize elapsed :: [] ++ late at on
      rcases CursorList.mem_around.mp on with rfl | beside
      · obtain ⟨window, left⟩ := paced.pending timer List.mem_cons_self positive stays.1
        exact (window elapsed rfl).synchronize left forward fits
      · rw [List.append_nil] at beside
        exact paced.awaiting other beside positive

theorem Paced.fired (paced : run.Paced) (firing : run.phase = .firing) : run.fired.Paced := by
  obtain ⟨⟨passed, ahead, late⟩, created, clock, timerStopSign, phase, walks, freed, events, doomed, woken,
    fault⟩ := run
  obtain rfl : phase = .firing := firing
  unfold TimerRun.fired
  cases ahead with
  | nil =>
    refine ⟨fun timer on => ?_, nofun, nofun, nofun, nofun, paced.woken, Nat.le_refl _, paced.early⟩
    apply paced.settled timer
    change timer ∈ [] ++ (passed ++ [] ++ late) ++ [] at on
    rw [List.nil_append, List.append_nil, List.append_nil] at on
    exact on
  | cons timer rest =>
    have counted := paced.awaiting timer List.mem_cons_self
    dsimp only
    split
    · rename_i due
      refine ⟨paced.settled, fun other on => paced.awaiting other (List.mem_cons_of_mem _ on), nofun,
        fun other on => ?_, nofun, paced.woken, Nat.le_refl _, fun other at_ member positive => ?_⟩
      · rw [List.mem_singleton.mp on]
        exact ⟨rfl, rfl, fun positive => (counted positive).fits⟩
      · rcases List.mem_append.mp member with old | new
        · exact paced.early other at_ old positive
        · obtain ⟨rfl, rfl⟩ := TimerEvent.fired.inj (List.mem_singleton.mp new)
          have low := (counted positive).low
          rw [due] at low
          dsimp only at low
          omega
    · rename_i left
      refine ⟨fun other on positive unmarked => ?_,
        fun other on => paced.awaiting other (List.mem_cons_of_mem _ on), nofun, nofun, nofun, paced.woken,
        Nat.le_refl _, paced.early⟩
      change other ∈ passed ++ timer :: [] ++ late at on
      rcases CursorList.mem_around.mp on with rfl | beside
      · have full := counted positive
        exact ⟨full, lt_of_le_of_ne full.positive (Ne.symm left)⟩
      · rw [List.append_nil] at beside
        exact paced.settled other beside positive unmarked

theorem Paced.returned (paced : run.Paced) (calling : run.phase = .calling) {timer : Timer}
    {rest : List Timer} (ahead_ : run.timers.ahead = timer :: rest) (bAbortClock : Bool) :
    (run.returned timer bAbortClock).Paced := by
  obtain ⟨⟨passed, ahead, late⟩, created, clock, timerStopSign, phase, walks, freed, events, doomed, woken,
    fault⟩ := run
  obtain rfl : phase = .calling := calling
  obtain rfl : ahead = timer :: rest := ahead_
  obtain ⟨since, rounds, fits⟩ := paced.called timer (List.mem_singleton_self _)
  unfold TimerRun.returned
  split
  · refine ⟨fun other on positive unmarked => ?_, paced.awaiting, nofun, nofun, nofun, paced.woken,
      Nat.le_refl _, fun other at_ member => ?_⟩
    · change other ∈ passed ++ _ :: [] ++ late at on
      rcases CursorList.mem_around.mp on with rfl | beside
      · cases unmarked
      · rw [List.append_nil] at beside
        exact paced.settled other beside positive unmarked
    · rcases List.mem_append.mp member with old | new
      · exact paced.early other at_ old
      · cases List.mem_singleton.mp new
  · refine ⟨fun other on positive unmarked => ?_, paced.awaiting, nofun, nofun, nofun, paced.woken,
      Nat.le_refl _, paced.early⟩
    change other ∈ passed ++ _ :: [] ++ late at on
    rcases CursorList.mem_around.mp on with rfl | beside
    · have now : ((timer.since : Nat) : Int) = (clock : Int) := congrArg Nat.cast since
      exact ⟨Timer.counted_full rfl (fits positive) positive (le_of_eq now) (le_of_eq now.symm), positive⟩
    · rw [List.append_nil] at beside
      exact paced.settled other beside positive unmarked

section Create
variable {milliseconds : Int} {bAutoDelete : Bool} {timer : Timer}

private theorem mem_settled_create (member : timer ∈ (run.create milliseconds bAutoDelete).settled) :
    timer ∈ run.settled ∨ timer = run.newest milliseconds bAutoDelete := by
  unfold settled at member ⊢
  cases phase : run.phase with
  | idle =>
    simp only [TimerRun.create, phase, CursorList.all_append] at member ⊢
    exact (List.mem_append.mp member).imp_right List.mem_singleton.mp
  | waiting now =>
    simp only [TimerRun.create, phase, CursorList.all_append] at member ⊢
    exact (List.mem_append.mp member).imp_right List.mem_singleton.mp
  | firing =>
    simp only [TimerRun.create, phase] at member ⊢
    exact CursorList.mem_append_behind member
  | calling =>
    simp only [TimerRun.create, phase] at member ⊢
    exact CursorList.mem_append_behind member
  | syncing elapsed => simp [TimerRun.create, phase] at member
  | ended => simp [TimerRun.create, phase] at member
  | aborted => simp [TimerRun.create, phase] at member

theorem called_create : (run.create milliseconds bAutoDelete).called = run.called := by
  unfold called
  simp only [TimerRun.create, CursorList.head_append]

/-- A timer is created behind what the others are counted down to. -/
theorem base_eq (met : run.ClockGuard (.create milliseconds bAutoDelete)) : run.base = run.clock := by
  unfold base
  cases phase : run.phase with
  | waiting now =>
    rw [ClockGuard, phase] at met
    exact met
  | _ => rfl

theorem Paced.create (paced : run.Paced) (fits : Fits 32 milliseconds)
    (met : run.ClockGuard (.create milliseconds bAutoDelete)) :
    (run.create milliseconds bAutoDelete).Paced := by
  have full {low high : Int} (positive : 0 < milliseconds) (before : run.clock ≤ low)
      (after : high ≤ run.clock) : (run.newest milliseconds bAutoDelete).Counted low high :=
    Timer.counted_full rfl fits positive before after
  refine ⟨fun timer on positive unmarked => ?_, fun timer on positive => ?_,
    fun timer on positive unmarked => ?_, fun timer on => ?_, paced.elapsed, paced.woken, paced.forward,
    paced.early⟩
  · rcases mem_settled_create on with old | rfl
    · exact paced.settled timer old positive unmarked
    · change (run.newest milliseconds bAutoDelete).Counted run.base run.base ∧ 0 < milliseconds
      rw [base_eq met]
      exact ⟨full positive (le_refl _) (le_refl _), positive⟩
  · rcases mem_awaiting_create on with old | rfl
    · exact paced.awaiting timer old positive
    · exact full positive (le_refl _) (le_refl _)
  · rcases mem_pending_create on with old | ⟨rfl, open_⟩
    · exact paced.pending timer old positive unmarked
    · refine ⟨fun elapsed syncing => ?_, positive⟩
      change run.phase = .syncing elapsed at syncing
      rw [ClockGuard, syncing] at met
      obtain rfl : elapsed = 0 := met.resolve_left (Nat.not_le.mpr open_)
      refine full positive ?_ ?_
      · dsimp only [TimerRun.create]
        omega
      · dsimp only [TimerRun.create]
        omega
  · rw [called_create] at on
    exact paced.called timer on

end Create

section Deleted
variable (run) (id index : Nat)

theorem settled_deleted : (run.deleted id index).settled = run.settled.map (Timer.mark · id) := by
  unfold TimerRun.settled
  simp only [deleted]
  cases run.phase <;> simp [CursorList.map, CursorList.all]

theorem called_deleted : (run.deleted id index).called = run.called.map (Timer.mark · id) := by
  unfold TimerRun.called
  simp only [deleted]
  cases run.phase with
  | calling => cases ahead : run.timers.ahead <;> simp [CursorList.map, ahead]
  | _ => rfl

end Deleted

theorem Paced.signs (paced : run.Paced) (id index : Nat) : (run.deleted id index).Paced := by
  have unmarked {timer : Timer} (is : (timer.mark id).bSignAsDeleted = false) :
      timer.bSignAsDeleted = false := by
    refine Bool.eq_false_iff.mpr fun before => Bool.false_ne_true ?_
    exact is.symm.trans ((timer.mark_signed id).mpr (.inl before))
  refine ⟨fun timer on positive is => ?_, fun timer on positive => ?_, fun timer on positive is => ?_,
    fun timer on => ?_, paced.elapsed, paced.woken, paced.forward, fun timer clock member => ?_⟩
  · rw [settled_deleted] at on
    obtain ⟨before, was, rfl⟩ := List.mem_map.mp on
    rw [Timer.mark_milliseconds] at positive
    rw [Timer.mark_remaining]
    exact (paced.settled before was positive (unmarked is)).imp_left fun counted => counted.mark id
  · rw [awaiting_deleted] at on
    obtain ⟨before, was, rfl⟩ := List.mem_map.mp on
    rw [Timer.mark_milliseconds] at positive
    exact (paced.awaiting before was positive).mark id
  · rw [pending_deleted] at on
    obtain ⟨before, was, rfl⟩ := List.mem_map.mp on
    rw [Timer.mark_milliseconds] at positive
    rw [Timer.mark_remaining]
    obtain ⟨window, left⟩ := paced.pending before was positive (unmarked is)
    exact ⟨fun elapsed same => (window elapsed same).mark id, left⟩
  · rw [called_deleted] at on
    obtain ⟨before, was, rfl⟩ := List.mem_map.mp on
    rw [Timer.mark_since, Timer.mark_rounds, Timer.mark_milliseconds]
    exact paced.called before was
  · rcases List.mem_append.mp member with old | new
    · exact paced.early timer clock old
    · cases List.mem_singleton.mp new

theorem Paced.walked (paced : run.Paced) (index : Nat) (walk : TimerWalk) :
    (run.walked index walk).Paced := by
  unfold TimerRun.walked
  split
  · exact { paced with }
  · split
    · exact { paced with }
    · split
      · exact paced.signs _ index
      · exact { paced with }

theorem Paced.next {after : TimerRun} {action : TimerAction} (paced : run.Paced)
    (met : run.ClockGuard action) (next : run.next action = some after) : after.Paced := by
  unfold TimerRun.next at next
  split at next
  · cases action with
    | pass micros =>
      obtain rfl := Option.some.inj next
      exact paced.pass met
    | create milliseconds bAutoDelete =>
      rw [step] at next
      split at next
      · rename_i fits
        obtain rfl := Option.some.inj next
        exact paced.create fits met
      · cases next
    | del timer =>
      obtain rfl := Option.some.inj next
      exact { paced with }
    | walk index =>
      obtain ⟨walk, _, rfl⟩ := Option.map_eq_some_iff.mp next
      exact paced.walked index walk
    | stop =>
      obtain rfl := Option.some.inj next
      exact { paced with }
    | tick =>
      rw [step] at next
      split at next
      · rename_i idle
        obtain rfl := Option.some.inj next
        exact paced.tick idle
      · cases next
    | wake =>
      rw [step] at next
      split at next
      · rename_i now waiting
        obtain rfl := Option.some.inj next
        rw [ClockGuard, waiting] at met
        exact paced.woke waiting met
      · cases next
    | sync =>
      rw [step] at next
      split at next
      · rename_i elapsed syncing
        obtain rfl := Option.some.inj next
        exact paced.synced syncing
      · cases next
    | fire =>
      rw [step] at next
      split at next
      · rename_i firing
        obtain rfl := Option.some.inj next
        exact paced.fired firing
      · cases next
    | ret bAbortClock =>
      rw [step] at next
      split at next
      · rename_i timer rest calling ahead
        obtain rfl := Option.some.inj next
        exact paced.returned calling ahead bAbortClock
      · cases next
  · cases next

end Steps

/-- In a run whose steps meet the condition, every timer fires in time. -/
theorem timely_of_guard (run : TimerRun) (reached : system.Reachable ClockGuard run) : run.Timely := by
  have paced : run.Paced := by
    refine reached.invariant Paced ?_ fun before action after paced met next => paced.next met next
    rintro _ ⟨clock, rfl⟩
    exact new_paced clock
  exact paced.timely

/-- Two waits of a second and a half each: a timer of two seconds fires behind the second one. -/
private def patient : List TimerAction :=
  [.create 2000 false, .tick, .pass 1500000, .wake, .sync, .sync, .fire, .fire,
    .tick, .pass 1500000, .wake, .sync, .sync, .fire, .ret false, .fire]

theorem timely_patient : ∃ run, system.run (new 0) patient = some run ∧
    (run.events.any fun event => event matches .fired _ 3000000) = true ∧ run.Timely := by
  obtain ⟨run, ran⟩ : ∃ run, system.run (new 0) patient = some run := ⟨_, rfl⟩
  have fired : (system.run (new 0) patient).map (fun run =>
      run.events.any fun event => event matches .fired _ 3000000) = some true := by
    decide
  rw [ran] at fired
  refine ⟨run, ran, Option.some.inj fired, ?_⟩
  have start : system.Start (new 0) := ⟨0, rfl⟩
  exact timely_of_guard run ((System.Reachable.start start).run (by decide) ran)

/-- A timer of two seconds is created at the end of a wait of two seconds, and fires at once. -/
private def hasty : List TimerAction :=
  [.tick, .pass 2000000, .create 2000 false, .wake, .sync, .sync, .fire]

/-- Another callback takes five seconds, which are not counted: a timer of two seconds has not
fired after a further step. -/
private def held : List TimerAction :=
  [.create 1 false, .create 2000 false, .tick, .pass 1000, .wake, .sync, .sync, .sync, .fire,
    .pass 5000000, .ret false, .fire, .fire, .tick, .pass 1000, .wake, .sync, .sync, .sync, .fire,
    .ret false, .fire, .fire]

theorem not_timely : (∃ run, system.run (new 0) hasty = some run ∧ ¬run.Timely) ∧
    ∃ run, system.run (new 0) held = some run ∧ run.phase = .idle ∧ ¬run.Timely := by
  refine ⟨⟨_, rfl, fun timely => ?_⟩, ⟨_, rfl, rfl, fun timely => ?_⟩⟩
  · have early := timely.early _ _ (List.mem_singleton_self _) (by decide)
    exact absurd early (by decide)
  · have late := timely.late (.inl rfl) _ (List.mem_cons_of_mem _ List.mem_cons_self) (by decide) rfl
    exact absurd late (by decide)

end TimerRun
end Livezure.Common
