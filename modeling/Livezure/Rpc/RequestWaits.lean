import Livezure.Core.CondWait
import Livezure.Core.Counting
import Livezure.Core.Transition

/-! `rpc_request_wait` on one handle, between any number of callers and the dispatcher. -/
namespace Livezure.Rpc
open Livezure.Core

/-- Where a call of `rpc_request_wait` stands. -/
inductive WaitPhase where
  /-- With the mutex: it has seen no response and is about to wait. -/
  | entering
  | waiting
  /-- With the mutex again, or still; `wait_r` is 0 where nothing was waited for. -/
  | leaving (status : WaitStatus)
  deriving DecidableEq

structure WaitCall where
  timeout : Int
  started : Nat
  /-- A response was there when the call began, or when its wait did. -/
  wasStored : Bool
  signalled : Bool
  phase : WaitPhase
  deriving DecidableEq

/-- `ts`; a wait with a negative timeout has none. -/
def WaitCall.deadline (call : WaitCall) : Option Timespec :=
  if 0 ≤ call.timeout then some (.afterMillis call.started call.timeout.toNat) else none

def WaitCall.entering (call : WaitCall) : Bool := decide (call.phase = .entering)

/-- A call that has returned, and what was known when it did. -/
structure WaitAnswer where
  result : Int
  isStored : Bool
  timeout : Int
  started : Nat
  ended : Nat
  wasStored : Bool
  deriving DecidableEq

/-- A handle; `ρ` are the parsed replies, of which one without a body is NULL. -/
structure WaitRun (ρ : Type) where
  req : Option ρ
  clock : Nat
  calls : List WaitCall
  answers : List WaitAnswer
  /-- Calls of `rpc_default_dispatcher` between the store and the signal. -/
  signals : Nat
  deriving DecidableEq

inductive WaitAction (ρ : Type) where
  | pass (micros : Nat)
  | store (req : Option ρ)
  /-- `pthread_cond_signal`, and the wait that it releases if there is one. -/
  | signal (released : Option Nat)
  | call (timeout : Int)
  | enter (index : Nat)
  | wake (index : Nat) (status : WaitStatus)
  | ret (index : Nat)
  deriving DecidableEq

namespace WaitRun
variable {ρ : Type}

def new (clock : Nat) : WaitRun ρ := ⟨none, clock, [], [], 0⟩

/-- No call of `rpc_request_wait` has the mutex. -/
def MutexFree (run : WaitRun ρ) : Prop := ∀ call ∈ run.calls, call.phase = .waiting

instance (run : WaitRun ρ) : Decidable run.MutexFree :=
  inferInstanceAs (Decidable (∀ call ∈ run.calls, call.phase = .waiting))

def answer (run : WaitRun ρ) (call : WaitCall) (status : WaitStatus) : WaitAnswer :=
  ⟨if status = .timedOut then 0 else 1, run.req.isSome, call.timeout, call.started, run.clock,
    call.wasStored⟩

def next (run : WaitRun ρ) : WaitAction ρ → Option (WaitRun ρ)
  | .pass micros => some { run with clock := run.clock + micros }
  | .store req => some { run with req, signals := run.signals + 1 }
  | .signal none =>
    if 0 < run.signals ∧ run.MutexFree ∧ ∀ call ∈ run.calls, call.signalled then
      some { run with signals := run.signals - 1 }
    else none
  | .signal (some index) =>
    match run.calls[index]? with
    | none => none
    | some call =>
      if 0 < run.signals ∧ run.MutexFree ∧ call.signalled = false then
        some { run with
          calls := run.calls.set index { call with signalled := true }, signals := run.signals - 1 }
      else none
  | .call timeout =>
    if run.MutexFree then some { run with
      calls := run.calls ++ [⟨timeout, run.clock, run.req.isSome, false,
        if run.req.isSome then .leaving .woken else .entering⟩] }
    else none
  | .enter index =>
    match run.calls[index]? with
    | none => none
    | some call =>
      if call.phase = .entering then
        let waits := { call with wasStored := run.req.isSome, phase := .waiting }
        some { run with calls := run.calls.set index waits }
      else none
  | .wake index status =>
    match run.calls[index]? with
    | none => none
    | some call =>
      if run.MutexFree ∧ MayReturn call.deadline run.clock status then
        some { run with calls := run.calls.set index { call with phase := .leaving status } }
      else none
  | .ret index =>
    match run.calls[index]? with
    | none => none
    | some call =>
      match call.phase with
      | .leaving status => some { run with
          calls := run.calls.eraseIdx index, answers := run.answers ++ [run.answer call status] }
      | _ => none

def system (ρ : Type) : System (WaitRun ρ) (WaitAction ρ) where
  Start run := ∃ clock, run = new clock
  next := next

end WaitRun

/-- The result says what it is documented to say. -/
structure WaitAnswer.Right (answer : WaitAnswer) : Prop where
  one : answer.result = 1 → answer.isStored = true
  zero : answer.result = 0 →
    0 ≤ answer.timeout ∧ answer.started + 1000 * answer.timeout ≤ answer.ended
  /-- What was there before the wait began is not missed. -/
  met : answer.wasStored = true → answer.result = 1

namespace WaitRun
variable {ρ : Type}

/-- A response was there before the wait began, and no signal has reached the call. -/
def owes (run : WaitRun ρ) (call : WaitCall) : Bool :=
  match call.phase with
  | .entering => run.req.isSome
  | .waiting => call.wasStored && !call.signalled
  | .leaving _ => false

/-- How many calls have to be woken for a response that was there before their wait began. -/
def owed (run : WaitRun ρ) : Nat := run.calls.countP run.owes

/-- What holds of the handle at all times. -/
structure Kept (run : WaitRun ρ) : Prop where
  answers : ∀ answer ∈ run.answers, answer.Right
  /-- There are signals to come for all of them: nobody sleeps for ever on a response. -/
  coming : run.owed ≤ run.signals

/-- No wait ends before its time without a response, or by its time where a response was there
before it began; no response is overwritten by NULL while a call is on its way to say that it is
there; and a signal reaches a call that has to be woken, unless there are more of them to come. -/
def Guard (run : WaitRun ρ) : WaitAction ρ → Prop
  | .wake index status => (status ≠ .timedOut → run.req.isSome = true) ∧
      (status = .timedOut → ∀ call ∈ run.calls[index]?, call.wasStored = false)
  | .store none => ∀ call ∈ run.calls,
      call.phase ≠ .leaving .woken ∧ call.phase ≠ .leaving .failed
  | .signal released => run.owed < run.signals ∨
      ∃ call ∈ released.bind (run.calls[·]?), run.owes call = true
  | _ => True

instance (run : WaitRun ρ) : (action : WaitAction ρ) → Decidable (Guard run action)
  | .wake index status => inferInstanceAs (Decidable ((status ≠ .timedOut → run.req.isSome = true) ∧
      (status = .timedOut → ∀ call ∈ run.calls[index]?, call.wasStored = false)))
  | .store none => inferInstanceAs (Decidable (∀ call ∈ run.calls,
      call.phase ≠ .leaving .woken ∧ call.phase ≠ .leaving .failed))
  | .signal released => inferInstanceAs (Decidable (run.owed < run.signals ∨
      ∃ call ∈ released.bind (run.calls[·]?), run.owes call = true))
  | .store (some _) | .pass _ | .call _ | .enter _ | .ret _ => .isTrue trivial

/-! ### Counting calls -/

/-! ### What guarded steps keep -/

/-- What is known of a call by its phase. -/
structure Told (run : WaitRun ρ) (call : WaitCall) : Prop where
  woken : call.phase = .leaving .woken → run.req.isSome = true
  failed : call.phase = .leaving .failed → run.req.isSome = true
  expired : call.phase = .leaving .timedOut →
    0 ≤ call.timeout ∧ call.started + 1000 * call.timeout ≤ run.clock
  met : call.wasStored = true → call.phase ≠ .leaving .timedOut

structure Holds (run : WaitRun ρ) : Prop where
  answers : ∀ answer ∈ run.answers, answer.Right
  calls : ∀ call ∈ run.calls, run.Told call
  one : run.calls.countP WaitCall.entering ≤ 1
  owed : run.owed ≤ run.signals

section Step
variable {run after : WaitRun ρ}

theorem Holds.kept (holds : run.Holds) : run.Kept := ⟨holds.answers, holds.owed⟩

theorem Told.answer_right {call : WaitCall} {status : WaitStatus} (told : run.Told call)
    (leaving : call.phase = .leaving status) : (run.answer call status).Right := by
  cases status with
  | woken =>
    exact
      { one := fun _ => told.woken leaving
        zero := fun zero => by simp [answer] at zero
        met := fun _ => rfl }
  | failed =>
    exact
      { one := fun _ => told.failed leaving
        zero := fun zero => by simp [answer] at zero
        met := fun _ => rfl }
  | timedOut =>
    exact
      { one := fun one => by simp [answer] at one
        zero := fun _ => told.expired leaving
        met := fun stored => absurd leaving (told.met stored) }

theorem Told.stored {call : WaitCall} {req : Option ρ} (told : run.Told call)
    (met : Guard run (.store req)) (member : call ∈ run.calls) :
    ({ run with req, signals := run.signals + 1 } : WaitRun ρ).Told call := by
  have some_ : call.phase = .leaving .woken ∨ call.phase = .leaving .failed → req.isSome = true := by
    cases req with
    | some _ => exact fun _ => rfl
    | none =>
      obtain ⟨woken, failed⟩ := met call member
      exact fun leaving => absurd leaving (not_or.mpr ⟨woken, failed⟩)
  exact
    { woken := fun leaving => some_ (.inl leaving)
      failed := fun leaving => some_ (.inr leaving)
      expired := told.expired
      met := told.met }

/-- The other calls and the answers do not matter. -/
theorem Told.beside {other : WaitRun ρ} {call : WaitCall} (told : run.Told call)
    (req : other.req = run.req) (clock : other.clock = run.clock) : other.Told call where
  woken := by rw [req]; exact told.woken
  failed := by rw [req]; exact told.failed
  expired := by rw [clock]; exact told.expired
  met := told.met

theorem Told.passed {call : WaitCall} (told : run.Told call) (micros : Nat) :
    ({ run with clock := run.clock + micros } : WaitRun ρ).Told call where
  woken := told.woken
  failed := told.failed
  expired leaving := by
    obtain ⟨positive, reached⟩ := told.expired leaving
    exact ⟨positive, by simp only; omega⟩
  met := told.met

private theorem told_call (run : WaitRun ρ) (timeout : Int) :
    run.Told ⟨timeout, run.clock, run.req.isSome, false,
      if run.req.isSome then .leaving .woken else .entering⟩ := by
  cases stored : run.req.isSome <;> constructor <;> simp [stored]

private theorem told_waiting {call : WaitCall} (waiting : call.phase = .waiting) : run.Told call := by
  constructor <;> simp [waiting]

theorem Told.awake {call : WaitCall} {status : WaitStatus}
    (may : MayReturn call.deadline run.clock status)
    (early : status ≠ .timedOut → run.req.isSome = true)
    (late : status = .timedOut → call.wasStored = false) :
    run.Told { call with phase := .leaving status } where
  woken leaving := by
    cases leaving
    exact early (by decide)
  failed leaving := by
    cases leaving
    exact early (by decide)
  expired leaving := by
    cases leaving
    unfold WaitCall.deadline at may
    split at may
    · rename_i positive
      have reached := may.expired
      exact ⟨positive, by simp only; omega⟩
    · exact absurd may (not_mayReturn_timedOut _)
  met stored leaving := by
    cases leaving
    rw [late rfl] at stored
    cases stored

private theorem none_entering (free : run.MutexFree) : run.calls.countP WaitCall.entering = 0 := by
  apply List.countP_eq_zero.mpr
  intro call member
  rw [WaitCall.entering, free call member]
  decide

/-- One call changes, and no more calls have to be woken than signals are to come. -/
theorem Holds.set {index signals : Nat} {call changed : WaitCall} (holds : run.Holds)
    (found : run.calls[index]? = some call) (told : run.Told changed)
    (entering : changed.entering = true → call.entering = true)
    (owed : (run.calls.set index changed).countP run.owes ≤ signals) :
    ({ run with calls := run.calls.set index changed, signals } : WaitRun ρ).Holds where
  answers := holds.answers
  calls other member := by
    rcases List.mem_or_eq_of_mem_set member with old | rfl
    · exact (holds.calls other old).beside rfl rfl
    · exact told.beside rfl rfl
  one := Nat.le_trans (countP_set_le found entering) holds.one
  owed := owed

theorem Holds.store_step {req : Option ρ} (holds : run.Holds) (met : Guard run (.store req)) :
    ({ run with req, signals := run.signals + 1 } : WaitRun ρ).Holds where
  answers := holds.answers
  calls call member := (holds.calls call member).stored met member
  one := holds.one
  owed := by
    have more : ({ run with req, signals := run.signals + 1 } : WaitRun ρ).owed ≤
        run.owed + run.calls.countP WaitCall.entering := by
      apply countP_le_add
      intro call _ counted
      unfold owes WaitCall.entering at *
      split at counted
      · rename_i entering
        exact .inr (by simp [entering])
      · exact .inl counted
      · cases counted
    have one := holds.one
    have before := holds.owed
    simp only
    omega

theorem Holds.signal_step {released : Option Nat} (holds : run.Holds)
    (met : Guard run (.signal released)) (step : next run (.signal released) = some after) :
    after.Holds := by
  have before := holds.owed
  cases released with
  | none =>
    simp only [next] at step
    split at step
    · obtain rfl := Option.some.inj step
      refine ⟨holds.answers, fun call member => (holds.calls call member).beside rfl rfl, holds.one, ?_⟩
      rcases met with more | ⟨call, member, _⟩
      · change run.owed ≤ run.signals - 1
        omega
      · cases member
    · cases step
  | some index =>
    simp only [next] at step
    split at step
    · cases step
    · rename_i call found
      split at step
      · rename_i enabled
        obtain rfl := Option.some.inj step
        have waiting := enabled.2.1 call (List.mem_of_getElem? found)
        have still : ({ call with signalled := true } : WaitCall).phase = .waiting := waiting
        have gone : run.owes { call with signalled := true } = false := by simp [owes, waiting]
        refine holds.set found (told_waiting still) (fun entering => entering) ?_
        rcases met with more | ⟨other, member, owes⟩
        · have less := @countP_set_le _ _ _ _ run.owes { call with signalled := true } found
            (by simp [gone])
          have same : run.owed = run.calls.countP run.owes := rfl
          omega
        · obtain rfl : call = other := Option.some.inj (found.symm.trans member)
          have less := countP_set_lt found owes gone
          have same : run.owed = run.calls.countP run.owes := rfl
          omega
      · cases step

theorem Holds.call_step {timeout : Int} (holds : run.Holds)
    (step : next run (.call timeout) = some after) : after.Holds := by
  simp only [next] at step
  split at step
  · rename_i free
    obtain rfl := Option.some.inj step
    refine ⟨holds.answers, fun call member => ?_, ?_, ?_⟩
    · rcases List.mem_append.mp member with old | new
      · exact (holds.calls call old).beside rfl rfl
      · rw [List.mem_singleton.mp new]
        exact (told_call run timeout).beside rfl rfl
    · simp only [List.countP_append, none_entering free, Nat.zero_add]
      exact List.countP_le_length
    · -- the new call waits for nothing that is there already
      have last : run.owes ⟨timeout, run.clock, run.req.isSome, false,
          if run.req.isSome then .leaving .woken else .entering⟩ = false := by
        cases stored : run.req.isSome <;> simp [owes, stored]
      change (run.calls ++ [_]).countP run.owes ≤ run.signals
      rw [List.countP_append, List.countP_singleton, last]
      exact holds.owed
  · cases step

theorem Holds.enter_step {index : Nat} (holds : run.Holds)
    (step : next run (.enter index) = some after) : after.Holds := by
  simp only [next] at step
  split at step
  · cases step
  · rename_i call found
    split at step
    · rename_i entering
      obtain rfl := Option.some.inj step
      refine holds.set found (told_waiting rfl) (fun waiting => by simp [WaitCall.entering] at waiting) ?_
      apply Nat.le_trans (countP_set_le found ?_) holds.owed
      intro owes
      simp only [WaitRun.owes, Bool.and_eq_true] at owes
      rw [WaitRun.owes, entering]
      exact owes.1
    · cases step

theorem Holds.wake_step {index : Nat} {status : WaitStatus} (holds : run.Holds)
    (met : Guard run (.wake index status)) (step : next run (.wake index status) = some after) :
    after.Holds := by
  simp only [next] at step
  split at step
  · cases step
  · rename_i call found
    split at step
    · rename_i enabled
      obtain rfl := Option.some.inj step
      refine holds.set found (.awake enabled.2 met.1 fun timedOut => met.2 timedOut call found)
        (fun entering => by simp [WaitCall.entering] at entering) ?_
      exact Nat.le_trans (countP_set_le found (by simp [WaitRun.owes])) holds.owed
    · cases step

theorem Holds.ret_step {index : Nat} (holds : run.Holds) (step : next run (.ret index) = some after) :
    after.Holds := by
  simp only [next] at step
  split at step
  · cases step
  · rename_i call found
    split at step
    · rename_i status leaving
      obtain rfl := Option.some.inj step
      have fewer := List.eraseIdx_sublist run.calls index
      refine ⟨fun answer member => ?_, fun other member => ?_,
        Nat.le_trans fewer.countP_le holds.one, Nat.le_trans fewer.countP_le holds.owed⟩
      · rcases List.mem_append.mp member with old | new
        · exact holds.answers answer old
        · rw [List.mem_singleton.mp new]
          exact (holds.calls call (List.mem_of_getElem? found)).answer_right leaving
      · exact (holds.calls other (List.mem_of_mem_eraseIdx member)).beside rfl rfl
    · cases step

theorem Holds.step {action : WaitAction ρ} (holds : run.Holds) (met : Guard run action)
    (step : next run action = some after) : after.Holds := by
  cases action with
  | pass micros =>
    obtain rfl := Option.some.inj step
    exact ⟨holds.answers, fun call member => (holds.calls call member).passed micros, holds.one, holds.owed⟩
  | store req =>
    obtain rfl := Option.some.inj step
    exact holds.store_step met
  | signal released => exact holds.signal_step met step
  | call timeout => exact holds.call_step step
  | enter index => exact holds.enter_step step
  | wake index status => exact holds.wake_step met step
  | ret index => exact holds.ret_step step

/-! ### Steps that do not meet their conditions -/

theorem ret_kept {index : Nat} {call : WaitCall} {status : WaitStatus}
    (found : run.calls[index]? = some call) (leaving : call.phase = .leaving status) :
    ∃ last, next run (.ret index) = some last ∧ (last.Kept → (run.answer call status).Right) := by
  refine ⟨{ run with
    calls := run.calls.eraseIdx index, answers := run.answers ++ [run.answer call status] },
    by simp [next, found, leaving], fun kept => ?_⟩
  exact kept.answers _ (List.mem_append_right _ (List.mem_singleton_self _))

/-- A call that leaves before its time returns 1; without a response that is wrong. -/
theorem ret_early {index : Nat} {call : WaitCall} {status : WaitStatus}
    (found : run.calls[index]? = some call) (leaving : call.phase = .leaving status)
    (early : status ≠ .timedOut) (missing : run.req = none) :
    ∃ last, next run (.ret index) = some last ∧ ¬last.Kept := by
  obtain ⟨last, step, right⟩ := ret_kept found leaving
  refine ⟨last, step, fun kept => ?_⟩
  have stored := (right kept).one (if_neg early)
  rw [answer, missing] at stored
  cases stored

/-- A call that leaves by its time returns 0; with a response from before its wait that is wrong. -/
theorem ret_missed {index : Nat} {call : WaitCall} (found : run.calls[index]? = some call)
    (leaving : call.phase = .leaving .timedOut) (stored : call.wasStored = true) :
    ∃ last, next run (.ret index) = some last ∧ ¬last.Kept := by
  obtain ⟨last, step, right⟩ := ret_kept found leaving
  exact ⟨last, step, fun kept => by cases (right kept).met stored⟩

private theorem wake_wrong {index : Nat} {status : WaitStatus}
    (step : next run (.wake index status) = some after) (unmet : ¬Guard run (.wake index status)) :
    ∃ last, next after (.ret index) = some last ∧ ¬last.Kept := by
  simp only [next] at step
  split at step
  · cases step
  · rename_i call found
    split at step
    · obtain rfl := Option.some.inj step
      have inside := (List.getElem?_eq_some_iff.mp found).1
      have placed : (run.calls.set index { call with phase := .leaving status })[index]? =
          some { call with phase := .leaving status } := by
        simp [inside]
      rcases not_and_or.mp unmet with early | late
      · obtain ⟨early, missing⟩ := Classical.not_imp.mp early
        exact ret_early placed rfl early (by simpa using missing)
      · obtain ⟨rfl, late⟩ := Classical.not_imp.mp late
        have stored : call.wasStored = true := by
          by_contra unstored
          apply late
          intro _ other same
          obtain rfl := Option.some.inj (found.symm.trans same)
          simpa using unstored
        exact ret_missed placed rfl stored
    · cases step

/-- A signal that reaches a call that can do without it is missing for another one. -/
theorem signal_wrong {released : Option Nat} (step : next run (.signal released) = some after)
    (unmet : ¬Guard run (.signal released)) : ¬after.Kept := by
  obtain ⟨few, others⟩ := not_or.mp unmet
  intro kept
  have coming := kept.coming
  cases released with
  | none =>
    simp only [next] at step
    split at step
    · rename_i enabled
      obtain rfl := Option.some.inj step
      change run.owed ≤ run.signals - 1 at coming
      omega
    · cases step
  | some index =>
    simp only [next] at step
    split at step
    · cases step
    · rename_i call found
      split at step
      · rename_i enabled
        obtain rfl := Option.some.inj step
        have unowed : run.owes call = false := by
          by_contra owes
          exact others ⟨call, found, by simpa using owes⟩
        have same : run.calls.countP run.owes ≤
            (run.calls.set index { call with signalled := true }).countP run.owes :=
          countP_set_ge found unowed
        change (run.calls.set index _).countP run.owes ≤ run.signals - 1 at coming
        change ¬run.calls.countP run.owes < run.signals at few
        omega
      · cases step

end Step

/-- A step that does not meet its condition goes wrong, or may be followed by a wrong answer. -/
theorem wrong_of_not_guard {run after : WaitRun ρ} {action : WaitAction ρ}
    (step : next run action = some after) (unmet : ¬Guard run action) :
    ¬after.Kept ∨ ∃ index last, next after (.ret index) = some last ∧ ¬last.Kept := by
  cases action with
  | wake index status => exact .inr ⟨index, wake_wrong step unmet⟩
  | signal released => exact .inl (signal_wrong step unmet)
  | store req =>
    obtain rfl := Option.some.inj step
    cases req with
    | some _ => exact absurd trivial unmet
    | none =>
      simp only [Guard, not_forall] at unmet
      obtain ⟨call, member, leaves⟩ := unmet
      obtain ⟨index, found⟩ := List.mem_iff_getElem?.mp member
      refine .inr ⟨index, ?_⟩
      by_cases woken : call.phase = .leaving .woken
      · exact ret_early found woken nofun rfl
      · have failed := Classical.not_not.mp fun other => leaves ⟨woken, other⟩
        exact ret_early found failed nofun rfl
  | pass _ | call _ | enter _ | ret _ => exact absurd trivial unmet

/-- In every run whose steps meet their conditions the results are as documented, and no response
from before a wait is missed; any other step goes wrong, or may be followed by a wrong answer. -/
theorem kept_of_guard {run : WaitRun ρ} (reached : (system ρ).Reachable Guard run) :
    run.Kept ∧ ∀ action after, next run action = some after → ¬Guard run action →
      ¬after.Kept ∨ ∃ index last, next after (.ret index) = some last ∧ ¬last.Kept := by
  have holds : run.Holds := by
    refine reached.invariant Holds ?_ ?_
    · rintro _ ⟨clock, rfl⟩
      exact ⟨fun _ member => absurd member List.not_mem_nil,
        fun _ member => absurd member List.not_mem_nil, Nat.zero_le _, Nat.le_refl _⟩
    · intro before action after holds met step
      exact holds.step met step
  exact ⟨holds.kept, fun action after step unmet => wrong_of_not_guard step unmet⟩

/-- A call waits for the reply, which is stored before its wait begins; one waits its time for
nothing on another handle. -/
theorem kept_replied :
    (∃ run, (system Nat).run (new 0) [.call 50, .store (some 7), .enter 0, .signal (some 0),
      .wake 0 .woken, .ret 0, .call (-1), .ret 0] = some run ∧ run.answers.length = 2 ∧ run.Kept) ∧
    (∃ run, (system Nat).run (new 0) [.call 50, .enter 0, .pass 50000, .wake 0 .timedOut, .ret 0] =
      some run ∧ run.answers.length = 1 ∧ run.Kept) := by
  have started : (system Nat).Reachable Guard (new 0) := .start ⟨0, rfl⟩
  have replied : (system Nat).Guarded Guard (new 0) [.call 50, .store (some 7), .enter 0,
      .signal (some 0), .wake 0 .woken, .ret 0, .call (-1), .ret 0] := by decide
  have waited : (system Nat).Guarded Guard (new 0) [.call 50, .enter 0, .pass 50000,
      .wake 0 .timedOut, .ret 0] := by decide
  exact ⟨⟨_, rfl, rfl, (kept_of_guard (started.run replied rfl)).1⟩,
    ⟨_, rfl, rfl, (kept_of_guard (started.run waited rfl)).1⟩⟩

/-- A wait returns for no reason, and a reply without a body ends another: both calls return 1, and
no response is there. The reply is stored just before a wait of no time, which misses it; and
before the wait of the second of two calls, whose signal goes to the first. -/
theorem not_kept_woken :
    (∃ run, (system Nat).Reachable System.Free run ∧ run.answers = [⟨1, false, -1, 0, 0, false⟩] ∧
      run.signals = 0 ∧ ¬run.Kept) ∧
    (∃ run, (system Nat).run (new 0) [.call (-1), .enter 0, .store none, .signal (some 0),
      .wake 0 .woken, .ret 0] = some run ∧ ¬run.Kept) ∧
    (∃ run, (system Nat).run (new 0) [.call 0, .store (some 7), .enter 0, .wake 0 .timedOut, .ret 0] =
      some run ∧ ¬run.Kept) ∧
    (∃ run, (system Nat).run (new 0) [.call (-1), .enter 0, .call (-1), .store (some 7), .enter 1,
      .signal (some 0)] = some run ∧ ¬run.Kept) := by
  have started : (system Nat).Reachable System.Free (new 0) := .start ⟨0, rfl⟩
  have early : ∀ run : WaitRun Nat, run.answers = [⟨1, false, -1, 0, 0, false⟩] → ¬run.Kept := by
    intro run answered kept
    have right := kept.answers ⟨1, false, -1, 0, 0, false⟩ (by simp [answered])
    cases right.one rfl
  refine ⟨⟨_, started.run (System.guarded_free _ [.call (-1), .enter 0, .wake 0 .woken, .ret 0]) rfl,
    rfl, rfl, early _ rfl⟩, ⟨_, rfl, early _ rfl⟩, ⟨_, rfl, fun kept => ?_⟩, ⟨_, rfl, fun kept => ?_⟩⟩
  · cases (kept.answers _ List.mem_cons_self).met rfl
  · exact absurd kept.coming (by decide)

end WaitRun
end Livezure.Rpc
