import Livezure.Core.CondWait
import Livezure.Rpc.IoLayer

/-! `rpc_queue_get` with its waits, between any number of callers, and the sender thread that
waits on the signal queue. -/
namespace Livezure.Rpc
open Livezure.Core

/-- `rpc_queue_get` up to its wait: the result, the body and the queue, none if it waits. -/
def rpcQueueGetStart (rq : RpcQueue α) (timeout : Int) : Option (Int × Option α × RpcQueue α) :=
  match rq.items with
  | body :: items => some (1, some body, { rq with items })
  | [] => if rq.stopSign ∨ timeout = 0 then some (0, none, rq) else none

/-- `rpc_queue_get` after its wait, which it does not enter again. -/
def rpcQueueGetWoken (rq : RpcQueue α) (status : WaitStatus) : Int × Option α × RpcQueue α :=
  if rq.stopSign then (-1, none, rq)
  else
    match rq.items with
    | body :: items => (1, some body, { rq with items })
    | [] => (if status = .timedOut then 0 else -1, none, rq)

theorem rpcQueueGet_start {rq : RpcQueue α} (live : rq.destroyed = false) :
    ∃ outcome, rpcQueueGetStart rq 0 = some outcome ∧ rpcQueueGet rq = .ok outcome.2 := by
  unfold rpcQueueGetStart
  rcases rpcQueueGet_ok live with ⟨empty, got⟩ | ⟨body, items, first, got⟩
  · exact ⟨(0, none, rq), by simp [empty], got⟩
  · exact ⟨(1, some body, { rq with items }), by simp [first], got⟩

/-- A call of `rpc_queue_get` that waits; times are in microseconds. -/
structure QueueGet where
  timeout : Int
  started : Nat
  isSender : Bool
  deriving DecidableEq

/-- `ts`; a wait with a negative timeout has none. -/
def QueueGet.deadline (get : QueueGet) : Option Timespec :=
  if 0 < get.timeout then some (.afterMillis get.started get.timeout.toNat) else none

/-- A call that has returned, and what was known when it did. -/
structure GetAnswer (α : Type) where
  result : Int
  body : Option α
  timeout : Int
  started : Nat
  ended : Nat
  wasEmpty : Bool
  wasStopped : Bool
  deriving DecidableEq

/-- Where `rpc_io_routine` stands. -/
inductive SenderPhase where
  | head
  | calling
  | waiting
  | serving
  | ended
  deriving DecidableEq

structure QueueRun (α : Type) where
  queue : RpcQueue α
  clock : Nat
  gets : List QueueGet
  answers : List (GetAnswer α)
  pushed : List α
  abort : Bool
  routine : SenderPhase
  deriving DecidableEq

inductive QueueAction (α : Type) where
  | pass (micros : Nat)
  | push (body : α)
  | stop
  | get (timeout : Int)
  | wake (index : Nat) (status : WaitStatus)
  | abort
  | routineTest
  | routineGet
  | routineServed
  deriving DecidableEq

namespace QueueRun
variable {α : Type}

def new (clock : Nat) : QueueRun α where
  queue := rpcQueueNew
  clock := clock
  gets := []
  answers := []
  pushed := []
  abort := false
  routine := .head

def answer (run : QueueRun α) (get : QueueGet) (outcome : Int × Option α × RpcQueue α) :
    GetAnswer α :=
  ⟨outcome.1, outcome.2.1, get.timeout, get.started, run.clock, run.queue.items.isEmpty,
    run.queue.stopSign⟩

def finish (run : QueueRun α) (get : QueueGet) (outcome : Int × Option α × RpcQueue α) : QueueRun α :=
  { run with
    queue := outcome.2.2
    answers := run.answers ++ [run.answer get outcome]
    routine := if get.isSender then if outcome.1 = 1 then .serving else .ended else run.routine }

def start (run : QueueRun α) (timeout : Int) (isSender : Bool) : QueueRun α :=
  let get : QueueGet := ⟨timeout, run.clock, isSender⟩
  match rpcQueueGetStart run.queue timeout with
  | some outcome => run.finish get outcome
  | none => { run with
      gets := run.gets ++ [get], routine := if isSender then .waiting else run.routine }

def next (run : QueueRun α) : QueueAction α → Option (QueueRun α)
  | .pass micros => some { run with clock := run.clock + micros }
  | .push body => some { run with
      queue.items := run.queue.items ++ [body], pushed := run.pushed ++ [body] }
  | .stop => some { run with queue.stopSign := true }
  | .get timeout => some (run.start timeout false)
  | .wake index status =>
    match run.gets[index]? with
    | none => none
    | some get =>
      if MayReturn get.deadline run.clock status then
        some ({ run with gets := run.gets.eraseIdx index }.finish get
          (rpcQueueGetWoken run.queue status))
      else none
  | .abort => some { run with abort := true }
  | .routineTest =>
    match run.routine with
    | .head => some { run with routine := if run.abort then .ended else .calling }
    | _ => none
  | .routineGet =>
    match run.routine with
    | .calling => some (run.start (-1) true)
    | _ => none
  | .routineServed =>
    match run.routine with
    | .serving => some { run with routine := .head }
    | _ => none

def system (α : Type) : System (QueueRun α) (QueueAction α) where
  Start run := ∃ clock, run = new clock
  next := next

end QueueRun

/-- The result says what it is documented to say. -/
structure GetAnswer.Right {α : Type} (answer : GetAnswer α) : Prop where
  one : answer.result = 1 ↔ answer.body.isSome
  /-- Nothing was there, and the caller does not wait or has waited long enough. -/
  zero : answer.result = 0 → answer.wasEmpty = true ∧ (answer.timeout = 0 ∨
    0 < answer.timeout ∧ answer.started + 1000 * answer.timeout ≤ answer.ended)
  minus : answer.result = -1 → answer.wasStopped = true

namespace QueueRun
variable {α : Type}

/-- What holds of the queue at all times. -/
structure Kept (run : QueueRun α) : Prop where
  /-- The bodies come out in the order they were pushed in, and each of them once. -/
  order : run.pushed = run.answers.filterMap GetAnswer.body ++ run.queue.items
  answers : ∀ answer ∈ run.answers, answer.Right
  /-- The sender thread goes on until the queue is stopped. -/
  routine : run.routine = .ended → run.queue.stopSign = true

/-- No call that is to wait begins on an empty queue that was stopped, no wait of an empty queue
that was not stopped ends before its time, and the sender thread does not see `abort` before the
queue was stopped. -/
def Guard (run : QueueRun α) : QueueAction α → Prop
  | .get timeout => run.queue.items = [] → run.queue.stopSign = true → timeout = 0
  | .routineGet => run.routine = .calling → run.queue.items = [] → run.queue.stopSign = false
  | .wake index status => index < run.gets.length → status ≠ .timedOut → run.queue.items = [] →
      run.queue.stopSign = true
  | .routineTest => run.routine = .head → run.abort = true → run.queue.stopSign = true
  | _ => True

instance [DecidableEq α] (run : QueueRun α) : (action : QueueAction α) → Decidable (Guard run action)
  | .get timeout => inferInstanceAs (Decidable (_ → _ → timeout = 0))
  | .routineGet => inferInstanceAs (Decidable (_ → _ → _))
  | .wake _ status => inferInstanceAs (Decidable (_ → status ≠ .timedOut → _ → _))
  | .routineTest => inferInstanceAs (Decidable (_ → _ → _))
  | .pass _ | .push _ | .stop | .abort | .routineServed => .isTrue trivial

/-! ### One call -/

/-- A call takes the first body, or nothing. -/
inductive Takes (rq : RpcQueue α) : Int × Option α × RpcQueue α → Prop where
  | body {body : α} {items : List α} (first : rq.items = body :: items) :
      Takes rq (1, some body, { rq with items })
  | nothing {result : Int} (other : result ≠ 1) : Takes rq (result, none, rq)

private theorem takes_start {rq : RpcQueue α} {timeout : Int} {outcome : Int × Option α × RpcQueue α}
    (returns : rpcQueueGetStart rq timeout = some outcome) : Takes rq outcome := by
  unfold rpcQueueGetStart at returns
  split at returns
  · rename_i first
    obtain rfl := Option.some.inj returns
    exact .body first
  · split at returns
    · obtain rfl := Option.some.inj returns
      exact .nothing (by decide)
    · cases returns

private theorem takes_woken (rq : RpcQueue α) (status : WaitStatus) :
    Takes rq (rpcQueueGetWoken rq status) := by
  unfold rpcQueueGetWoken
  split
  · exact .nothing (by decide)
  · split
    · rename_i first
      exact .body first
    · split <;> exact .nothing (by decide)

section Step
variable {run after : QueueRun α}

/-- What is kept when a call returns is what its answer promises. -/
theorem Kept.finish_iff (kept : run.Kept) (get : QueueGet) {outcome : Int × Option α × RpcQueue α}
    (takes : Takes run.queue outcome) :
    (run.finish get outcome).Kept ↔ (run.answer get outcome).Right ∧
      (get.isSender = true → outcome.1 ≠ 1 → run.queue.stopSign = true) := by
  have stopped : outcome.2.2.stopSign = run.queue.stopSign := by
    cases takes <;> rfl
  constructor
  · intro later
    refine ⟨later.answers _ (List.mem_append_right _ (List.mem_singleton_self _)), fun own other => ?_⟩
    rw [← stopped]
    apply later.routine
    simp [finish, own, other]
  · rintro ⟨right, goes⟩
    refine ⟨?_, fun answer member => ?_, fun ended => ?_⟩
    · have before := kept.order
      cases takes with
      | body first => simp [finish, answer, before, first]
      | nothing _ => simp [finish, answer, before]
    · rcases List.mem_append.mp member with old | new
      · exact kept.answers answer old
      · rwa [List.mem_singleton.mp new]
    · change outcome.2.2.stopSign = true
      rw [stopped]
      by_cases own : get.isSender = true
      · apply goes own
        intro one
        simp [finish, own, one] at ended
      · simp only [finish, if_neg own] at ended
        exact kept.routine ended

private theorem right_body (run : QueueRun α) (get : QueueGet) (body : α) (rq : RpcQueue α) :
    (run.answer get (1, some body, rq)).Right where
  one := iff_of_true rfl rfl
  zero nothing := by simp [answer] at nothing
  minus nothing := by simp [answer] at nothing

/-- A call that returns at once with nothing is right only if it was not to wait. -/
theorem right_start_iff (run : QueueRun α) (timeout : Int) (isSender : Bool) (rq : RpcQueue α)
    (empty : run.queue.items = []) :
    (run.answer ⟨timeout, run.clock, isSender⟩ (0, none, rq)).Right ↔ timeout = 0 := by
  constructor
  · intro right
    rcases (right.zero rfl).2 with same | ⟨waits, expired⟩
    · exact same
    · simp only [answer] at waits expired
      omega
  · intro same
    exact
      { one := by simp [answer]
        zero := fun _ => ⟨by simp [answer, empty], .inl same⟩
        minus := fun stopped => by simp [answer] at stopped }

/-- A call begins well unless it is to wait on an empty queue that was stopped, or is the
sender's and does not wait. -/
theorem Kept.start_iff (kept : run.Kept) (timeout : Int) (isSender : Bool) :
    (run.start timeout isSender).Kept ↔
      (run.queue.items = [] → run.queue.stopSign = true → timeout = 0) ∧
        (isSender = true → timeout = 0 → run.queue.items = [] → run.queue.stopSign = true) := by
  unfold start
  dsimp only
  cases returns : rpcQueueGetStart run.queue timeout with
  | some outcome =>
    dsimp only
    rw [kept.finish_iff _ (takes_start returns)]
    unfold rpcQueueGetStart at returns
    split at returns
    · rename_i body items first
      obtain rfl := Option.some.inj returns
      refine iff_of_true ⟨right_body _ _ _ _, fun _ other => absurd rfl other⟩ ?_
      simp [first]
    · rename_i empty
      split at returns
      · rename_i now
        obtain rfl := Option.some.inj returns
        rw [right_start_iff run timeout isSender _ empty]
        constructor
        · rintro ⟨same, goes⟩
          exact ⟨fun _ _ => same, fun own _ _ => goes own Int.zero_ne_one⟩
        · rintro ⟨stopped, goes⟩
          have same : timeout = 0 := now.elim (stopped empty) id
          exact ⟨same, fun own _ => goes own same empty⟩
      · cases returns
  | none =>
    unfold rpcQueueGetStart at returns
    split at returns
    · cases returns
    · split at returns
      · cases returns
      · rename_i waits
        obtain ⟨running, waiting⟩ := not_or.mp waits
        refine iff_of_true ⟨kept.order, kept.answers, fun ended => kept.routine ?_⟩
          ⟨fun _ stopped => absurd stopped running, fun _ same => absurd same waiting⟩
        cases isSender
        · exact ended
        · cases ended

/-- A wait returns rightly unless it ends before its time on an empty queue that was not
stopped. -/
theorem Kept.woken_iff (kept : run.Kept) {get : QueueGet} (blocks : get.isSender = true → get.timeout < 0)
    {status : WaitStatus} (may : MayReturn get.deadline run.clock status) :
    (run.finish get (rpcQueueGetWoken run.queue status)).Kept ↔
      (status ≠ .timedOut → run.queue.items = [] → run.queue.stopSign = true) := by
  rw [kept.finish_iff _ (takes_woken _ _)]
  unfold rpcQueueGetWoken
  split
  · rename_i stopped
    refine iff_of_true ⟨⟨by simp [answer], fun zero => ?_, fun _ => stopped⟩, fun _ _ => stopped⟩
      fun _ _ => stopped
    simp [answer] at zero
  · rename_i running
    split
    · rename_i first
      refine iff_of_true ⟨right_body _ _ _ _, fun _ other => absurd rfl other⟩ ?_
      simp [first]
    · rename_i empty
      by_cases timed : status = .timedOut
      · subst timed
        rw [if_pos rfl]
        -- only a call with a deadline times out, and the sender's has none
        have expired : 0 < get.timeout ∧ get.started + 1000 * get.timeout ≤ run.clock := by
          unfold QueueGet.deadline at may
          split at may
          · rename_i positive
            have reached := may.expired
            exact ⟨positive, by omega⟩
          · exact absurd may (not_mayReturn_timedOut _)
        refine iff_of_true ⟨⟨by simp [answer], fun _ => ?_, fun minus => ?_⟩, fun own _ => ?_⟩
          fun other => absurd rfl other
        · exact ⟨by simp [answer, empty], .inr expired⟩
        · simp [answer] at minus
        · have negative := blocks own
          omega
      · rw [if_neg timed]
        constructor
        · rintro ⟨right, _⟩ _ _
          exact right.minus rfl
        · intro stopped
          exact absurd (stopped timed empty) running

/-- The sender's call has no deadline. -/
def Blocks (run : QueueRun α) : Prop := ∀ get ∈ run.gets, get.isSender = true → get.timeout < 0

theorem Blocks.start {timeout : Int} {isSender : Bool} (blocks : run.Blocks)
    (own : isSender = true → timeout < 0) : (run.start timeout isSender).Blocks := by
  unfold QueueRun.start
  dsimp only
  split
  · exact blocks
  · intro get member
    rcases List.mem_append.mp member with old | new
    · exact blocks get old
    · rw [List.mem_singleton.mp new]
      exact own

theorem Blocks.step {action : QueueAction α} (blocks : run.Blocks)
    (step : next run action = some after) : after.Blocks := by
  cases action with
  | pass micros =>
    obtain rfl := Option.some.inj step
    exact blocks
  | push body =>
    obtain rfl := Option.some.inj step
    exact blocks
  | stop =>
    obtain rfl := Option.some.inj step
    exact blocks
  | get timeout =>
    obtain rfl := Option.some.inj step
    exact blocks.start nofun
  | wake index status =>
    simp only [next] at step
    split at step
    · cases step
    · split at step
      · obtain rfl := Option.some.inj step
        exact fun get member => blocks get (List.mem_of_mem_eraseIdx member)
      · cases step
  | abort =>
    obtain rfl := Option.some.inj step
    exact blocks
  | routineTest =>
    simp only [next] at step
    split at step
    · obtain rfl := Option.some.inj step
      exact blocks
    · cases step
  | routineGet =>
    simp only [next] at step
    split at step
    · obtain rfl := Option.some.inj step
      exact blocks.start fun _ => by decide
    · cases step
  | routineServed =>
    simp only [next] at step
    split at step
    · obtain rfl := Option.some.inj step
      exact blocks
    · cases step

/-- A step keeps what is promised exactly where it meets its condition. -/
theorem Kept.step_iff {action : QueueAction α} (kept : run.Kept) (blocks : run.Blocks) :
    (∀ after, next run action = some after → after.Kept) ↔ Guard run action := by
  cases action with
  | pass micros =>
    refine iff_of_true (fun after step => ?_) trivial
    obtain rfl := Option.some.inj step
    exact ⟨kept.order, kept.answers, kept.routine⟩
  | push body =>
    refine iff_of_true (fun after step => ?_) trivial
    obtain rfl := Option.some.inj step
    refine ⟨?_, kept.answers, kept.routine⟩
    simp [kept.order]
  | stop =>
    refine iff_of_true (fun after step => ?_) trivial
    obtain rfl := Option.some.inj step
    exact ⟨kept.order, kept.answers, fun _ => rfl⟩
  | get timeout =>
    simp only [next, Option.some.injEq, forall_eq', Guard]
    rw [kept.start_iff]
    simp
  | wake index status =>
    simp only [next, Guard]
    cases found : run.gets[index]? with
    | none =>
      have beyond := List.getElem?_eq_none_iff.mp found
      exact iff_of_true nofun fun inside => absurd inside (Nat.not_lt.mpr beyond)
    | some get =>
      have inside := (List.getElem?_eq_some_iff.mp found).1
      have own := blocks get (List.mem_of_getElem? found)
      have rest : ({ run with gets := run.gets.eraseIdx index } : QueueRun α).Kept :=
        ⟨kept.order, kept.answers, kept.routine⟩
      dsimp only
      by_cases may : MayReturn get.deadline run.clock status
      · have woken := rest.woken_iff own may
        rw [if_pos may]
        simp only [Option.some.injEq, forall_eq', inside, forall_const]
        exact woken
      · rw [if_neg may]
        refine iff_of_true nofun fun _ early => absurd trivial ?_
        cases status with
        | timedOut => exact absurd rfl early
        | woken => exact may
        | failed => exact may
  | abort =>
    refine iff_of_true (fun after step => ?_) trivial
    obtain rfl := Option.some.inj step
    exact ⟨kept.order, kept.answers, kept.routine⟩
  | routineTest =>
    simp only [next, Guard]
    cases phase : run.routine with
    | head =>
      simp only [Option.some.injEq, forall_eq', forall_const]
      constructor
      · intro later abort
        apply later.routine
        simp [abort]
      · intro stopped
        refine ⟨kept.order, kept.answers, fun ended => stopped ?_⟩
        by_cases abort : run.abort = true
        · exact abort
        · simp [abort] at ended
    | calling | waiting | serving | ended => exact iff_of_true nofun nofun
  | routineGet =>
    simp only [next, Guard]
    cases phase : run.routine with
    | calling =>
      simp only [Option.some.injEq, forall_eq', forall_const]
      rw [kept.start_iff]
      simp
    | head | waiting | serving | ended => exact iff_of_true nofun nofun
  | routineServed =>
    refine iff_of_true (fun after step => ?_) trivial
    simp only [next] at step
    split at step
    · obtain rfl := Option.some.inj step
      exact ⟨kept.order, kept.answers, nofun⟩
    · cases step

end Step

/-! ### Every run -/

/-- The queue keeps its promises in every state of a run exactly if every step of the run meets
its condition. -/
theorem kept_iff (clock : Nat) (actions : List (QueueAction α)) :
    (system α).Guarded (fun run action => ∀ after, next run action = some after → after.Kept)
        (new clock) actions ↔
      (system α).Guarded Guard (new clock) actions := by
  have start : (new clock : QueueRun α).Kept ∧ (new clock : QueueRun α).Blocks :=
    ⟨⟨rfl, fun _ member => absurd member List.not_mem_nil, nofun⟩,
      fun _ member => absurd member List.not_mem_nil⟩
  apply System.guarded_iff (fun run _ => run.Kept ∧ run.Blocks) _ _ start
  · intro run action _ holds
    exact holds.1.step_iff holds.2
  · intro run action _ after holds good step
    exact ⟨good after step, holds.2.step step⟩

/-- A getter waits while another one takes the body that it was signalled for; the queue is
stopped before it wakes. -/
theorem kept_stopped : (system Nat).Guarded
    (fun run action => ∀ after, next run action = some after → after.Kept) (new 0)
    [.get (-1), .get 20, .push 7, .get 0, .pass 20000, .wake 1 .timedOut, .stop, .wake 0 .woken] :=
  (kept_iff 0 _).mpr (by decide)

/-- The sender thread waits while another getter takes what it was signalled for. It wakes and
ends, and the queue was not stopped. A call on a stopped queue does not wait for its time. -/
theorem not_kept :
    (∃ run, (system Nat).run (new 0) [.routineTest, .routineGet, .push 7, .get 0, .wake 0 .woken] =
      some run ∧ run.routine = .ended ∧ run.queue.stopSign = false ∧ ¬run.Kept) ∧
    (∃ run, (system Nat).run (new 0) [.stop, .get 1000] = some run ∧
      run.answers = [⟨0, none, 1000, 0, 0, true, true⟩] ∧ ¬run.Kept) := by
  refine ⟨⟨_, rfl, rfl, rfl, fun kept => ?_⟩, ⟨_, rfl, rfl, fun kept => ?_⟩⟩
  · cases kept.routine rfl
  · have right := kept.answers _ (List.mem_singleton_self _)
    have early := (right.zero rfl).2
    revert early
    decide

end QueueRun
end Livezure.Rpc
