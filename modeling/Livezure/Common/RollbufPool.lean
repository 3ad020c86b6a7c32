import Livezure.Core.Memory
import Livezure.Core.Signed
import Livezure.Core.Transition

/-! The buffer pool between a producer and a consumer. -/
namespace Livezure.Common
open Livezure.Core

def rollbufPoolMaxBufDefSize : Int := 5 * 1024 * 1024

def rollbufPoolMaxBufThrowTimeout : Int := 500

def rollbufPoolMaxBufEveryWaitTime : Int := 100

inductive RollbufCallback where
  | buffering
  | bufferingOk
  deriving DecidableEq

/-- Which callbacks of a client are not NULL. -/
structure RollbufClient where
  onBufferingCb : Bool
  onBufferingOkCb : Bool
  deriving DecidableEq

structure RollbufPool where
  bufferPool : Bytes
  bufferSize : Nat
  poolSize : Int
  finishSingal : Bool
  stopSignal : Bool
  cb : Option RollbufClient
  deriving DecidableEq

namespace RollbufPool

/-- The bytes that wait for the consumer. -/
def buffered (state : RollbufPool) : Bytes := state.bufferPool.take state.bufferSize

def buffering (state : RollbufPool) : List RollbufCallback :=
  if state.cb.any RollbufClient.onBufferingCb then [.buffering] else []

/-- `cb->on_buffering_ok_cb`, after a wait. -/
def bufferingOk (state : RollbufPool) (bBuffering : Bool) : List RollbufCallback :=
  if bBuffering && state.cb.any RollbufClient.onBufferingOkCb then [.bufferingOk] else []

end RollbufPool

def rollbufPoolSize (poolSize : Int) : Int :=
  if poolSize ≤ 0 then rollbufPoolMaxBufDefSize else poolSize

/-- `memory` is what `malloc` has given. -/
def rollbufPoolCreate (client : Option RollbufClient) (poolSize : Int) (memory : Bytes) :
    RollbufPool where
  bufferPool := memory
  bufferSize := 0
  poolSize := rollbufPoolSize poolSize
  finishSingal := false
  stopSignal := false
  cb := client

/-- What a round of the loop in `rollbuf_pool_push` comes to. -/
inductive PushTest where
  | passes
  | sleeps (maxSleepTimeMs : Int)
  | refuses
  deriving DecidableEq

/-- The test is made without the lock, and its sum wraps. -/
def rollbufPoolPushTest (state : RollbufPool) (size : Nat) (maxSleepTimeMs : Int) : PushTest :=
  if state.poolSize ≤ narrow 32 (state.bufferSize + size) then
    if 0 < maxSleepTimeMs then .sleeps (maxSleepTimeMs - rollbufPoolMaxBufEveryWaitTime)
    else .refuses
  else .passes

/-- `rollbuf_pool_push` under the lock. -/
def rollbufPoolPushLocked (state : RollbufPool) (data : Bytes) : Except Fault RollbufPool := do
  let bufferPool ← copyInto state.bufferPool state.bufferSize data
  return { state with bufferPool, bufferSize := state.bufferSize + data.length }

/-- What `rollbuf_pool_get` does under the lock, up to a wait or its end. -/
inductive GetLocked where
  | waits (calls : List RollbufCallback)
  | returns (result : Int) (bytes : Bytes) (resultSize : Nat) (state : RollbufPool)
      (calls : List RollbufCallback)
  deriving DecidableEq

/-- Its end when it finds `stop_signal`. -/
def rollbufPoolGetStopped (state : RollbufPool) (bBuffering : Bool) : GetLocked :=
  .returns (-1) [] 0 state (state.bufferingOk bBuffering)

/-- Its end when it finds `finish_singal`, with too few bytes. -/
def rollbufPoolGetFinished (state : RollbufPool) (bBuffering : Bool) : Except Fault GetLocked := do
  let bytes ← slice state.bufferPool 0 state.bufferSize
  return .returns 0 bytes state.bufferSize
    { state with bufferSize := state.bufferSize - state.bufferSize } (state.bufferingOk bBuffering)

/-- Its end with bytes enough. -/
def rollbufPoolGetFront (state : RollbufPool) (needSize : Nat) (bBuffering : Bool) :
    Except Fault GetLocked := do
  let bytes ← slice state.bufferPool 0 needSize
  let bufferSize := state.bufferSize - needSize
  let rest ← slice state.bufferPool needSize bufferSize
  let bufferPool ← copyInto state.bufferPool 0 rest
  return .returns 1 bytes needSize { state with bufferPool, bufferSize } (state.bufferingOk bBuffering)

/-- The whole section, where nobody sets a flag in between. -/
def rollbufPoolGetLocked (state : RollbufPool) (needSize : Nat) (bBuffering : Bool) :
    Except Fault GetLocked :=
  if state.bufferSize < needSize then
    if state.stopSignal then return rollbufPoolGetStopped state bBuffering
    else if state.finishSingal then rollbufPoolGetFinished state bBuffering
    else return .waits state.buffering
  else if state.stopSignal then return rollbufPoolGetStopped state bBuffering
  else rollbufPoolGetFront state needSize bBuffering

/-! ### Runs -/

/-- Where the producer stands. -/
inductive PushPhase where
  | idle
  | testing (data : Bytes) (maxSleepTimeMs : Int)
  | storing (data : Bytes)
  | done
  deriving DecidableEq

/-- Where the consumer stands. -/
inductive GetPhase where
  | idle
  | waiting (needSize : Nat)
  deriving DecidableEq

/-- A get that has returned, and what was known when it did. -/
structure RollbufAnswer where
  result : Int
  needSize : Nat
  bytes : Bytes
  resultSize : Nat
  held : Bytes
  finished : Bool
  stopped : Bool
  deriving DecidableEq

structure RollbufRun where
  pool : RollbufPool
  push : PushPhase
  get : GetPhase
  accepted : List Bytes
  refused : List Bytes
  answers : List RollbufAnswer
  calls : List RollbufCallback
  fault : Option Fault
  deriving DecidableEq

inductive RollbufAction where
  | push (data : Bytes)
  | test
  | store
  | leave
  | get (needSize : Nat)
  | wake
  | finish
  | stop
  deriving DecidableEq

namespace RollbufRun

def new (pool : RollbufPool) : RollbufRun where
  pool := pool
  push := .idle
  get := .idle
  accepted := []
  refused := []
  answers := []
  calls := []
  fault := none

def locked (run : RollbufRun) (needSize : Nat) (bBuffering : Bool) : RollbufRun :=
  match rollbufPoolGetLocked run.pool needSize bBuffering with
  | .error fault => { run with fault := some fault }
  | .ok (.waits calls) => { run with get := .waiting needSize, calls := run.calls ++ calls }
  | .ok (.returns result bytes resultSize pool calls) => { run with
      pool
      get := .idle
      answers := run.answers ++ [⟨result, needSize, bytes, resultSize, run.pool.buffered,
        run.pool.finishSingal, run.pool.stopSignal⟩]
      calls := run.calls ++ calls }

def tested (run : RollbufRun) (data : Bytes) (maxSleepTimeMs : Int) : RollbufRun :=
  match rollbufPoolPushTest run.pool data.length maxSleepTimeMs with
  | .passes => { run with push := .storing data }
  | .sleeps maxSleepTimeMs => { run with push := .testing data maxSleepTimeMs }
  | .refuses => { run with push := .idle, refused := run.refused ++ [data] }

def stored (run : RollbufRun) (data : Bytes) : RollbufRun :=
  match rollbufPoolPushLocked run.pool data with
  | .error fault => { run with fault := some fault }
  | .ok pool => { run with pool, push := .idle, accepted := run.accepted ++ [data] }

/-- The sizes are positive values of `int`; the pool is finished or stopped by its owner, when the
producer is done. -/
def next (run : RollbufRun) (action : RollbufAction) : Option RollbufRun :=
  if run.fault.isSome then none
  else
    match action with
    | .push data =>
      if run.push = .idle ∧ data ≠ [] ∧ Fits 32 data.length then
        if run.pool.stopSignal then some { run with refused := run.refused ++ [data] }
        else some { run with push := .testing data rollbufPoolMaxBufThrowTimeout }
      else none
    | .test =>
      match run.push with
      | .testing data maxSleepTimeMs => some (run.tested data maxSleepTimeMs)
      | _ => none
    | .store =>
      match run.push with
      | .storing data => some (run.stored data)
      | _ => none
    | .leave => if run.push = .idle then some { run with push := .done } else none
    | .get needSize =>
      if run.get = .idle ∧ 0 < needSize ∧ Fits 32 needSize then some (run.locked needSize false)
      else none
    | .wake =>
      match run.get with
      | .waiting needSize => some (run.locked needSize true)
      | .idle => none
    | .finish =>
      if run.push = .done then some { run with pool.finishSingal := true } else none
    | .stop => if run.push = .done then some { run with pool.stopSignal := true } else none

def system : System RollbufRun RollbufAction where
  Start run := ∃ client poolSize memory, Fits 32 poolSize ∧
    (memory.length : Int) = rollbufPoolSize poolSize ∧
    run = new (rollbufPoolCreate client poolSize memory)
  next := next

end RollbufRun

/-- The result, the bytes and the size belong together. -/
structure RollbufAnswer.Right (answer : RollbufAnswer) : Prop where
  size : answer.resultSize = answer.bytes.length
  one : answer.result = 1 → answer.bytes.length = answer.needSize
  /-- After the end of the stream there is the remainder. -/
  zero : answer.finished = true → answer.stopped = false → answer.held.length < answer.needSize →
    answer.result = 0 ∧ answer.bytes = answer.held

/-- What is promised of a state. -/
structure RollbufRun.Kept (run : RollbufRun) : Prop where
  safe : run.fault = none
  order : run.answers.flatMap RollbufAnswer.bytes ++ run.pool.buffered = run.accepted.flatten
  answers : ∀ answer ∈ run.answers, answer.Right
  /-- A get would not wait for more than there will be. -/
  remainder : run.pool.finishSingal = true → run.pool.stopSignal = false →
    ∀ needSize bBuffering, run.pool.bufferSize < needSize → ∃ pool calls,
      rollbufPoolGetLocked run.pool needSize bBuffering =
        .ok (.returns 0 run.pool.buffered run.pool.bufferSize pool calls) ∧ pool.buffered = []

/-- The sum of the test is a value of `int`. -/
def RollbufRun.Guard (run : RollbufRun) : RollbufAction → Prop
  | .test =>
    match run.push with
    | .testing data _ => Fits 32 (run.pool.bufferSize + data.length)
    | _ => True
  | _ => True

instance (run : RollbufRun) (action : RollbufAction) : Decidable (run.Guard action) := by
  unfold RollbufRun.Guard
  split
  · split <;> infer_instance
  · infer_instance

/-! ### The lock sections -/

namespace RollbufPool
variable {state : RollbufPool}

/-- The consumer has taken bytes from the front. -/
structure Takes (state after : RollbufPool) (bytes : Bytes) : Prop where
  split : bytes ++ after.buffered = state.buffered
  room : after.bufferPool.length = state.bufferPool.length
  fewer : after.bufferSize ≤ state.bufferSize
  poolSize : after.poolSize = state.poolSize

theorem Takes.nothing (state : RollbufPool) : state.Takes state [] := ⟨rfl, rfl, Nat.le_refl _, rfl⟩

theorem buffered_length (within : state.bufferSize ≤ state.bufferPool.length) :
    state.buffered.length = state.bufferSize := List.length_take_of_le within

theorem getFinished_eq (within : state.bufferSize ≤ state.bufferPool.length) (bBuffering : Bool) :
    rollbufPoolGetFinished state bBuffering = .ok (.returns 0 state.buffered state.bufferSize
      { state with bufferSize := 0 } (state.bufferingOk bBuffering)) := by
  have read : slice state.bufferPool 0 state.bufferSize = .ok state.buffered := by
    apply slice_ok
    omega
  rw [rollbufPoolGetFinished, read, Nat.sub_self]
  rfl

/-- Bytes that are taken after the end of the stream are the remainder. -/
theorem getLocked_remainder (within : state.bufferSize ≤ state.bufferPool.length)
    (finished : state.finishSingal = true) (running : state.stopSignal = false) {needSize : Nat}
    (bBuffering : Bool) (short : state.bufferSize < needSize) :
    rollbufPoolGetLocked state needSize bBuffering = .ok (.returns 0 state.buffered state.bufferSize
      { state with bufferSize := 0 } (state.bufferingOk bBuffering)) := by
  rw [rollbufPoolGetLocked, if_pos short, if_neg (ne_true_of_eq_false running), if_pos finished]
  exact getFinished_eq within bBuffering

/-- What is asked for and is there comes from the front, and the rest moves up. -/
theorem getFront_takes {needSize : Nat} (within : state.bufferSize ≤ state.bufferPool.length)
    (enough : needSize ≤ state.bufferSize) (bBuffering : Bool) :
    ∃ bytes bufferPool, rollbufPoolGetFront state needSize bBuffering = .ok (.returns 1 bytes needSize
        { state with bufferPool, bufferSize := state.bufferSize - needSize } (state.bufferingOk bBuffering)) ∧
      bytes.length = needSize ∧
      state.Takes { state with bufferPool, bufferSize := state.bufferSize - needSize } bytes := by
  let rest := (state.bufferPool.drop needSize).take (state.bufferSize - needSize)
  have size : rest.length = state.bufferSize - needSize := by
    simp only [rest, List.length_take, List.length_drop]
    omega
  have fits : 0 + rest.length ≤ state.bufferPool.length := by omega
  have front : slice state.bufferPool 0 needSize = .ok (state.bufferPool.take needSize) := by
    apply slice_ok
    omega
  have back : slice state.bufferPool needSize (state.bufferSize - needSize) = .ok rest := by
    apply slice_ok
    omega
  refine ⟨state.bufferPool.take needSize, splice state.bufferPool 0 rest, ?_,
    List.length_take_of_le (Nat.le_trans enough within), ?_, splice_length fits, Nat.sub_le _ _, rfl⟩
  · rw [rollbufPoolGetFront, front]
    dsimp only [bind, Except.bind]
    rw [back]
    dsimp only
    rw [copyInto_ok fits]
    rfl
  · have moved : (splice state.bufferPool 0 rest).take (state.bufferSize - needSize) = rest := by
      rw [splice, List.take_zero, List.nil_append, ← size, List.take_left']
      rfl
    have whole : needSize + (state.bufferSize - needSize) = state.bufferSize := by omega
    change state.bufferPool.take needSize ++ _ = _
    rw [buffered, moved, buffered, ← whole, List.take_add]

private theorem getLocked_front (within : state.bufferSize ≤ state.bufferPool.length)
    (running : state.stopSignal = false) {needSize : Nat} (bBuffering : Bool)
    (enough : needSize ≤ state.bufferSize) :
    ∃ bytes after, rollbufPoolGetLocked state needSize bBuffering =
        .ok (.returns 1 bytes needSize after (state.bufferingOk bBuffering)) ∧
      bytes.length = needSize ∧ state.Takes after bytes := by
  obtain ⟨bytes, bufferPool, front, size, takes⟩ := getFront_takes within enough bBuffering
  refine ⟨bytes, _, ?_, size, takes⟩
  rw [rollbufPoolGetLocked, if_neg (Nat.not_lt.mpr enough), if_neg (ne_true_of_eq_false running)]
  exact front

/-- A section of the consumer comes to a wait, or gives bytes from the front with the right
result. -/
theorem getLocked_cases (within : state.bufferSize ≤ state.bufferPool.length) (needSize : Nat)
    (bBuffering : Bool) :
    (∃ calls, rollbufPoolGetLocked state needSize bBuffering = .ok (.waits calls)) ∨
    ∃ result bytes resultSize after calls, rollbufPoolGetLocked state needSize bBuffering =
        .ok (.returns result bytes resultSize after calls) ∧ state.Takes after bytes ∧
      (RollbufAnswer.mk result needSize bytes resultSize state.buffered state.finishSingal
        state.stopSignal).Right := by
  have length := buffered_length within
  cases stopped : state.stopSignal with
  | true =>
    refine .inr ⟨-1, [], 0, state, state.bufferingOk bBuffering, ?_, .nothing state, ?_⟩
    · rw [rollbufPoolGetLocked, stopped]
      split <;> rfl
    · exact ⟨rfl, nofun, fun _ => nofun⟩
  | false =>
    by_cases short : state.bufferSize < needSize
    · cases finished : state.finishSingal with
      | true =>
        have run := getLocked_remainder within finished stopped bBuffering short
        refine .inr ⟨0, _, _, _, _, run, ⟨?_, rfl, Nat.zero_le _, rfl⟩, length.symm, ?_, ?_⟩
        · exact List.append_nil _
        · exact nofun
        · exact fun _ _ _ => ⟨rfl, rfl⟩
      | false =>
        refine .inl ⟨state.buffering, ?_⟩
        rw [rollbufPoolGetLocked, if_pos short, stopped, finished]
        rfl
    · obtain ⟨bytes, after, run, size, takes⟩ :=
        getLocked_front within stopped bBuffering (Nat.not_lt.mp short)
      refine .inr ⟨1, bytes, needSize, after, _, run, takes, size.symm, fun _ => size, ?_⟩
      intro _ _ less
      exact absurd (length ▸ less) short

private theorem pushTest_passes {size : Nat} {maxSleepTimeMs : Int} (fits : Fits 32 (state.bufferSize + size))
    (passes : rollbufPoolPushTest state size maxSleepTimeMs = .passes) :
    (state.bufferSize + size : Int) < state.poolSize := by
  rw [rollbufPoolPushTest, narrow_of_fits fits (by decide)] at passes
  split at passes
  · split at passes <;> cases passes
  · omega

private theorem pushLocked_ok {data : Bytes} (room : state.bufferSize + data.length ≤ state.bufferPool.length) :
    ∃ after, rollbufPoolPushLocked state data = .ok after ∧
      after.buffered = state.buffered ++ data ∧ after.bufferPool.length = state.bufferPool.length ∧
      after.bufferSize ≤ after.bufferPool.length ∧ after.poolSize = state.poolSize := by
  have length := splice_length room
  refine ⟨{ state with
    bufferPool := splice state.bufferPool state.bufferSize data
    bufferSize := state.bufferSize + data.length }, ?_, ?_, length, ?_, rfl⟩
  · rw [rollbufPoolPushLocked, copyInto_ok room]
    rfl
  · have inside : state.bufferSize ≤ state.bufferPool.length := by omega
    exact splice_upto state.bufferPool data inside (Nat.zero_le _)
  · change _ ≤ (splice state.bufferPool state.bufferSize data).length
    rw [length]
    exact room

end RollbufPool

/-! ### The runs -/

namespace RollbufRun
variable {run after : RollbufRun}

structure Holds (run : RollbufRun) : Prop where
  safe : run.fault = none
  order : run.answers.flatMap RollbufAnswer.bytes ++ run.pool.buffered = run.accepted.flatten
  answers : ∀ answer ∈ run.answers, answer.Right
  sized : (run.pool.bufferPool.length : Int) = run.pool.poolSize
  within : run.pool.bufferSize ≤ run.pool.bufferPool.length
  /-- What the test has found stays true: only the producer adds. -/
  room : ∀ data, run.push = .storing data →
    run.pool.bufferSize + data.length ≤ run.pool.bufferPool.length

theorem Holds.kept (holds : run.Holds) : run.Kept where
  safe := holds.safe
  order := holds.order
  answers := holds.answers
  remainder finished running _ bBuffering short :=
    ⟨_, _, RollbufPool.getLocked_remainder holds.within finished running bBuffering short, rfl⟩

theorem Holds.moved (holds : run.Holds) {push : PushPhase} (other : ∀ data, push ≠ .storing data)
    (refused : List Bytes) : ({ run with push, refused } : RollbufRun).Holds :=
  { holds with room := fun data same => absurd same (other data) }

theorem Holds.locked (holds : run.Holds) (needSize : Nat) (bBuffering : Bool) :
    (run.locked needSize bBuffering).Holds := by
  unfold RollbufRun.locked
  rcases RollbufPool.getLocked_cases holds.within needSize bBuffering with
    ⟨calls, waits⟩ | ⟨result, bytes, resultSize, pool, calls, returns, takes, right⟩
  · rw [waits]
    exact { holds with }
  · rw [returns]
    refine ⟨holds.safe, ?_, ?_, ?_, ?_, ?_⟩
    · rw [← holds.order, ← takes.split]
      simp
    · intro answer member
      rcases List.mem_append.mp member with old | new
      · exact holds.answers answer old
      · exact List.mem_singleton.mp new ▸ right
    · dsimp only
      rw [takes.room, holds.sized, takes.poolSize]
    · exact takes.room ▸ Nat.le_trans takes.fewer holds.within
    · intro data storing
      have room := holds.room data storing
      have fewer := takes.fewer
      dsimp only
      rw [takes.room]
      omega

theorem Holds.tested (holds : run.Holds) {data : Bytes} (maxSleepTimeMs : Int)
    (fits : Fits 32 (run.pool.bufferSize + data.length)) : (run.tested data maxSleepTimeMs).Holds := by
  unfold RollbufRun.tested
  cases test : rollbufPoolPushTest run.pool data.length maxSleepTimeMs with
  | passes =>
    refine { holds with room := fun other same => ?_ }
    obtain rfl := PushPhase.storing.inj same
    have below := RollbufPool.pushTest_passes fits test
    have sized := holds.sized
    dsimp only
    omega
  | sleeps maxSleepTimeMs =>
    apply holds.moved
    exact fun _ => nofun
  | refuses =>
    apply holds.moved
    exact fun _ => nofun

theorem Holds.stored (holds : run.Holds) {data : Bytes} (storing : run.push = .storing data) :
    (run.stored data).Holds := by
  obtain ⟨pool, stored, buffered, length, within, poolSize⟩ :=
    RollbufPool.pushLocked_ok (holds.room data storing)
  rw [RollbufRun.stored, stored]
  refine ⟨holds.safe, ?_, holds.answers, ?_, within, nofun⟩
  · rw [List.flatten_append, ← holds.order, buffered]
    simp
  · dsimp only
    rw [length, holds.sized, poolSize]

theorem Holds.step {action : RollbufAction} (holds : run.Holds) (met : run.Guard action)
    (step : next run action = some after) : after.Holds := by
  have safe : ¬run.fault.isSome = true := by
    rw [holds.safe]
    exact Bool.false_ne_true
  unfold next at step
  rw [if_neg safe] at step
  cases action with
  | push data =>
    dsimp only at step
    split at step
    · split at step
      · obtain rfl := Option.some.inj step
        exact { holds with }
      · obtain rfl := Option.some.inj step
        apply holds.moved
        exact fun _ => nofun
    · cases step
  | test =>
    dsimp only at step
    split at step
    · rename_i data maxSleepTimeMs testing
      obtain rfl := Option.some.inj step
      rw [Guard, testing] at met
      exact holds.tested maxSleepTimeMs met
    · cases step
  | store =>
    dsimp only at step
    split at step
    · rename_i data storing
      obtain rfl := Option.some.inj step
      exact holds.stored storing
    · cases step
  | leave =>
    dsimp only at step
    split at step
    · obtain rfl := Option.some.inj step
      apply holds.moved
      exact fun _ => nofun
    · cases step
  | get needSize =>
    dsimp only at step
    split at step
    · obtain rfl := Option.some.inj step
      exact holds.locked needSize false
    · cases step
  | wake =>
    dsimp only at step
    split at step
    · rename_i needSize _
      obtain rfl := Option.some.inj step
      exact holds.locked needSize true
    · cases step
  | finish =>
    dsimp only at step
    split at step
    · obtain rfl := Option.some.inj step
      exact { holds with }
    · cases step
  | stop =>
    dsimp only at step
    split at step
    · obtain rfl := Option.some.inj step
      exact { holds with }
    · cases step

theorem start_holds (started : system.Start run) : run.Holds := by
  obtain ⟨client, poolSize, memory, _, sized, rfl⟩ := started
  exact ⟨rfl, rfl, nofun, sized, Nat.zero_le _, nofun⟩

/-- In a run whose tests do not overflow the bytes come out as they went in, and each get has
what it should. -/
theorem fifo_of_guard (run : RollbufRun) (reached : system.Reachable Guard run) : run.Kept :=
  (reached.invariant Holds (fun _ => start_holds) fun _ _ _ holds => holds.step).kept

theorem next_test {data : Bytes} {maxSleepTimeMs : Int} (safe : run.fault = none)
    (testing : run.push = .testing data maxSleepTimeMs) :
    next run .test = some (run.tested data maxSleepTimeMs) := by
  simp [next, safe, testing]

theorem next_store {data : Bytes} (safe : run.fault = none) (storing : run.push = .storing data) :
    next run .store = some (run.stored data) := by
  simp [next, safe, storing]

/-- A pool of two bytes. -/
private def twoBytes : RollbufRun := new (rollbufPoolCreate none 2 [0, 0])

private theorem twoBytes_start : system.Start twoBytes :=
  ⟨none, 2, [0, 0], by decide, by decide, rfl⟩

/-- A byte went in. -/
private def oneHeld : RollbufRun :=
  { twoBytes with
    pool.bufferPool := [7, 0]
    pool.bufferSize := 1
    accepted := [[7]] }

private theorem oneHeld_run : system.run twoBytes [.push [7], .test, .store] = some oneHeld := by
  decide

theorem fifo_oneHeld : oneHeld.Kept :=
  fifo_of_guard oneHeld ((System.Reachable.start twoBytes_start).run (by decide) oneHeld_run)

private theorem overflows {data : Bytes} (length : data.length = 2147483647) :
    ∃ after, system.run oneHeld [.push data, .test, .store] = some after ∧
      after.fault = some .outOfBounds := by
  have some_ : data ≠ [] := by
    intro nothing
    rw [nothing] at length
    cases length
  have fits : Fits 32 data.length := by
    rw [length]
    decide
  have pushed : next oneHeld (.push data) =
      some { oneHeld with push := .testing data rollbufPoolMaxBufThrowTimeout } := by
    unfold next
    rw [if_neg (by decide)]
    dsimp only
    rw [if_pos ⟨rfl, some_, fits⟩, if_neg (by decide)]
  have passes : rollbufPoolPushTest oneHeld.pool data.length rollbufPoolMaxBufThrowTimeout =
      .passes := by
    rw [length]
    decide
  have beyond : rollbufPoolPushLocked oneHeld.pool data = .error .outOfBounds := by
    rw [rollbufPoolPushLocked, copyInto, if_neg (by rw [length]; decide)]
    rfl
  have tested : next { oneHeld with push := .testing data rollbufPoolMaxBufThrowTimeout } .test =
      some { oneHeld with push := .storing data } := by
    rw [next_test rfl rfl, RollbufRun.tested, passes]
  have stored : next { oneHeld with push := .storing data } .store =
      some { oneHeld with push := .storing data, fault := some .outOfBounds } := by
    rw [next_store rfl rfl, RollbufRun.stored, beyond]
  exact ⟨_, System.run_cons pushed (System.run_cons tested (System.run_one stored)), rfl⟩

/-- With a byte in the pool, the sum of the test is negative for the largest size of all, and the
bytes go far beyond the pool. -/
theorem not_fifo : system.Start twoBytes ∧
    system.run twoBytes [.push [7], .test, .store] = some oneHeld ∧
    ∃ after, system.run oneHeld [.push (List.replicate 2147483647 0), .test, .store] = some after ∧
      after.fault = some .outOfBounds ∧ ¬after.Kept := by
  obtain ⟨after, run, beyond⟩ := overflows List.length_replicate
  refine ⟨twoBytes_start, oneHeld_run, after, run, beyond, fun kept => ?_⟩
  rw [kept.safe] at beyond
  cases beyond

end RollbufRun
end Livezure.Common
