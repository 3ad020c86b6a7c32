import Livezure.Common.RollbufPool
import Livezure.Core.Calls

/-! The buffer pool between any number of producers, a consumer, and calls of
`rollbuf_pool_finish` and `rollbuf_pool_stop`. The consumer keeps the lock from one of its steps
to the next, until it waits or returns. -/
namespace Livezure.Common
open Livezure.Core

/-! ### The threads -/

/-- Where a producer stands. -/
inductive PushCall where
  | testing (data : Bytes) (maxSleepTimeMs : Int)
  | storing (data : Bytes)
  deriving DecidableEq

/-- Where the consumer stands. -/
inductive GetCall where
  | idle
  /-- Before the tests of the size and of `stop_signal`, with the lock. -/
  | testing (needSize : Nat) (bBuffering : Bool)
  /-- Before the test of `finish_singal`, with the lock. -/
  | finishing (needSize : Nat) (bBuffering : Bool)
  /-- Before `pthread_cond_wait`, with the lock. -/
  | parting (needSize : Nat)
  | waiting (needSize : Nat)
  /-- In `pthread_cond_wait`, on its way back. -/
  | woken (needSize : Nat)
  deriving DecidableEq

namespace GetCall

def hasLock : GetCall → Bool
  | .testing _ _ | .finishing _ _ | .parting _ => true
  | _ => false

def isWaiting : GetCall → Bool
  | .waiting _ => true
  | _ => false

def signalled : GetCall → GetCall
  | .waiting needSize => .woken needSize
  | call => call

end GetCall

inductive RollbufFlag where
  | finish
  | stop
  deriving DecidableEq

def RollbufPool.raise (state : RollbufPool) : RollbufFlag → RollbufPool
  | .finish => { state with finishSingal := true }
  | .stop => { state with stopSignal := true }

def RollbufPool.isRaised (state : RollbufPool) : RollbufFlag → Bool
  | .finish => state.finishSingal
  | .stop => state.stopSignal

inductive RollbufFault where
  | memory (fault : Fault)
  /-- `pthread_mutex_unlock` by a thread that does not have the lock. -/
  | unlock
  deriving DecidableEq

structure RollbufThreads where
  pool : RollbufPool
  pushes : List PushCall
  get : GetCall
  /-- The calls that have stored their flag, and not signalled yet. -/
  raising : List RollbufFlag
  raised : List RollbufFlag
  answers : List (Int × Bytes × Nat)
  calls : List RollbufCallback
  fault : Option RollbufFault
  deriving DecidableEq

inductive ThreadsAction where
  | push (data : Bytes)
  | test (index : Nat)
  | store (index : Nat)
  | get (needSize : Nat)
  | advance
  | wake
  | raise (flag : RollbufFlag)
  | signal (index : Nat)
  deriving DecidableEq

namespace RollbufThreads

def new (pool : RollbufPool) : RollbufThreads where
  pool := pool
  pushes := []
  get := .idle
  raising := []
  raised := []
  answers := []
  calls := []
  fault := none

/-- The test of `stop_signal`, and behind it an unlock in vain. -/
def pushed (run : RollbufThreads) (data : Bytes) : RollbufThreads :=
  if run.pool.stopSignal then { run with fault := some .unlock }
  else { run with pushes := run.pushes ++ [.testing data rollbufPoolMaxBufThrowTimeout] }

def tested (run : RollbufThreads) (index : Nat) (data : Bytes) (maxSleepTimeMs : Int) :
    RollbufThreads :=
  match rollbufPoolPushTest run.pool data.length maxSleepTimeMs with
  | .passes => { run with pushes := run.pushes.set index (.storing data) }
  | .sleeps maxSleepTimeMs => { run with pushes := run.pushes.set index (.testing data maxSleepTimeMs) }
  | .refuses => { run with pushes := run.pushes.eraseIdx index }

def stored (run : RollbufThreads) (index : Nat) (data : Bytes) : RollbufThreads :=
  match rollbufPoolPushLocked run.pool data with
  | .error fault => { run with fault := some (.memory fault) }
  | .ok pool => { run with
      pool, pushes := run.pushes.eraseIdx index, get := run.get.signalled }

def got (run : RollbufThreads) (needSize : Nat) : Except Fault GetLocked → RollbufThreads
  | .error fault => { run with fault := some (.memory fault) }
  | .ok (.waits calls) => { run with get := .parting needSize, calls := run.calls ++ calls }
  | .ok (.returns result bytes resultSize pool calls) => { run with
      pool
      get := .idle
      answers := run.answers ++ [(result, bytes, resultSize)]
      calls := run.calls ++ calls }

def advanced (run : RollbufThreads) : Option RollbufThreads :=
  match run.get with
  | .testing needSize bBuffering =>
    some <|
      if run.pool.stopSignal then run.got needSize (.ok (rollbufPoolGetStopped run.pool bBuffering))
      else if run.pool.bufferSize < needSize then { run with get := .finishing needSize bBuffering }
      else run.got needSize (rollbufPoolGetFront run.pool needSize bBuffering)
  | .finishing needSize bBuffering =>
    some (run.got needSize
      (if run.pool.finishSingal then rollbufPoolGetFinished run.pool bBuffering
        else .ok (.waits run.pool.buffering)))
  | .parting needSize => some { run with get := .waiting needSize }
  | .woken needSize => some { run with get := .testing needSize true }
  | .idle | .waiting _ => none

/-- The lock sections of the producers are one step each, and between two steps only the consumer
has the lock. The sizes are values of `int`. -/
def next (run : RollbufThreads) (action : ThreadsAction) : Option RollbufThreads :=
  if run.fault.isSome then none
  else
    match action with
    | .push data => if Fits 32 data.length then some (run.pushed data) else none
    | .test index =>
      match run.pushes[index]? with
      | some (.testing data maxSleepTimeMs) => some (run.tested index data maxSleepTimeMs)
      | _ => none
    | .store index =>
      match run.pushes[index]? with
      | some (.storing data) => if run.get.hasLock then none else some (run.stored index data)
      | _ => none
    | .get needSize =>
      if run.get = .idle ∧ Fits 32 needSize then some { run with get := .testing needSize false }
      else none
    | .advance => run.advanced
    | .wake => if run.get.isWaiting then some { run with get := run.get.signalled } else none
    | .raise flag => some { run with pool := run.pool.raise flag, raising := run.raising ++ [flag] }
    | .signal index => run.raising[index]?.map fun flag =>
      { run with
        raising := run.raising.eraseIdx index
        raised := flag :: run.raised
        get := run.get.signalled }

def system : System RollbufThreads ThreadsAction where
  Start run := ∃ client poolSize memory, Fits 32 poolSize ∧
    (memory.length : Int) = rollbufPoolSize poolSize ∧
    run = new (rollbufPoolCreate client poolSize memory)
  next := next

/-- The bytes stay within the pool, and nobody waits for a signal that was given. -/
structure Sound (run : RollbufThreads) : Prop where
  safe : run.fault = none
  bounded : run.pool.bufferSize ≤ run.pool.poolSize
  awake : run.raised ≠ [] → run.get.isWaiting = false

end RollbufThreads

/-- The bytes that a producer is going to store without a further test. -/
def PushCall.claimed : PushCall → Nat
  | .testing _ _ => 0
  | .storing data => data.length

/-- The consumer has found the flag down, and is on its way to the wait. -/
def GetCall.misses : GetCall → RollbufFlag → Bool
  | .finishing _ _, .stop => true
  | .parting _, _ => true
  | _, _ => false

namespace RollbufThreads

/-- The bytes of all producers between their test and their lock. -/
def claimed (run : RollbufThreads) : Nat := heldBy PushCall.claimed run.pushes

/-- No push begins after the stop; a test that passes leaves room for all that have passed theirs;
a flag is not signalled while the consumer, which has found it down, is on its way to the wait. -/
def Guard (run : RollbufThreads) : ThreadsAction → Prop
  | .push _ => run.pool.stopSignal = false
  | .test index =>
    match run.pushes[index]? with
    | some (.testing data maxSleepTimeMs) =>
      rollbufPoolPushTest run.pool data.length maxSleepTimeMs = .passes →
        run.pool.bufferSize + run.claimed + data.length ≤ run.pool.poolSize
    | _ => True
  | .signal index => ∀ flag ∈ run.raising[index]?, run.get.misses flag = false
  | _ => True

instance (run : RollbufThreads) (action : ThreadsAction) : Decidable (run.Guard action) := by
  unfold Guard
  split
  · infer_instance
  · split <;> infer_instance
  · infer_instance
  · infer_instance

end RollbufThreads

/-! ### The lock sections -/

namespace RollbufPool
variable {state after : RollbufPool}

/-- A step leaves the pool its memory and its flags. -/
structure Keeps (state after : RollbufPool) : Prop where
  room : after.bufferPool.length = state.bufferPool.length
  poolSize : after.poolSize = state.poolSize
  flags : ∀ flag, after.isRaised flag = state.isRaised flag

theorem Keeps.refl (state : RollbufPool) : state.Keeps state := ⟨rfl, rfl, fun _ => rfl⟩

private theorem keeps_bytes {bufferPool : Bytes} (bufferSize : Nat)
    (room : bufferPool.length = state.bufferPool.length) :
    state.Keeps { state with bufferPool, bufferSize } :=
  ⟨room, rfl, fun flag => by cases flag <;> rfl⟩

theorem raise_keeps (state : RollbufPool) (flag : RollbufFlag) :
    (state.raise flag).bufferPool = state.bufferPool ∧
      (state.raise flag).bufferSize = state.bufferSize ∧
      (state.raise flag).poolSize = state.poolSize := by
  cases flag <;> exact ⟨rfl, rfl, rfl⟩

theorem raise_raised (state : RollbufPool) (flag : RollbufFlag) :
    (state.raise flag).isRaised flag = true := by
  cases flag <;> rfl

theorem raise_stays {other : RollbufFlag} (flag : RollbufFlag) (raised : state.isRaised other = true) :
    (state.raise flag).isRaised other = true := by
  cases flag <;> cases other
  · rfl
  · exact raised
  · exact raised
  · rfl

private theorem getFinished_ok (within : state.bufferSize ≤ state.bufferPool.length) (bBuffering : Bool) :
    ∃ result bytes resultSize after calls, rollbufPoolGetFinished state bBuffering =
        .ok (.returns result bytes resultSize after calls) ∧
      state.Keeps after ∧ after.bufferSize ≤ state.bufferSize :=
  ⟨_, _, _, _, _, getFinished_eq within bBuffering, keeps_bytes 0 rfl, Nat.zero_le _⟩

private theorem getFront_ok {needSize : Nat} (within : state.bufferSize ≤ state.bufferPool.length)
    (enough : needSize ≤ state.bufferSize) (bBuffering : Bool) :
    ∃ result bytes resultSize after calls, rollbufPoolGetFront state needSize bBuffering =
        .ok (.returns result bytes resultSize after calls) ∧
      state.Keeps after ∧ after.bufferSize ≤ state.bufferSize := by
  obtain ⟨bytes, bufferPool, front, _, takes⟩ := getFront_takes within enough bBuffering
  exact ⟨_, _, _, _, _, front, keeps_bytes _ takes.room, takes.fewer⟩

private theorem pushLocked_keeps {data : Bytes}
    (room : state.bufferSize + data.length ≤ state.bufferPool.length) :
    ∃ after, rollbufPoolPushLocked state data = .ok after ∧ state.Keeps after ∧
      after.bufferSize = state.bufferSize + data.length := by
  refine ⟨_, ?_, keeps_bytes (state.bufferSize + data.length) (splice_length room), rfl⟩
  rw [rollbufPoolPushLocked, copyInto_ok room]
  rfl

end RollbufPool

@[simp] theorem GetCall.signalled_misses (get : GetCall) (flag : RollbufFlag) :
    get.signalled.misses flag = get.misses flag := by
  cases get <;> rfl

@[simp] theorem GetCall.signalled_waiting (get : GetCall) : get.signalled.isWaiting = false := by
  cases get <;> rfl

/-! ### The runs -/

namespace RollbufThreads
variable {run after : RollbufThreads}

/-- What the flags of the calls that have returned say of the consumer. -/
structure Heard (raised : List RollbufFlag) (pool : RollbufPool) (get : GetCall) : Prop where
  up : ∀ flag ∈ raised, pool.isRaised flag = true
  found : ∀ flag ∈ raised, get.misses flag = false
  awake : raised ≠ [] → get.isWaiting = false

structure Holds (run : RollbufThreads) : Prop where
  safe : run.fault = none
  sized : (run.pool.bufferPool.length : Int) = run.pool.poolSize
  /-- The producers behind their test have room for all their bytes. -/
  room : run.pool.bufferSize + run.claimed ≤ run.pool.bufferPool.length
  up : ∀ flag ∈ run.raising, run.pool.isRaised flag = true
  heard : Heard run.raised run.pool run.get

theorem Holds.within (holds : run.Holds) : run.pool.bufferSize ≤ run.pool.bufferPool.length :=
  Nat.le_trans (Nat.le_add_right _ _) holds.room

theorem Holds.sound (holds : run.Holds) : run.Sound where
  safe := holds.safe
  bounded := by
    rw [← holds.sized]
    exact_mod_cast holds.within
  awake := holds.heard.awake

section Heard
variable {raised : List RollbufFlag} {pool : RollbufPool} {get : GetCall}

theorem Heard.signalled (heard : Heard raised pool get) : Heard raised pool get.signalled where
  up := heard.up
  found flag member := by
    rw [GetCall.signalled_misses]
    exact heard.found flag member
  awake _ := get.signalled_waiting

/-- The consumer is somewhere where it has found no flag down. -/
theorem Heard.fresh (heard : Heard raised pool get) {next : GetCall}
    (found : ∀ flag, next.misses flag = false) (awake : next.isWaiting = false) :
    Heard raised pool next :=
  ⟨heard.up, fun flag _ => found flag, fun _ => awake⟩

/-- A flag that is down has not been announced. -/
theorem Heard.down (heard : Heard raised pool get) {flag : RollbufFlag}
    (down : pool.isRaised flag = false) : flag ∉ raised :=
  fun member => Bool.false_ne_true (down ▸ heard.up flag member)

/-- Whoever has found all flags down has missed no call that returned. -/
theorem Heard.none_raised (heard : Heard raised pool get) (misses : ∀ flag, get.misses flag = true) :
    raised = [] := by
  apply List.eq_nil_iff_forall_not_mem.mpr
  intro flag member
  exact Bool.false_ne_true (heard.found flag member ▸ misses flag)

theorem Heard.pool_keeps (heard : Heard raised pool get) {next : RollbufPool}
    (keeps : pool.Keeps next) : Heard raised next get :=
  { heard with up := fun flag member => keeps.flags flag ▸ heard.up flag member }

end Heard

theorem Holds.returns (holds : run.Holds) (needSize : Nat) {result : Except Fault GetLocked}
    (ok : ∃ code bytes resultSize pool calls, result = .ok (.returns code bytes resultSize pool calls) ∧
      run.pool.Keeps pool ∧ pool.bufferSize ≤ run.pool.bufferSize) :
    (run.got needSize result).Holds := by
  obtain ⟨code, bytes, resultSize, pool, calls, rfl, keeps, fewer⟩ := ok
  have room := holds.room
  refine ⟨holds.safe, ?_, ?_, ?_, ?_⟩
  · dsimp only [got]
    rw [keeps.room, keeps.poolSize, holds.sized]
  · dsimp only [got, claimed] at room ⊢
    rw [keeps.room]
    omega
  · exact fun flag member => keeps.flags flag ▸ holds.up flag member
  · exact (holds.heard.fresh (fun _ => rfl) rfl).pool_keeps keeps

theorem Holds.advanced (holds : run.Holds) (step : run.advanced = some after) : after.Holds := by
  have heard := holds.heard
  unfold RollbufThreads.advanced at step
  cases place : run.get with
  | testing needSize bBuffering =>
    rw [place] at step heard
    obtain rfl := Option.some.inj step
    cases stopped : run.pool.stopSignal with
    | true =>
      rw [if_pos rfl]
      exact holds.returns needSize ⟨_, _, _, _, _, rfl, .refl _, Nat.le_refl _⟩
    | false =>
      rw [if_neg Bool.false_ne_true]
      split
      · -- `stop_signal` is down, so no stop has returned
        refine { holds with heard := ⟨heard.up, fun flag member => ?_, fun _ => rfl⟩ }
        cases flag with
        | finish => rfl
        | stop => exact absurd member (heard.down stopped)
      · rename_i enough
        exact holds.returns needSize
          (RollbufPool.getFront_ok holds.within (Nat.not_lt.mp enough) bBuffering)
  | finishing needSize bBuffering =>
    rw [place] at step heard
    obtain rfl := Option.some.inj step
    cases finished : run.pool.finishSingal with
    | true =>
      rw [if_pos rfl]
      exact holds.returns needSize (RollbufPool.getFinished_ok holds.within bBuffering)
    | false =>
      rw [if_neg Bool.false_ne_true]
      refine { holds with heard := ⟨heard.up, fun flag member => ?_, fun _ => rfl⟩ }
      cases flag with
      | finish => exact absurd member (heard.down finished)
      | stop => exact absurd (heard.found .stop member) nofun
  | parting needSize =>
    rw [place] at step heard
    obtain rfl := Option.some.inj step
    have none_ := heard.none_raised fun _ => rfl
    exact { holds with
      heard := ⟨heard.up, fun _ _ => rfl, fun some_ => absurd none_ some_⟩ }
  | woken needSize =>
    rw [place] at step heard
    obtain rfl := Option.some.inj step
    exact { holds with heard := heard.fresh (fun _ => rfl) rfl }
  | idle =>
    rw [place] at step
    cases step
  | waiting needSize =>
    rw [place] at step
    cases step

/-- The room for what is stored was claimed behind the test. -/
theorem Holds.stored (holds : run.Holds) {index : Nat} {data : Bytes}
    (storing : run.pushes[index]? = some (.storing data)) : (run.stored index data).Holds := by
  have apart : run.claimed = data.length + heldBy PushCall.claimed (run.pushes.eraseIdx index) :=
    heldBy_apart PushCall.claimed storing
  have room := holds.room
  have fits : run.pool.bufferSize + data.length ≤ run.pool.bufferPool.length := by omega
  obtain ⟨pool, stored, keeps, size⟩ := RollbufPool.pushLocked_keeps fits
  rw [RollbufThreads.stored, stored]
  refine ⟨holds.safe, ?_, ?_, ?_, ?_⟩
  · dsimp only
    rw [keeps.room, keeps.poolSize, holds.sized]
  · dsimp only [claimed]
    rw [keeps.room, size]
    omega
  · exact fun flag member => keeps.flags flag ▸ holds.up flag member
  · exact holds.heard.signalled.pool_keeps keeps

/-- A test that passes claims the room that the condition has it leave. -/
theorem Holds.tested (holds : run.Holds) {index : Nat} {data : Bytes} {maxSleepTimeMs : Int}
    (testing : run.pushes[index]? = some (.testing data maxSleepTimeMs))
    (leaves : rollbufPoolPushTest run.pool data.length maxSleepTimeMs = .passes →
      run.pool.bufferSize + run.claimed + data.length ≤ run.pool.poolSize) :
    (run.tested index data maxSleepTimeMs).Holds := by
  have apart : run.claimed = 0 + heldBy PushCall.claimed (run.pushes.eraseIdx index) :=
    heldBy_apart PushCall.claimed testing
  have sized := holds.sized
  have room := holds.room
  unfold RollbufThreads.tested
  cases test : rollbufPoolPushTest run.pool data.length maxSleepTimeMs with
  | passes =>
    have fits := leaves test
    refine { holds with room := ?_ }
    dsimp only [claimed]
    rw [heldBy_set PushCall.claimed testing]
    change _ + (data.length + _) ≤ _
    omega
  | sleeps left =>
    refine { holds with room := ?_ }
    dsimp only [claimed]
    rw [heldBy_set PushCall.claimed testing]
    change _ + (0 + _) ≤ _
    omega
  | refuses =>
    refine { holds with room := ?_ }
    dsimp only [claimed]
    omega

theorem Holds.pushed (holds : run.Holds) {data : Bytes} (running : run.pool.stopSignal = false) :
    (run.pushed data).Holds := by
  rw [RollbufThreads.pushed, running, if_neg Bool.false_ne_true]
  refine { holds with room := ?_ }
  dsimp only [claimed]
  rw [heldBy_append, heldBy_one]
  exact holds.room

theorem Holds.raises (holds : run.Holds) (flag : RollbufFlag) :
    ({ run with pool := run.pool.raise flag, raising := run.raising ++ [flag] } : RollbufThreads).Holds := by
  obtain ⟨pool, size, poolSize⟩ := run.pool.raise_keeps flag
  refine ⟨holds.safe, ?_, ?_, ?_, ?_⟩
  · dsimp only
    rw [pool, poolSize, holds.sized]
  · dsimp only [claimed]
    rw [pool, size]
    exact holds.room
  · intro other member
    rcases List.mem_append.mp member with old | new
    · exact run.pool.raise_stays flag (holds.up other old)
    · obtain rfl := List.mem_singleton.mp new
      exact run.pool.raise_raised other
  · exact { holds.heard with
      up := fun other member => run.pool.raise_stays flag (holds.heard.up other member) }

theorem Holds.signals (holds : run.Holds) {index : Nat} {flag : RollbufFlag}
    (raising : run.raising[index]? = some flag) (found : run.get.misses flag = false) :
    ({ run with
      raising := run.raising.eraseIdx index
      raised := flag :: run.raised
      get := run.get.signalled } : RollbufThreads).Holds := by
  have signalled := holds.heard.signalled
  refine { holds with up := ?_, heard := ⟨?_, ?_, ?_⟩ }
  · exact fun other member => holds.up other (List.mem_of_mem_eraseIdx member)
  · rw [List.forall_mem_cons]
    exact ⟨holds.up flag (List.mem_of_getElem? raising), signalled.up⟩
  · rw [List.forall_mem_cons, GetCall.signalled_misses]
    exact ⟨found, signalled.found⟩
  · exact fun _ => run.get.signalled_waiting

theorem Holds.step {action : ThreadsAction} (holds : run.Holds) (met : run.Guard action)
    (step : next run action = some after) : after.Holds := by
  have safe : ¬run.fault.isSome = true := by
    rw [holds.safe]
    exact Bool.false_ne_true
  unfold next at step
  rw [if_neg safe] at step
  cases action with
  | push data =>
    dsimp only at step
    split at step
    · obtain rfl := Option.some.inj step
      exact holds.pushed met
    · cases step
  | test index =>
    dsimp only at step
    split at step
    · rename_i data maxSleepTimeMs testing
      obtain rfl := Option.some.inj step
      dsimp only [Guard] at met
      rw [testing] at met
      exact holds.tested testing met
    · cases step
  | store index =>
    dsimp only at step
    split at step
    · rename_i data storing
      split at step
      · cases step
      · obtain rfl := Option.some.inj step
        exact holds.stored storing
    · cases step
  | get needSize =>
    dsimp only at step
    split at step
    · obtain rfl := Option.some.inj step
      exact { holds with heard := holds.heard.fresh (fun _ => rfl) rfl }
    · cases step
  | advance => exact holds.advanced step
  | wake =>
    dsimp only at step
    split at step
    · obtain rfl := Option.some.inj step
      exact { holds with heard := holds.heard.signalled }
    · cases step
  | raise flag =>
    obtain rfl := Option.some.inj step
    exact holds.raises flag
  | signal index =>
    obtain ⟨flag, raising, rfl⟩ := Option.map_eq_some_iff.mp step
    exact holds.signals raising (met flag raising)

theorem start_holds (started : system.Start run) : run.Holds := by
  obtain ⟨client, poolSize, memory, _, sized, rfl⟩ := started
  exact ⟨rfl, sized, Nat.zero_le _, nofun, nofun, nofun, fun some_ => absurd rfl some_⟩

/-- In a run whose steps all meet the condition the bytes of all producers stay within the pool,
and a finish or a stop that has returned does not leave the consumer asleep. -/
theorem sound_of_guard (run : RollbufThreads) (reached : system.Reachable Guard run) : run.Sound :=
  (reached.invariant Holds (fun _ => start_holds) fun _ _ _ holds => holds.step).sound

/-! ### What goes wrong -/

/-- A pool of three bytes. -/
private def threeBytes : RollbufThreads := new (rollbufPoolCreate none 3 [0, 0, 0])

private theorem threeBytes_start : system.Start threeBytes :=
  ⟨none, 3, [0, 0, 0], by decide, by decide, rfl⟩

/-- A consumer waits for two bytes, a producer puts one, and the pool is finished. -/
private def fed : RollbufThreads :=
  { threeBytes with
    pool.bufferPool := [7, 0, 0]
    pool.bufferSize := 0
    pool.finishSingal := true
    get := .idle
    raised := [.finish]
    answers := [(0, [7], 1)] }

private theorem fed_run : system.run threeBytes [.get 2, .advance, .advance, .advance, .push [7],
    .test 0, .store 0, .advance, .advance, .advance, .advance, .raise .finish, .signal 0, .advance,
    .advance, .advance] = some fed := by
  decide

theorem sound_fed : fed.Sound :=
  sound_of_guard fed ((System.Reachable.start threeBytes_start).run (by decide) fed_run)

/-- Two producers of two bytes both find room in a pool of three. -/
private def overrun : List ThreadsAction :=
  [.push [1, 1], .push [2, 2], .test 0, .test 1, .store 0, .store 0]

/-- The pool is finished while the consumer, behind its test, goes to wait. -/
private def unheard : List ThreadsAction :=
  [.get 1, .advance, .advance, .raise .finish, .signal 0, .advance]

/-- A push after the stop unlocks what it has not locked. -/
private def unlocked : List ThreadsAction := [.raise .stop, .signal 0, .push [1]]

theorem not_sound : system.Start threeBytes ∧
    (∃ after, system.run threeBytes overrun = some after ∧
      after.fault = some (.memory .outOfBounds) ∧ ¬after.Sound) ∧
    (∃ after, system.run threeBytes unheard = some after ∧ after.raised = [.finish] ∧
      after.get = .waiting 1 ∧ ¬after.Sound) ∧
    ∃ after, system.run threeBytes unlocked = some after ∧ after.fault = some .unlock ∧
      ¬after.Sound := by
  refine ⟨threeBytes_start, ⟨_, rfl, rfl, fun sound => ?_⟩, ⟨_, rfl, rfl, rfl, fun sound => ?_⟩,
    ⟨_, rfl, rfl, fun sound => ?_⟩⟩
  · cases sound.safe
  · cases sound.awake nofun
  · cases sound.safe

end RollbufThreads
end Livezure.Common
