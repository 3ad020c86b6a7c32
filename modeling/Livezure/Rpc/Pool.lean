import Livezure.Core.Memory
import Livezure.Core.Transition

/-! The thread pool (`rpc_threadpool.c`): its threads, the workers that are registered for them
and `rpc_tp_destroy`, step by step. -/
namespace Livezure.Rpc
open Livezure.Core

inductive RpcTpState where
  | idle
  | busy
  | complete
  deriving DecidableEq

/-- `rpc_tp_worker`. The callbacks and what they get and give are pointers. -/
structure RpcTpWorker where
  processCb : Nat
  completeCb : Nat
  arg : Nat
  result : Nat
  sem : Nat
  state : RpcTpState
  isFreed : Bool
  deriving DecidableEq

/-- Where a thread is in `rpc_tp_routine`, with the worker that it has taken. -/
inductive RoutinePhase where
  | looking
  | waiting
  | taken (worker : Nat)
  | busy (worker : Nat)
  | processing (worker : Nat)
  | returned (worker : Nat) (result : Nat)
  | stored (worker : Nat)
  | complete (worker : Nat)
  | posted (worker : Nat)
  | completing (worker : Nat)
  /-- In `complete_cb`, behind `rpc_tp_worker_free`. -/
  | released (worker : Nat)
  | exited
  deriving DecidableEq

inductive RpcTpKill where
  | immediate
  | wait
  deriving DecidableEq

inductive DestroyPhase where
  | uncalled
  | polling
  | aborting
  | joining (index : Nat)
  | draining
  | returned
  deriving DecidableEq

inductive RpcTpEvent where
  | registered (worker processCb completeCb arg : Nat)
  | taken (worker : Nat)
  | process (worker processCb arg : Nat)
  | processed (worker result : Nat)
  | complete (worker completeCb result arg : Nat)
  | completed (worker : Nat)
  deriving DecidableEq

def RpcTpEvent.worker : RpcTpEvent → Nat
  | .registered worker _ _ _ => worker
  | .taken worker => worker
  | .process worker _ _ => worker
  | .processed worker _ => worker
  | .complete worker _ _ _ => worker
  | .completed worker => worker

/-- `rpc_tp`; a worker's place in `workers` stands for its address. -/
structure RpcTp where
  workers : List RpcTpWorker
  workerQueue : List Nat
  thread : List RoutinePhase
  abort : Bool
  destroy : DestroyPhase
  events : List RpcTpEvent
  deriving DecidableEq

namespace RpcTp

def deref (pool : RpcTp) (worker : Nat) : Except Fault RpcTpWorker :=
  match pool.workers[worker]? with
  | none => .error .outOfBounds
  | some cell => if cell.isFreed then .error .useAfterFree else .ok cell

def write (pool : RpcTp) (worker : Nat) (f : RpcTpWorker → RpcTpWorker) : Except Fault RpcTp := do
  let cell ← pool.deref worker
  return { pool with workers := pool.workers.set worker (f cell) }

/-- A queue operation writes to a neighbour, if there is one. -/
def link (pool : RpcTp) : Option Nat → Except Fault Unit
  | none => .ok ()
  | some worker => (pool.deref worker).map fun _ => ()

def goto (pool : RpcTp) (index : Nat) (phase : RoutinePhase) : RpcTp :=
  { pool with thread := pool.thread.set index phase }

def log (pool : RpcTp) (event : RpcTpEvent) : RpcTp :=
  { pool with events := pool.events ++ [event] }

/-- The part of `rpc_tp_routine` under the mutex. -/
def rpcTpRoutineLook (pool : RpcTp) (index : Nat) : Except Fault RpcTp :=
  if pool.destroy = .returned then .error .useAfterFree
  else
    match pool.workerQueue with
    | [] => .ok (pool.goto index (if pool.abort then .exited else .waiting))
    | worker :: rest => do
      let _ ← pool.deref worker
      pool.link rest.head?
      return { (pool.log (.taken worker)).goto index (.taken worker) with workerQueue := rest }

/-- The next step of a thread, unless it waits for a callback or for others. -/
def rpcTpRoutine (pool : RpcTp) (index : Nat) : RoutinePhase → Option (Except Fault RpcTp)
  | .looking => some (pool.rpcTpRoutineLook index)
  | .taken worker => some do
    let pool ← pool.write worker fun cell => { cell with state := .busy }
    return pool.goto index (.busy worker)
  | .busy worker => some do
    let cell ← pool.deref worker
    return (pool.log (.process worker cell.processCb cell.arg)).goto index (.processing worker)
  | .returned worker result => some do
    let pool ← pool.write worker fun cell => { cell with result }
    return pool.goto index (.stored worker)
  | .stored worker => some do
    let pool ← pool.write worker fun cell => { cell with state := .complete }
    return pool.goto index (.complete worker)
  | .complete worker => some do
    let pool ← pool.write worker fun cell => { cell with sem := cell.sem + 1 }
    return pool.goto index (.posted worker)
  | .posted worker => some do
    let cell ← pool.deref worker
    if cell.completeCb ≠ 0 then
      return (pool.log (.complete worker cell.completeCb cell.result cell.arg)).goto index
        (.completing worker)
    else return pool.goto index .looking
  | .waiting | .processing _ | .completing _ | .released _ | .exited => none

def rpcTpWorkerRegister (pool : RpcTp) (processCb completeCb arg : Nat) :
    Except Fault (RpcTp × Option Nat) :=
  if pool.abort ∨ processCb = 0 ∨ completeCb = 0 then .ok (pool, none)
  else do
    let worker := pool.workers.length
    pool.link pool.workerQueue.getLast?
    return ({ pool.log (.registered worker processCb completeCb arg) with
      workers := pool.workers ++ [⟨processCb, completeCb, arg, 0, 0, .idle, false⟩]
      workerQueue := pool.workerQueue ++ [worker] }, some worker)

/-- Whom `pthread_cond_signal` may wake. -/
def Signals (pool : RpcTp) : Option Nat → Prop
  | some index => pool.thread[index]? = some .waiting
  | none => .waiting ∉ pool.thread

instance (pool : RpcTp) : (woken : Option Nat) → Decidable (pool.Signals woken)
  | some index => inferInstanceAs (Decidable (pool.thread[index]? = some .waiting))
  | none => inferInstanceAs (Decidable (.waiting ∉ pool.thread))

def wake (pool : RpcTp) : Option Nat → RpcTp
  | some index => pool.goto index .looking
  | none => pool

def rpcTpWorkerFree (pool : RpcTp) (worker : Nat) : Except Fault RpcTp :=
  pool.write worker fun cell => { cell with sem := cell.sem + 1, isFreed := true }

/-- `pthread_cond_broadcast`. -/
def broadcast (phase : RoutinePhase) : RoutinePhase :=
  if phase = .waiting then .looking else phase

def rpcTpDestroy (pool : RpcTp) : DestroyPhase → Option (Except Fault RpcTp)
  | .polling =>
    some (.ok (if pool.workerQueue = [] then { pool with destroy := .aborting } else pool))
  | .aborting => some (.ok { pool with
      abort := true, thread := pool.thread.map broadcast, destroy := .joining 0 })
  | .joining index =>
    match pool.thread[index]? with
    | none => some (.ok { pool with destroy := .draining })
    | some .exited => some (.ok { pool with destroy := .joining (index + 1) })
    | some _ => none
  | .draining =>
    match pool.workerQueue with
    | [] => some (.ok { pool with destroy := .returned })
    | worker :: rest => some do
      let _ ← pool.deref worker
      pool.link rest.head?
      rpcTpWorkerFree { pool with workerQueue := rest } worker
  | .uncalled | .returned => none

inductive Action where
  /-- `rpc_tp_worker_register` and the thread that its signal wakes. -/
  | register (processCb completeCb arg : Nat) (woken : Option Nat)
  | routine (index : Nat)
  | processed (index result : Nat)
  | free (index : Nat)
  | completed (index : Nat)
  | wakeup (index : Nat)
  | destroy (kill : RpcTpKill)
  | destroyer
  deriving DecidableEq

/-- An action, where it is enabled. Workers are registered before `rpc_tp_destroy` is called. -/
def next (pool : RpcTp) : Action → Option (Except Fault RpcTp)
  | .register processCb completeCb arg woken =>
    if pool.destroy = .uncalled then
      match pool.rpcTpWorkerRegister processCb completeCb arg with
      | .error fault => some (.error fault)
      | .ok (after, none) => if woken = none then some (.ok after) else none
      | .ok (after, some _) => if pool.Signals woken then some (.ok (after.wake woken)) else none
    else none
  | .routine index => do
    let phase ← pool.thread[index]?
    pool.rpcTpRoutine index phase
  | .processed index result =>
    match pool.thread[index]? with
    | some (.processing worker) =>
      some (.ok ((pool.log (.processed worker result)).goto index (.returned worker result)))
    | _ => none
  | .free index =>
    match pool.thread[index]? with
    | some (.completing worker) => some do
      let pool ← pool.rpcTpWorkerFree worker
      return pool.goto index (.released worker)
    | _ => none
  | .completed index =>
    match pool.thread[index]? with
    | some (.completing worker) | some (.released worker) =>
      some (.ok ((pool.log (.completed worker)).goto index .looking))
    | _ => none
  | .wakeup index =>
    if pool.thread[index]? = some .waiting then some (.ok (pool.goto index .looking)) else none
  | .destroy kill =>
    if pool.destroy = .uncalled then some (.ok (
      if pool.abort then pool
      else { pool with destroy := if kill = .wait then .polling else .aborting }))
    else none
  | .destroyer => pool.rpcTpDestroy pool.destroy

def create (nthreads : Nat) : RpcTp where
  workers := []
  workerQueue := []
  thread := List.replicate nthreads .looking
  abort := false
  destroy := .uncalled
  events := []

/-- A pool from `rpc_tp_create` on, which asserts that it has a thread. Undefined behaviour is
a last state. -/
def system : System (Except Fault RpcTp) Action where
  Start := fun state => ∃ nthreads, 0 < nthreads ∧ state = .ok (create nthreads)
  next := fun state action =>
    match state with
    | .error _ => none
    | .ok pool => pool.next action

/-! ### What the pool is for -/

def life (worker processCb completeCb arg result : Nat) : List RpcTpEvent :=
  [.registered worker processCb completeCb arg, .taken worker, .process worker processCb arg,
    .processed worker result, .complete worker completeCb result arg, .completed worker]

def registrations (events : List RpcTpEvent) : List Nat :=
  events.filterMap fun event => match event with
    | .registered worker _ _ _ => some worker
    | _ => none

def takings (events : List RpcTpEvent) : List Nat :=
  events.filterMap fun event => match event with
    | .taken worker => some worker
    | _ => none

def eventsOf (worker : Nat) (events : List RpcTpEvent) : List RpcTpEvent :=
  events.filter fun event => decide (event.worker = worker)

/-- Workers are taken in order, and each has its callbacks once and in order. Behind
`rpc_tp_destroy` each has had them, and nothing more happens. -/
structure Serves (pool : RpcTp) : Prop where
  order : takings pool.events ++ pool.workerQueue = registrations pool.events
  once : ∀ worker ∈ registrations pool.events, ∃ processCb completeCb arg result,
    eventsOf worker pool.events <+: life worker processCb completeCb arg result
  emptied : pool.destroy = .returned → pool.workerQueue = []
  exited : pool.destroy = .returned → ∀ phase ∈ pool.thread, phase = .exited
  served : pool.destroy = .returned → ∀ worker ∈ registrations pool.events,
    ∃ processCb completeCb arg result,
      eventsOf worker pool.events = life worker processCb completeCb arg result
  ended : pool.destroy = .returned → ∀ action, pool.next action = none

/-- A step that leads nowhere: a wakeup without a signal, a poll that finds workers queued. -/
def IsIdle (pool : RpcTp) : Action → Prop
  | .wakeup _ => True
  | .destroyer => pool.destroy = .polling ∧ pool.workerQueue ≠ []
  | _ => False

def Works (state : Except Fault RpcTp) (action : Action) : Prop :=
  ∀ pool, state = .ok pool → ¬ pool.IsIdle action

/-- `rpc_tp_destroy` returns: up to there somebody can work, and not for ever. -/
structure Finishes (pool : RpcTp) : Prop where
  goes : pool.destroy ≠ .returned →
    ∃ action next, ¬ pool.IsIdle action ∧ pool.next action = some (.ok next)
  bounded : ∃ bound, ∀ actions after, system.Guarded Works (.ok pool) actions →
    system.run (.ok pool) actions = some after → actions.length ≤ bound

end RpcTp
end Livezure.Rpc
