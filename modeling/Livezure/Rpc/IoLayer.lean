import Livezure.Core.Memory
import Livezure.Core.Transition
import Mathlib.Data.List.Nodup

/-! The `rpc_io` module as its threads share it: the list of children with their
send queues, the signal queue, the sender thread, the processor pool, and the
calls of `rpc_io_enqueue`, `rpc_io_nodify_fd`, `rpc_io_del` and `rpc_io_destroy`
that are under way. One operation on a list, a queue or the pool is one step. -/
namespace Livezure.Rpc
open Livezure.Core

/-- `rpc_queue_t`. -/
structure RpcQueue (α : Type) where
  items : List α
  stopSign : Bool
  destroyed : Bool
  deriving DecidableEq

def rpcQueueNew : RpcQueue α where
  items := []
  stopSign := false
  destroyed := false

def rpcQueuePush (rq : RpcQueue α) (body : α) : Except Fault (RpcQueue α) :=
  if rq.destroyed then .error .useAfterFree else .ok { rq with items := rq.items ++ [body] }

/-- `rpc_queue_get` that does not block; no body stands for its result 0. -/
def rpcQueueGet (rq : RpcQueue α) : Except Fault (Option α × RpcQueue α) :=
  if rq.destroyed then .error .useAfterFree
  else
    match rq.items with
    | [] => .ok (none, rq)
    | body :: items => .ok (some body, { rq with items })

def rpcQueueStop (rq : RpcQueue α) : Except Fault (RpcQueue α) :=
  if rq.destroyed then .error .useAfterFree else .ok { rq with stopSign := true }

def rpcQueueDestroy (rq : RpcQueue α) : Except Fault (RpcQueue α) :=
  if rq.destroyed then .error .useAfterFree
  else .ok { rq with stopSign := true, destroyed := true }

theorem rpcQueuePush_ok {rq : RpcQueue α} (live : rq.destroyed = false) (body : α) :
    rpcQueuePush rq body = .ok { rq with items := rq.items ++ [body] } := by
  simp [rpcQueuePush, live]

/-- What `rpc_queue_get` does to a queue that was not destroyed. -/
theorem rpcQueueGet_ok {rq : RpcQueue α} (live : rq.destroyed = false) :
    (rq.items = [] ∧ rpcQueueGet rq = .ok (none, rq)) ∨
      ∃ body items, rq.items = body :: items ∧
        rpcQueueGet rq = .ok (some body, { rq with items }) := by
  cases queued : rq.items with
  | nil => exact .inl ⟨rfl, by simp [rpcQueueGet, live, queued]⟩
  | cons body items => exact .inr ⟨body, items, rfl, by simp [rpcQueueGet, live, queued]⟩

/-- `rpc_io_t` without its receive side. -/
structure RpcChild (β : Type) where
  fd : Int
  send : RpcQueue β
  freed : Bool
  deriving DecidableEq

/-- Where `rpc_io_routine` stands. Children are given by their place in the heap. -/
inductive Sender (β : Type) where
  /-- Before the test of `abort`. -/
  | head
  | waiting
  /-- Before `rpc_io_get(io->fd, ..)`. -/
  | draining (io : Option Nat)
  /-- In `rpc_io_get`, with the child that `rpc_io_find` gave. -/
  | getting (io child : Nat)
  /-- Before `send->send(io->fd, ..)`. -/
  | sending (io : Nat) (out : β)
  | exited
  deriving DecidableEq

inductive TaskPhase where
  | queued
  | running
  /-- The answer is in the child's send queue, its signal is not pushed yet. -/
  | signalling
  deriving DecidableEq

/-- `rpc_io_task_t`; `post` is whether the packet's `req` asks for no reply. -/
structure PoolTask where
  child : Nat
  post : Bool
  phase : TaskPhase
  deriving DecidableEq

inductive NotifyType where
  | all
  | just
  | except
  deriving DecidableEq

/-- The children that `rpc_io_nodify_fd` does not skip. -/
def NotifyType.selects (notifyType : NotifyType) (curfd fd : Int) : Bool :=
  match notifyType with
  | .all => true
  | .just => fd == curfd
  | .except => fd != curfd

inductive NodifyPhase where
  /-- Before the next step of `list_for_each`, with the child visited last. -/
  | next (last : Option Nat)
  | push (tmp : Nat)
  | find (tmp : Nat)
  | signal (tmp : Nat) (found : Option Nat)
  deriving DecidableEq

/-- A call of `rpc_io_nodify_fd`. -/
structure Nodify (β : Type) where
  curfd : Int
  notifyType : NotifyType
  packet : β
  phase : NodifyPhase
  deriving DecidableEq

/-- The operations on a child after `list_del`. -/
inductive Closing where
  | stop
  | drain
  | destroy
  | free
  deriving DecidableEq

/-- A call of `rpc_io_del` that has unlinked its child. -/
structure RpcIoDel where
  child : Nat
  closing : Closing
  deriving DecidableEq

/-- Where `rpc_io_destroy` stands. -/
inductive Teardown where
  | running
  /-- In `list_for_each_safe`, before `list_del(pos)`. -/
  | unlink (pos : Nat) (next : Option Nat)
  | close (pos : Nat) (next : Option Nat) (closing : Closing)
  | abort
  | stop
  | join
  | drain
  | destroyQueue
  | killPool
  | joinPool
  | done
  deriving DecidableEq

structure IoLayer (β : Type) where
  heap : List (RpcChild β)
  ioList : List Nat
  signalQueue : RpcQueue (Option Nat)
  abort : Bool
  sender : Sender β
  sent : List (Int × β)
  processors : Nat
  poolAbort : Bool
  tasks : List PoolTask
  enqueues : List Nat
  nodifies : List (Nodify β)
  dels : List RpcIoDel
  teardown : Teardown
  deriving DecidableEq

namespace IoLayer
variable {β : Type}

def init (processors : Nat) : IoLayer β where
  heap := []
  ioList := []
  signalQueue := rpcQueueNew
  abort := false
  sender := .head
  sent := []
  processors := processors
  poolAbort := false
  tasks := []
  enqueues := []
  nodifies := []
  dels := []
  teardown := .running

def fdOf (layer : IoLayer β) (child : Nat) : Option Int :=
  layer.heap[child]?.map RpcChild.fd

def rpcIoFind (layer : IoLayer β) (fd : Int) : Option Nat :=
  layer.ioList.find? (fun child => layer.fdOf child == some fd)

def deref (layer : IoLayer β) (child : Nat) : Except Fault (RpcChild β) :=
  match layer.heap[child]? with
  | none => .error .outOfBounds
  | some io => if io.freed then .error .useAfterFree else .ok io

def put (layer : IoLayer β) (child : Nat) (io : RpcChild β) : IoLayer β :=
  { layer with heap := layer.heap.set child io }

def listNext (layer : IoLayer β) (pos : Nat) : Option Nat :=
  (layer.ioList.dropWhile (· != pos)).tail.head?

def rpcIoAdd (layer : IoLayer β) (fd : Int) : IoLayer β :=
  match layer.rpcIoFind fd with
  | none =>
    { layer with
      heap := layer.heap ++ [⟨fd, rpcQueueNew, false⟩]
      ioList := layer.ioList ++ [layer.heap.length] }
  | some _ => layer

/-- `rpc_io_request_dispatcher`; the pool takes no task once it is stopped. -/
def rpcIoRequestDispatcher (layer : IoLayer β) (child : Nat) (post : Bool) :
    Except Fault (IoLayer β) := do
  let _ ← layer.deref child
  return if layer.poolAbort then layer
    else { layer with tasks := layer.tasks ++ [⟨child, post, .queued⟩] }

def signal (layer : IoLayer β) (child : Option Nat) : Except Fault (IoLayer β) := do
  let signalQueue ← rpcQueuePush layer.signalQueue child
  return { layer with signalQueue }

def pushSend (layer : IoLayer β) (child : Nat) (body : β) : Except Fault (IoLayer β) := do
  let io ← layer.deref child
  let send ← rpcQueuePush io.send body
  return layer.put child { io with send }

/-- The next operation of `rpc_io_processor`, once a thread has taken the task. -/
def rpcIoProcessor (layer : IoLayer β) (index : Nat) (task : PoolTask) (answer : β) :
    Except Fault (IoLayer β) :=
  match task.phase with
  | .queued => .ok { layer with tasks := layer.tasks.set index { task with phase := .running } }
  | .running =>
    if task.post then { layer with tasks := layer.tasks.eraseIdx index }.signal (some task.child)
    else
      { layer with tasks := layer.tasks.set index { task with phase := .signalling } }.pushSend
        task.child answer
  | .signalling => { layer with tasks := layer.tasks.eraseIdx index }.signal (some task.child)

/-- A queued task is taken in its turn, and only by a thread that has none. -/
def CanWork (layer : IoLayer β) (index : Nat) (task : PoolTask) : Prop :=
  task.phase = .queued →
    (∀ earlier ∈ layer.tasks.take index, earlier.phase ≠ .queued) ∧
      (layer.tasks.filter (fun other => decide (other.phase ≠ .queued))).length < layer.processors

instance (layer : IoLayer β) (index : Nat) (task : PoolTask) :
    Decidable (layer.CanWork index task) :=
  inferInstanceAs (Decidable (_ → _))

/-- A step of `list_for_each` after the entry `last`. -/
def listForEach (layer : IoLayer β) (last : Option Nat) : Except Fault (Option Nat) :=
  match last with
  | none => .ok layer.ioList.head?
  | some pos => do
    let _ ← layer.deref pos
    -- `list_del` leaves NULL in the links of an entry
    if pos ∈ layer.ioList then .ok (layer.listNext pos) else .error .nullPointer

/-- The next operation of `rpc_io_nodify_fd`. -/
def rpcIoNodifyFd (layer : IoLayer β) (index : Nat) (call : Nodify β) :
    Except Fault (IoLayer β) :=
  match call.phase with
  | .next last => do
    match ← layer.listForEach last with
    | none => return { layer with nodifies := layer.nodifies.eraseIdx index }
    | some tmp => do
      let io ← layer.deref tmp
      let phase := if call.notifyType.selects call.curfd io.fd then NodifyPhase.push tmp
        else .next (some tmp)
      return { layer with nodifies := layer.nodifies.set index { call with phase } }
  | .push tmp =>
    { layer with
      nodifies := layer.nodifies.set index { call with phase := .find tmp } }.pushSend tmp call.packet
  | .find tmp =>
    let phase := NodifyPhase.signal tmp (layer.rpcIoFind call.curfd)
    .ok { layer with nodifies := layer.nodifies.set index { call with phase } }
  | .signal tmp found =>
    { layer with
      nodifies := layer.nodifies.set index { call with phase := .next (some tmp) } }.signal found

/-- The next operation of `rpc_io_routine`. -/
def rpcIoRoutine (layer : IoLayer β) : Option (Except Fault (IoLayer β)) :=
  match layer.sender with
  | .head => some (.ok { layer with sender := if layer.abort then .exited else .waiting })
  | .waiting =>
    match rpcQueueGet layer.signalQueue with
    | .error fault => some (.error fault)
    | .ok (some io, signalQueue) => some (.ok { layer with signalQueue, sender := .draining io })
    | .ok (none, _) =>
      if layer.signalQueue.stopSign then some (.ok { layer with sender := .exited }) else none
  | .draining none => some (.error .nullPointer)
  | .draining (some io) => some do
    let child ← layer.deref io
    match layer.rpcIoFind child.fd with
    | none => return { layer with sender := .head }
    | some found => return { layer with sender := .getting io found }
  | .getting io found => some do
    let child ← layer.deref found
    let (out, send) ← rpcQueueGet child.send
    match out with
    | none => return { layer with sender := .head }
    | some out => return { layer.put found { child with send } with sender := .sending io out }
  | .sending io out => some do
    let child ← layer.deref io
    return { layer with sender := .draining (some io), sent := layer.sent ++ [(child.fd, out)] }
  | .exited => none

/-- `pthread_cond_wait` returns with the stop sign set or, spuriously, with nothing
queued: `rpc_queue_get` gives -1. -/
def rpcIoRoutineWoken (layer : IoLayer β) : Option (IoLayer β) :=
  match layer.sender with
  | .waiting =>
    if layer.signalQueue.stopSign ∨ layer.signalQueue.items = [] then
      some { layer with sender := .exited }
    else none
  | _ => none

/-- One of the operations on an unlinked child, and what comes next. -/
def closeChild (layer : IoLayer β) (child : Nat) (closing : Closing) :
    Except Fault (IoLayer β × Option Closing) := do
  let io ← layer.deref child
  match closing with
  | .stop =>
    let send ← rpcQueueStop io.send
    return (layer.put child { io with send }, some .drain)
  | .drain =>
    let (buffer, send) ← rpcQueueGet io.send
    return (layer.put child { io with send }, some (if buffer.isSome then .drain else .destroy))
  | .destroy =>
    let send ← rpcQueueDestroy io.send
    return (layer.put child { io with send }, some .free)
  | .free => return (layer.put child { io with freed := true }, none)

/-- `rpc_io_del` up to its `list_del`. -/
def rpcIoDel (layer : IoLayer β) (fd : Int) : IoLayer β :=
  match layer.rpcIoFind fd with
  | none => layer
  | some child =>
    { layer with ioList := layer.ioList.erase child, dels := layer.dels ++ [⟨child, .stop⟩] }

def rpcIoDelNext (layer : IoLayer β) (index : Nat) (call : RpcIoDel) :
    Except Fault (IoLayer β) := do
  let (layer, next) ← layer.closeChild call.child call.closing
  match next with
  | some closing => return { layer with dels := layer.dels.set index { call with closing } }
  | none => return { layer with dels := layer.dels.eraseIdx index }

/-- The head of the `list_for_each_safe` of `rpc_io_destroy`: `pos->next` is read
before the body. -/
def destroyLoop (layer : IoLayer β) (pos : Option Nat) : Except Fault (IoLayer β) :=
  match pos with
  | none => .ok { layer with teardown := .abort }
  | some pos => do
    let _ ← layer.deref pos
    return { layer with teardown := .unlink pos (layer.listNext pos) }

def rpcIoDestroyNext (layer : IoLayer β) : Option (Except Fault (IoLayer β)) :=
  match layer.teardown with
  | .running => none
  | .unlink pos next =>
    if pos ∈ layer.ioList then
      some (.ok { layer with ioList := layer.ioList.erase pos, teardown := .close pos next .stop })
    else some (.error .nullPointer)
  | .close pos next closing => some do
    let (layer, rest) ← layer.closeChild pos closing
    match rest with
    | some closing => return { layer with teardown := .close pos next closing }
    | none => layer.destroyLoop next
  | .abort => some (.ok { layer with abort := true, teardown := .stop })
  | .stop => some do
    let signalQueue ← rpcQueueStop layer.signalQueue
    return { layer with signalQueue, teardown := .join }
  | .join =>
    match layer.sender with
    | .exited => some (.ok { layer with teardown := .drain })
    | _ => none
  | .drain => some do
    let (io, signalQueue) ← rpcQueueGet layer.signalQueue
    return { layer with signalQueue, teardown := if io.isSome then .drain else .destroyQueue }
  | .destroyQueue => some do
    let signalQueue ← rpcQueueDestroy layer.signalQueue
    return { layer with signalQueue, teardown := .killPool }
  | .killPool =>
    if ∀ task ∈ layer.tasks, task.phase ≠ .queued then
      some (.ok { layer with poolAbort := true, teardown := .joinPool })
    else none
  | .joinPool => if layer.tasks = [] then some (.ok { layer with teardown := .done }) else none
  | .done => none

inductive Action (β : Type) where
  | add (fd : Int)
  /-- `rpc_io_enqueue` finds its child and writes to the child's ring. -/
  | enqueue (fd : Int)
  /-- Its loop has come to a complete packet. -/
  | dispatch (index : Nat) (post : Bool)
  | enqueued (index : Nat)
  | process (index : Nat) (answer : β)
  | nodify (curfd : Int) (notifyType : NotifyType) (packet : β)
  | nodifyNext (index : Nat)
  | routine
  | wake
  | del (fd : Int)
  | delNext (index : Nat)
  | destroy
  | destroyNext

/-- An action, where it is enabled. -/
def next (layer : IoLayer β) : Action β → Option (Except Fault (IoLayer β))
  | .add fd => some (.ok (layer.rpcIoAdd fd))
  -- `assert(child != NULL)`: data comes for descriptors of the list only
  | .enqueue fd => (layer.rpcIoFind fd).map fun child =>
    .ok { layer with enqueues := layer.enqueues ++ [child] }
  | .dispatch index post =>
    layer.enqueues[index]?.map fun child => layer.rpcIoRequestDispatcher child post
  | .enqueued index => layer.enqueues[index]?.map fun child => do
    let _ ← layer.deref child
    return { layer with enqueues := layer.enqueues.eraseIdx index }
  | .process index answer => do
    let task ← layer.tasks[index]?
    if layer.CanWork index task then some (layer.rpcIoProcessor index task answer) else none
  | .nodify curfd notifyType packet =>
    some (.ok { layer with
      nodifies := layer.nodifies ++ [⟨curfd, notifyType, packet, .next none⟩] })
  | .nodifyNext index => layer.nodifies[index]?.map (layer.rpcIoNodifyFd index)
  | .routine => layer.rpcIoRoutine
  | .wake => layer.rpcIoRoutineWoken.map Except.ok
  | .del fd => some (.ok (layer.rpcIoDel fd))
  | .delNext index => layer.dels[index]?.map (layer.rpcIoDelNext index)
  | .destroy =>
    if layer.teardown = .running then some (layer.destroyLoop layer.ioList.head?) else none
  | .destroyNext => layer.rpcIoDestroyNext

/-- The layer from `rpc_io_init` on. Undefined behaviour is a last state. -/
def system (β : Type) : System (Except Fault (IoLayer β)) (Action β) where
  Start := fun state => ∃ processors, state = .ok (init processors)
  next := fun state action =>
    match state with
    | .error _ => none
    | .ok layer => layer.next action

theorem rpcIoFind_some {layer : IoLayer β} {fd : Int} {child : Nat}
    (found : layer.rpcIoFind fd = some child) :
    child ∈ layer.ioList ∧ layer.fdOf child = some fd :=
  ⟨List.mem_of_find?_eq_some found, by simpa using List.find?_some found⟩

theorem rpcIoFind_none {layer : IoLayer β} {fd : Int} (absent : layer.rpcIoFind fd = none)
    {child : Nat} (listed : child ∈ layer.ioList) : layer.fdOf child ≠ some fd := by
  simpa using List.find?_eq_none.mp absent child listed

theorem listNext_mem {layer : IoLayer β} {pos next : Nat}
    (found : layer.listNext pos = some next) : next ∈ layer.ioList :=
  (List.dropWhile_sublist _).subset (List.mem_of_mem_tail (List.mem_of_head? found))

theorem deref_ok {layer : IoLayer β} {child : Nat} {io : RpcChild β}
    (allocated : layer.heap[child]? = some io) (live : io.freed = false) :
    layer.deref child = .ok io := by
  simp [deref, allocated, live]

theorem signal_ok {layer : IoLayer β} (live : layer.signalQueue.destroyed = false)
    (child : Option Nat) :
    layer.signal child = .ok { layer with
      signalQueue := { layer.signalQueue with items := layer.signalQueue.items ++ [child] } } := by
  simp [signal, rpcQueuePush_ok live, bind, Except.bind, pure, Except.pure]

theorem pushSend_ok {layer : IoLayer β} {child : Nat} {io : RpcChild β}
    (allocated : layer.heap[child]? = some io) (live : io.freed = false)
    (queue : io.send.destroyed = false) (body : β) :
    layer.pushSend child body =
      .ok (layer.put child { io with send := { io.send with items := io.send.items ++ [body] } }) := by
  simp [pushSend, deref_ok allocated live, rpcQueuePush_ok queue, bind, Except.bind, pure,
    Except.pure]

end IoLayer
end Livezure.Rpc
