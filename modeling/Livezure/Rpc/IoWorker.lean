import Livezure.Core.Transition
import Livezure.Rpc.IoLinear

/-! Packet headers in the hands of worker threads: `rpc_io_processor` and
`rpc_io_make_shell` read and write the header where `rpc_rb_read` left it. -/
namespace Livezure.Rpc
open Livezure.Core

def RpcRb.store (rb : RpcRb) (place : Place) (offset : Nat) (bytes : Bytes) : Except Fault RpcRb :=
  match place with
  | .storage generation start =>
    if generation = rb.generation then do
      let buffer ← copyInto rb.buffer (start + offset) bytes
      return { rb with buffer }
    else .error .useAfterFree
  | .ret generation =>
    if generation = rb.retGeneration then do
      let retBuffer ← copyInto rb.retBuffer offset bytes
      return { rb with retBuffer }
    else .error .useAfterFree

/-- `shell->req = req`: the byte that also holds `crypt` is written. -/
def storeReq (rb : RpcRb) (place : Place) (req : BitVec 2) : Except Fault RpcRb := do
  let shell ← loadShell rb place
  rb.store place 11 [{ shell with req }.flags]

def storeBodySize (rb : RpcRb) (place : Place) (size : BitVec 32) : Except Fault RpcRb :=
  rb.store place 12 (leBytes sizeofSize size.toNat)

/-- Which access to the header a worker makes next. -/
inductive Phase where
  | category
  | subCategory
  | req
  | setReq
  | crypt
  | setBodySize
  | reply
  | done
  deriving DecidableEq, Repr

/-- A queued or running task. `header` is the header of its packet as it stood in
the stream; the other fields record what the worker has read. -/
structure Worker where
  shell : Place
  header : RpcShell
  phase : Phase
  answer : Option (BitVec 32)
  category : Option UInt8
  subCategory : Option UInt8
  req : Option (BitVec 2)
  crypt : Option (BitVec 6)
  reply : Option RpcShell
  deriving DecidableEq

namespace Worker

def fresh (shell : Place) (header : RpcShell) : Worker where
  shell := shell
  header := header
  phase := .category
  answer := none
  category := none
  subCategory := none
  req := none
  crypt := none
  reply := none

/-- The next access to the header. Once both categories are read the handler runs
and gives `answer`. -/
def step (worker : Worker) (recv : RpcRb) (answer : Option (BitVec 32)) :
    Except Fault (RpcRb × Worker) :=
  match worker.phase with
  | .category => do
    let shell ← loadShell recv worker.shell
    return (recv, { worker with category := some shell.category, phase := .subCategory })
  | .subCategory => do
    let shell ← loadShell recv worker.shell
    return (recv, { worker with subCategory := some shell.subCategory, answer, phase := .req })
  | .req => do
    let shell ← loadShell recv worker.shell
    -- a post request gets no reply
    let phase := if shell.req = reqTypePost then Phase.done else .setReq
    return (recv, { worker with req := some shell.req, phase })
  | .setReq => do
    let recv ← storeReq recv worker.shell reqTypePost
    return (recv, { worker with phase := .crypt })
  | .crypt =>
    match worker.answer with
    | none => .ok (recv, { worker with phase := .setBodySize })
    | some _ => do
      let shell ← loadShell recv worker.shell
      return (recv, { worker with crypt := some shell.crypt, phase := .setBodySize })
  | .setBodySize => do
    let recv ← storeBodySize recv worker.shell (worker.answer.getD 0)
    return (recv, { worker with phase := .reply })
  | .reply => do
    let shell ← loadShell recv worker.shell
    return (recv, { worker with reply := some shell, phase := .done })
  | .done => .ok (recv, worker)

end Worker

/-- A header that was taken off the ring and whose body comes next. -/
structure TakenHeader where
  shell : Place
  bodySize : BitVec 32
  header : RpcShell
  deriving DecidableEq

structure Connection where
  child : RpcIo
  calling : Bool
  taken : Option TakenHeader
  workers : List Worker
  /-- Some worker's write has changed a byte that was not parsed yet. -/
  harmed : Bool
  deriving DecidableEq

inductive Connection.Action where
  | enqueue (inbuf : Bytes)
  | header
  | dispatch
  | work (index : Nat) (answer : Option (BitVec 32))
  deriving DecidableEq

namespace Connection

def accepted (fd : Int) : Connection where
  child := rpcIoNew fd
  calling := false
  taken := none
  workers := []
  harmed := false

def enqueue (connection : Connection) (inbuf : Bytes) : Except Fault Connection := do
  let written ← rpcRbWrite connection.child.recv inbuf
  let recv ← written.rb.sound
  return { connection with child := { connection.child with recv }, calling := true }

def header (connection : Connection) : Except Fault Connection := do
  match ← rpcIoHeader connection.child with
  | .short child => return { connection with child, calling := false }
  | .refused child => return { connection with child, calling := false }
  | .cached child => return { connection with child, calling := false }
  | .complete child shell bodySize =>
    let header := RpcShell.ofBytes (connection.child.recv.content.take sizeofShell)
    return { connection with child, taken := some ⟨shell, bodySize, header⟩ }

def dispatch (crypt : RpcCrypt) (connection : Connection) (taken : TakenHeader) :
    Except Fault Connection := do
  let (child, task) ← rpcIoDispatch crypt connection.child taken.shell taken.bodySize
  return { connection with
    child, taken := none
    workers := connection.workers ++ [.fresh task.shell taken.header] }

def work (connection : Connection) (index : Nat) (worker : Worker)
    (answer : Option (BitVec 32)) : Except Fault Connection := do
  let (recv, worker) ← worker.step connection.child.recv answer
  return { connection with
    child := { connection.child with recv }
    workers := connection.workers.set index worker
    harmed := connection.harmed || recv.content != connection.child.recv.content }

def next (crypt : RpcCrypt) (connection : Connection) : Action → Option (Except Fault Connection)
  | .enqueue inbuf => if connection.calling then none else some (connection.enqueue inbuf)
  | .header =>
    if connection.calling ∧ connection.taken = none then some connection.header else none
  | .dispatch => connection.taken.map (connection.dispatch crypt)
  | .work index answer =>
    connection.workers[index]?.map (fun worker => connection.work index worker answer)

/-- The calls of `rpc_io_enqueue` on a new connection in any interleaving with the
workers. Undefined behaviour is a last state. -/
def system (crypt : RpcCrypt) : System (Except Fault Connection) Action where
  Start := fun state => ∃ fd, state = .ok (accepted fd)
  next := fun state action =>
    match state with
    | .error _ => none
    | .ok connection => connection.next crypt action

end Connection

/-- What a worker has read are the fields of its packet's header, and the header
of its reply differs from it in `req` and `body_size` only. -/
structure Worker.Faithful (worker : Worker) : Prop where
  category : ∀ value, worker.category = some value → value = worker.header.category
  subCategory : ∀ value, worker.subCategory = some value → value = worker.header.subCategory
  req : ∀ value, worker.req = some value → value = worker.header.req
  crypt : ∀ value, worker.crypt = some value → value = worker.header.crypt
  reply : ∀ shell, worker.reply = some shell → shell = { worker.header with
    req := reqTypePost, bodySize := worker.answer.getD 0 }

/-- No step meets undefined behaviour, workers read what was sent, and their
writes leave the bytes that are not parsed yet alone. -/
def HeadersSafe : Except Fault Connection → Prop
  | .error _ => False
  | .ok connection => (∀ worker ∈ connection.workers, worker.Faithful) ∧ connection.harmed = false

def ChunkFits (size : Nat) : Prop := size + 1 + rpcBufferDefGrowSize < 2 ^ 31

instance (size : Nat) : Decidable (ChunkFits size) := inferInstanceAs (Decidable (_ < _))

/-- The body behind a header has no negative size, fits into a buffer and can be decrypted. -/
def TakenHeader.Readable (crypt : RpcCrypt) (content : Bytes) (taken : TakenHeader) : Prop :=
  0 ≤ taken.bodySize.toInt ∧ ChunkFits taken.bodySize.toInt.toNat ∧
    (receivedBody crypt taken.header (content.take taken.bodySize.toInt.toNat)).isOk

/-- When a step is safe: a chunk replaces the ring's storage only while no task is
outstanding and the new size is an `int`, and otherwise stays off its end; a round does
not resume with a cached header; a body is readable. -/
def HeadersGuard (crypt : RpcCrypt) : Except Fault Connection → Connection.Action → Prop
  | .error _, _ => False
  | .ok connection, .enqueue inbuf =>
    if connection.child.recv.capacity ≤ rpcRbCanRead connection.child.recv + inbuf.length then
      rpcRbCapacityNew connection.child.recv inbuf.length < 2 ^ 31 ∧
        ∀ worker ∈ connection.workers, worker.phase = .done
    else connection.child.recv.tail + inbuf.length < connection.child.recv.capacity
  | .ok connection, .header => connection.child.shellCached = false
  | .ok connection, .dispatch =>
    ∀ taken ∈ connection.taken, taken.Readable crypt connection.child.recv.content
  | .ok _, .work _ _ => True

instance (crypt : RpcCrypt) (content : Bytes) (taken : TakenHeader) :
    Decidable (taken.Readable crypt content) :=
  inferInstanceAs (Decidable (0 ≤ _ ∧ ChunkFits _ ∧ _ = true))

instance (crypt : RpcCrypt) (state : Except Fault Connection) (action : Connection.Action) :
    Decidable (HeadersGuard crypt state action) :=
  match state, action with
  | .error _, _ => .isFalse id
  | .ok connection, .enqueue inbuf =>
    inferInstanceAs (Decidable (
      if connection.child.recv.capacity ≤ rpcRbCanRead connection.child.recv + inbuf.length then
        rpcRbCapacityNew connection.child.recv inbuf.length < 2 ^ 31 ∧
          ∀ worker ∈ connection.workers, worker.phase = .done
      else connection.child.recv.tail + inbuf.length < connection.child.recv.capacity))
  | .ok connection, .header => inferInstanceAs (Decidable (connection.child.shellCached = false))
  | .ok connection, .dispatch =>
    inferInstanceAs (Decidable (
      ∀ taken ∈ connection.taken, taken.Readable crypt connection.child.recv.content))
  | .ok _, .work _ _ => .isTrue trivial

end Livezure.Rpc
