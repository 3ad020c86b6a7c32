import Livezure.Rpc.Buffer
import Livezure.Rpc.RingBuffer

/-! Connections and the reassembly of packets from received bytes (`rpc_io.c`,
`rpc_io_find` to `rpc_io_enqueue`). -/
namespace Livezure.Rpc
open Livezure.Core

def rpcIoDefGrowSize : Nat := 4 * 1024

/-- `rpc_io_t`. Of the fields, `extra` is only handed on to the send callback. -/
structure RpcIo where
  fd : Int
  send : List RpcBuffer
  recv : RpcRb
  /-- Written when a body is not complete yet; nothing reads it. -/
  shell : RpcShell
  shellCached : Bool
  deriving DecidableEq

/-- What `rpc_io_request_dispatcher` gets for a packet. `seen` is the header
behind the pointer `shell` at that moment. -/
structure RpcIoTask where
  fd : Int
  shell : Place
  seen : RpcShell
  body : Option RpcBuffer
  deriving DecidableEq

def rpcIoFind (ioList : List RpcIo) (fd : Int) : Option RpcIo :=
  ioList.find? (fun child => child.fd == fd)

def rpcIoNew (fd : Int) : RpcIo where
  fd := fd
  send := []
  recv := rpcRbNew rpcIoDefGrowSize rpcIoDefGrowSize
  shell := .ofBytes (freshBlock sizeofShell)
  shellCached := false

def rpcIoAdd (ioList : List RpcIo) (fd : Int) : List RpcIo × Int :=
  match rpcIoFind ioList fd with
  | none => (ioList ++ [rpcIoNew fd], 1)
  | some _ => (ioList, 0)

/-- The list after a change to the connection that `rpc_io_find` finds. -/
def rpcIoStore (child : RpcIo) : List RpcIo → List RpcIo
  | [] => []
  | other :: rest => if other.fd = child.fd then child :: rest else other :: rpcIoStore child rest

/-- A ring operation that stored a pointer outside the ring corrupts memory. -/
def RpcRb.sound (rb : RpcRb) : Except Fault RpcRb :=
  if rb.strayed then .error .outOfBounds else .ok rb

def readSound (rb : RpcRb) (count : Int) : Except Fault RbRead := do
  let read ← rpcRbRead rb count
  let rb ← read.rb.sound
  return { read with rb }

def loadShell (rb : RpcRb) (place : Place) : Except Fault RpcShell :=
  RpcShell.ofBytes <$> rb.load place sizeofShell

/-- The body of a packet whose header is complete. `rpc_rb_read` may have moved
other bytes behind `shell` before its fields are read for the second time. -/
def readBody (crypt : RpcCrypt) (rb : RpcRb) (shell : Place) (bodySize : BitVec 32) :
    Except Fault (RpcRb × Option RpcBuffer) :=
  if bodySize = 0 then .ok (rb, none)
  else do
    let read ← readSound rb bodySize.toInt
    let memory ← read.rb.memory read.data
    let again ← loadShell read.rb shell
    let body ← rpcBufferNew (some memory) again.bodySize.toInt
    let body ← rpcBufferDecrypt crypt body (.ofField again.crypt)
    return (read.rb, body)

inductive HeaderRound where
  | short (child : RpcIo)
  | refused (child : RpcIo)
  /-- `break`: the body is not complete, and the header is cached. -/
  | cached (child : RpcIo)
  | complete (child : RpcIo) (shell : Place) (bodySize : BitVec 32)

/-- The first half of a round of the loop in `rpc_io_enqueue`. `shell` is a local
variable of the round: with a cached header it is read without ever having been set. -/
def rpcIoHeader (child : RpcIo) : Except Fault HeaderRound :=
  if child.shellCached = false ∧ rpcRbCanRead child.recv < sizeofShell then .ok (.short child)
  else if child.shellCached then .error .uninitialised
  else do
    let read ← readSound child.recv sizeofShell
    let shell ← loadShell read.rb read.data
    let child := { child with recv := read.rb }
    if shell.magic ≠ rpcMagicNumber then return .refused child
    else if shell.version ≠ rpcVersionSign then return .refused child
    else if (rpcRbCanRead read.rb : Int) < shell.bodySize.toInt then
      return .cached { child with shell, shellCached := true }
    else return .complete child read.data shell.bodySize

/-- The second half of a round: the body is taken and the dispatcher called. -/
def rpcIoDispatch (crypt : RpcCrypt) (child : RpcIo) (shell : Place) (bodySize : BitVec 32) :
    Except Fault (RpcIo × RpcIoTask) := do
  let (recv, body) ← readBody crypt child.recv shell bodySize
  let seen ← loadShell recv shell
  return ({ child with recv, shellCached := false }, { fd := child.fd, shell, seen, body })

inductive Round where
  | short (child : RpcIo)
  | refused (child : RpcIo)
  | cached (child : RpcIo)
  | dispatched (child : RpcIo) (task : RpcIoTask)

def rpcIoRound (crypt : RpcCrypt) (child : RpcIo) : Except Fault Round := do
  match ← rpcIoHeader child with
  | .short child => return .short child
  | .refused child => return .refused child
  | .cached child => return .cached child
  | .complete child shell bodySize => do
    let (child, task) ← rpcIoDispatch crypt child shell bodySize
    return .dispatched child task

structure Enqueued where
  child : RpcIo
  ret : Int
  tasks : List RpcIoTask

def rpcIoRounds (crypt : RpcCrypt) : Nat → RpcIo → Except Fault Enqueued
  | 0, _ => .error .exhausted
  | fuel + 1, child => do
    match ← rpcIoRound crypt child with
    | .short child => return ⟨child, 0, []⟩
    | .refused child => return ⟨child, -1, []⟩
    | .cached child => return ⟨child, 1, []⟩
    | .dispatched child task => do
      let later ← rpcIoRounds crypt fuel child
      return { later with tasks := task :: later.tasks }

/-- `rpc_io_enqueue` once the connection is found. Each round takes a header from
the ring, so the fuel is enough unless a header announces a negative size. -/
def enqueueChild (crypt : RpcCrypt) (child : RpcIo) (inbuf : Bytes) : Except Fault Enqueued := do
  let written ← rpcRbWrite child.recv inbuf
  let recv ← written.rb.sound
  rpcIoRounds crypt (rpcRbCanRead recv + 1) { child with recv }

def rpcIoEnqueue (crypt : RpcCrypt) (ioList : List RpcIo) (fd : Int) (inbuf : Bytes) :
    Except Fault (List RpcIo × Enqueued) :=
  match rpcIoFind ioList fd with
  | none => .error .nullPointer
  | some child => do
    let call ← enqueueChild crypt child inbuf
    return (rpcIoStore call.child ioList, call)

def rpcIoEnqueueAll (crypt : RpcCrypt) (fd : Int) :
    List RpcIo → List Bytes → Except Fault (List Enqueued)
  | _, [] => .ok []
  | ioList, chunk :: chunks => do
    let (ioList, call) ← rpcIoEnqueue crypt ioList fd chunk
    let calls ← rpcIoEnqueueAll crypt fd ioList chunks
    return call :: calls

end Livezure.Rpc
