import Livezure.Core.Memory
import Livezure.Core.Transition

/-! Client requests: `rpc_request_new` registers a handle for the kind of its
request, and `rpc_dispatch_processor` hands a reply to the first handle of the
reply's kind. -/
namespace Livezure.Rpc
open Livezure.Core

structure RpcKind where
  category : UInt8
  subCategory : UInt8
  deriving DecidableEq

/-- A parsed reply, with the request that the server answered by it. -/
structure Response (ρ : Type) where
  request : Nat
  body : ρ
  deriving DecidableEq

inductive HandlePhase where
  | calling
  | held
  | destroying
  | freed
  deriving DecidableEq

/-- Where a request and its reply are. A reply without body is parsed to NULL. -/
inductive ReplyPhase (ρ : Type) where
  | unsent
  | awaited
  | arrived (body : Option ρ)
  /-- In `rpc_default_dispatcher`, before `handle->req = req`. -/
  | handing (body : Option ρ) (handle : Nat)
  /-- In `rpc_default_dispatcher`, before the mutex is taken. -/
  | signalling (handle : Nat)
  | done
  deriving DecidableEq

/-- A call of `rpc_request_new`: its `rpc_handle_t`, and its request's way to the
server and back. Handles and requests are numbered alike. -/
structure Exchange (ρ : Type) where
  kind : RpcKind
  req : Option (Response ρ)
  phase : HandlePhase
  reply : ReplyPhase ρ
  deriving DecidableEq

/-- `rpc_dispatch_t` with `rpc_default_dispatcher` as its callback. -/
structure RpcDispatch where
  kind : RpcKind
  handle : Nat
  deriving DecidableEq

structure RpcClient (ρ : Type) where
  exchanges : List (Exchange ρ)
  dispatchList : List RpcDispatch
  stores : List Nat
  /-- Some store has replaced a response. -/
  overwritten : Bool
  deriving DecidableEq

namespace RpcClient
variable {ρ : Type}

def init : RpcClient ρ where
  exchanges := []
  dispatchList := []
  stores := []
  overwritten := false

def change (client : RpcClient ρ) (handle : Nat) (f : Exchange ρ → Exchange ρ) : RpcClient ρ :=
  { client with exchanges := client.exchanges.modify handle f }

def deref (client : RpcClient ρ) (handle : Nat) : Except Fault (Exchange ρ) :=
  match client.exchanges[handle]? with
  | none => .error .outOfBounds
  | some exchange => if exchange.phase = .freed then .error .useAfterFree else .ok exchange

def rpcDispatchAddCb (client : RpcClient ρ) (kind : RpcKind) (handle : Nat) : RpcClient ρ :=
  { client with dispatchList := client.dispatchList ++ [⟨kind, handle⟩] }

def rpcDispatchDelCb (client : RpcClient ρ) (kind : RpcKind) (handle : Nat) : RpcClient ρ :=
  { client with dispatchList := client.dispatchList.erase ⟨kind, handle⟩ }

def rpcDispatchFind (client : RpcClient ρ) (kind : RpcKind) : Option RpcDispatch :=
  client.dispatchList.find? (fun dispatch => dispatch.kind == kind)

def rpcRequestNew (client : RpcClient ρ) (kind : RpcKind) : RpcClient ρ :=
  let exchange : Exchange ρ := ⟨kind, none, .calling, .unsent⟩
  { client with exchanges := client.exchanges ++ [exchange] }.rpcDispatchAddCb kind
    client.exchanges.length

/-- The end of `rpc_request_new`: `rpc_io_nodify_fd` takes the request, or the
handle is destroyed again. -/
def rpcRequestNotify (client : RpcClient ρ) (handle : Nat) (kind : RpcKind) (notified : Bool) :
    RpcClient ρ :=
  if notified then client.change handle fun exchange =>
    { exchange with phase := .held, reply := .awaited }
  else (client.rpcDispatchDelCb kind handle).change handle fun exchange =>
    { exchange with phase := .destroying }

def rpcDispatchProcessor (client : RpcClient ρ) (request : Nat) (kind : RpcKind)
    (body : Option ρ) : RpcClient ρ :=
  match client.rpcDispatchFind kind with
  | none => client.change request fun exchange => { exchange with reply := .done }
  | some dispatch => client.change request fun exchange =>
    { exchange with reply := .handing body dispatch.handle }

/-- `handle->req = req` in `rpc_default_dispatcher`. -/
def rpcDefaultDispatcher (client : RpcClient ρ) (request : Nat) (body : Option ρ) (handle : Nat) :
    Except Fault (RpcClient ρ) := do
  let before ← client.deref handle
  let client := client.change handle fun exchange =>
    { exchange with req := body.map (Response.mk request) }
  return { client.change request fun exchange => { exchange with reply := .signalling handle } with
    stores := client.stores ++ [request]
    overwritten := client.overwritten || before.req.isSome }

def rpcDefaultDispatcherSignal (client : RpcClient ρ) (request handle : Nat) :
    Except Fault (RpcClient ρ) := do
  let _ ← client.deref handle
  return client.change request fun exchange => { exchange with reply := .done }

def rpcRequestOk (client : RpcClient ρ) (handle : Nat) : Except Fault (Option (Response ρ)) := do
  let exchange ← client.deref handle
  return exchange.req

inductive Action (ρ : Type) where
  | new (kind : RpcKind)
  | notify (handle : Nat) (notified : Bool)
  | arrive (request : Nat) (body : Option ρ)
  | dispatch (request : Nat)
  | store (request : Nat)
  | signal (request : Nat)
  | destroy (handle : Nat)
  | free (handle : Nat)

/-- An action, where it is enabled. `rpc_request_wait` and `rpc_request_ok` change
nothing here. -/
def next (client : RpcClient ρ) : Action ρ → Option (Except Fault (RpcClient ρ))
  | .new kind => some (.ok (client.rpcRequestNew kind))
  | .notify handle notified => do
    let exchange ← client.exchanges[handle]?
    match exchange.phase with
    | .calling => some (.ok (client.rpcRequestNotify handle exchange.kind notified))
    | _ => none
  | .arrive request body => do
    let exchange ← client.exchanges[request]?
    match exchange.reply with
    | .awaited =>
      some (.ok (client.change request fun exchange => { exchange with reply := .arrived body }))
    | _ => none
  | .dispatch request => do
    let exchange ← client.exchanges[request]?
    match exchange.reply with
    | .arrived body => some (.ok (client.rpcDispatchProcessor request exchange.kind body))
    | _ => none
  | .store request => do
    let exchange ← client.exchanges[request]?
    match exchange.reply with
    | .handing body handle => some (client.rpcDefaultDispatcher request body handle)
    | _ => none
  | .signal request => do
    let exchange ← client.exchanges[request]?
    match exchange.reply with
    | .signalling handle => some (client.rpcDefaultDispatcherSignal request handle)
    | _ => none
  | .destroy handle => do
    let exchange ← client.exchanges[handle]?
    match exchange.phase with
    | .held => some (.ok ((client.rpcDispatchDelCb exchange.kind handle).change handle fun exchange =>
        { exchange with phase := .destroying }))
    | _ => none
  | .free handle => do
    let exchange ← client.exchanges[handle]?
    match exchange.phase with
    | .destroying =>
      some (.ok (client.change handle fun exchange => { exchange with phase := .freed, req := none }))
    | _ => none

/-- The client from its start on. Undefined behaviour is a last state. -/
def system (ρ : Type) : System (Except Fault (RpcClient ρ)) (Action ρ) where
  Start := fun state => state = .ok init
  next := fun state action =>
    match state with
    | .error _ => none
    | .ok client => client.next action


end RpcClient

end Livezure.Rpc
