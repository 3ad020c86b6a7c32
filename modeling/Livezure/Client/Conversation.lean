import Livezure.Client.Calls
import Livezure.Client.Transport
import Livezure.Core.Transition

/-! Clients that call a server over their connections: what they get is what the handlers do with the
same texts on the spot. -/
namespace Livezure.Client
open Livezure.Core Db Rpc Service

/-! ### Calls over connections -/

/-- A connection: its descriptor at the server, the client's end and the server's end. -/
structure Link where
  fd : Int
  near : RpcIo
  far : RpcIo

structure World where
  server : Server
  links : List Link
  answers : List McAnswer

/-- A call, and what its four encryptions and decryptions take from their surroundings. -/
structure CallAction where
  link : Nat
  around : Surroundings
  call : McCall
  sends : Chance
  receives : Chance
  replies : Chance
  reads : Chance

/-- The header that `rpc_request_new` fills in. -/
def requestShell (rpcIdEncrypt : BitVec 6) (kind : RpcKind) : RpcShell where
  magic := rpcMagicNumber
  version := rpcVersionSign
  category := kind.category
  subCategory := kind.subCategory
  req := reqTypeGet
  crypt := rpcIdEncrypt
  bodySize := 0
  reserved := 0

/-- `rpc_io_enqueue` with a packet that makes one task. -/
def receiveOne (crypt : RpcCrypt) (io : RpcIo) (packet : Bytes) : Option (RpcIo × RpcIoTask) :=
  match enqueueChild crypt io packet with
  | .ok ⟨io, _, [task]⟩ => some (io, task)
  | _ => none

/-- Pairs packed under a header, received on a connection and parsed: the header and the request that
`rpc_io_processor` sees. -/
def carry (shell : RpcShell) (pairs : List (Bytes × Bytes)) (sent received : Chance) (io : RpcIo) :
    Option (RpcIo × RpcShell × Option RpcReq) := do
  let packet ← (packTexts sent.crypt shell pairs).toOption
  let (io, task) ← receiveOne received.crypt io packet
  let req ← (rpcParserNew task.body).toOption
  return (io, task.seen, req)

def shellKind (shell : RpcShell) : RpcKind := ⟨shell.category, shell.subCategory⟩

/-- `rpc_dispatch_processor` with the handlers that are registered: the server afterwards, and the pairs
of the response. No pairs are no response. -/
def dispatched (hash : Bytes → Bytes) (around : Surroundings) (server : Server) (kind : RpcKind)
    (fd : Int) (req : Option RpcReq) : Option (Server × Reply) :=
  match registered.find? fun entry => entry.1 == kind with
  | none => some (server, [])
  | some (_, handler) =>
    match Request.run hash around server ⟨handler, fd, req⟩ with
    | .error _ => none
    | .ok outcome => outcome.reply.map fun reply => (outcome.server, reply)

/-- A request and its reply: from `rpc_request_new` through `rpc_io_processor` of the server to
`rpc_request_ok`. None where something else comes of them. -/
def exchange (rpcIdEncrypt : BitVec 6) (hash : Bytes → Bytes) (server : Server) (link : Link)
    (action : CallAction) (kind : RpcKind) (pairs : List (Bytes × Bytes)) :
    Option (Server × Link × Option RpcReq) := do
  let (far, shell, req) ← carry (requestShell rpcIdEncrypt kind) pairs action.sends action.receives link.far
  let (server, reply) ← dispatched hash action.around server (shellKind shell) link.fd req
  -- a post request gets no reply
  guard (shell.req ≠ reqTypePost)
  let (near, back, res) ← carry { shell with req := reqTypePost } reply action.replies action.reads link.near
  -- the handle of the request is registered for its kind only
  return (server, { link with near, far }, if shellKind back = kind then res else none)

def McFunction.finish (function : McFunction) (res : Option RpcReq) : McAnswer :=
  if res = none then ⟨.serverNotResponse, function.initial⟩ else function.answer res

def World.next (rpcIdEncrypt : BitVec 6) (hash : Bytes → Bytes) (world : World) (action : CallAction) :
    Option World := do
  let link ← world.links[action.link]?
  match action.call.function.request with
  | .error status =>
    return { world with answers := world.answers ++ [⟨status, action.call.function.initial⟩] }
  | .ok (kind, pairs) => do
    let (server, link, res) ← exchange rpcIdEncrypt hash world.server link action kind pairs
    return ⟨server, world.links.set action.link link,
      world.answers ++ [action.call.function.finish res]⟩

def World.system (rpcIdEncrypt : BitVec 6) (hash : Bytes → Bytes) : System World CallAction where
  Start world := ∀ link ∈ world.links, Idle link.near ∧ Idle link.far
  next := World.next rpcIdEncrypt hash

/-! ### Calls on the spot -/

/-- A server whose handlers are called with the pairs themselves. -/
structure Spot where
  server : Server
  fds : List Int
  answers : List McAnswer

/-- The handler gets a request that holds the pairs, and the reply is a request that holds its pairs. -/
def spotExchange (hash : Bytes → Bytes) (around : Surroundings) (server : Server) (fd : Int)
    (kind : RpcKind) (pairs : List (Bytes × Bytes)) : Option (Server × Option RpcReq) :=
  (dispatched hash around server kind fd (addedReq pairs)).map fun done => (done.1, addedReq done.2)

def Spot.next (hash : Bytes → Bytes) (spot : Spot) (action : CallAction) : Option Spot := do
  let fd ← spot.fds[action.link]?
  match action.call.function.request with
  | .error status =>
    return { spot with answers := spot.answers ++ [⟨status, action.call.function.initial⟩] }
  | .ok (kind, pairs) => do
    let (server, res) ← spotExchange hash action.around spot.server fd kind pairs
    return ⟨server, spot.fds, spot.answers ++ [action.call.function.finish res]⟩

def Spot.system (hash : Bytes → Bytes) : System Spot CallAction where
  Start _ := True
  next := Spot.next hash

def World.spot (world : World) : Spot := ⟨world.server, world.links.map Link.fd, world.answers⟩

/-- The pairs have room in the buffer they are appended to, and their packet in the ring. -/
def TextsFit (rpcIdEncrypt : BitVec 6) (io : RpcIo) (pairs : List (Bytes × Bytes)) : Prop :=
  (∃ buffer, keypairAppendTexts none pairs = .ok buffer) ∧
    Room io (textsSize (.ofField rpcIdEncrypt) pairs)

instance (rpcIdEncrypt : BitVec 6) (io : RpcIo) (pairs : List (Bytes × Bytes)) :
    Decidable (TextsFit rpcIdEncrypt io pairs) :=
  have : Decidable (∃ buffer, keypairAppendTexts none pairs = .ok buffer) :=
    match appended : keypairAppendTexts none pairs with
    | .ok buffer => .isTrue ⟨buffer, rfl⟩
    | .error _ => .isFalse fun ⟨_, done⟩ => by cases done
  inferInstanceAs (Decidable (_ ∧ _))

def CallFits (rpcIdEncrypt : BitVec 6) (hash : Bytes → Bytes) (world : World) (action : CallAction) : Prop :=
  ∀ link ∈ world.links[action.link]?, ∀ request ∈ action.call.function.request.toOption,
    TextsFit rpcIdEncrypt link.far request.2 ∧
      ∀ replied ∈ dispatched hash action.around world.server request.1 link.fd (addedReq request.2),
        TextsFit rpcIdEncrypt link.near replied.2

instance (rpcIdEncrypt : BitVec 6) (hash : Bytes → Bytes) (world : World) (action : CallAction) :
    Decidable (CallFits rpcIdEncrypt hash world action) :=
  inferInstanceAs (Decidable (∀ link ∈ world.links[action.link]?, _))

/-! ### One exchange -/

section Carrying
variable {rpcIdEncrypt : BitVec 6} (known : RpcCryptType.ofField rpcIdEncrypt ≠ .unknown)
include known

/-- What a header keeps on its way. -/
structure SameHeader (left right : RpcShell) : Prop where
  category : left.category = right.category
  subCategory : left.subCategory = right.subCategory
  req : left.req = right.req
  crypt : left.crypt = right.crypt
  magic : left.magic = right.magic
  version : left.version = right.version

theorem carry_texts {shell : RpcShell} {pairs : List (Bytes × Bytes)} {io : RpcIo} (sent received : Chance)
    (magic : shell.magic = rpcMagicNumber) (version : shell.version = rpcVersionSign)
    (crypt : shell.crypt = rpcIdEncrypt) (texts : ∀ pair ∈ pairs, TextPair pair) (idle : Idle io)
    (fits : TextsFit rpcIdEncrypt io pairs) :
    ∃ after header tail, carry shell pairs sent received io = some (after, header, receivedReq tail pairs) ∧
      Idle after ∧ SameHeader header shell := by
  obtain ⟨⟨buffer, appended⟩, room⟩ := fits
  subst crypt
  have small : textsSize (.ofField shell.crypt) pairs < 2 ^ 31 := by
    have := room.2
    omega
  obtain ⟨packet, packed, carries⟩ := packTexts_carries sent magic version known texts appended small
  obtain ⟨body, tail, arrived, parsed⟩ := carries.received received
  obtain ⟨after, task, enqueued, quiet, seen, held⟩ := idle.receives
    (by rw [carries.size]; exact room) arrived
  refine ⟨after, packet.shell, tail, ?_, quiet, ⟨carries.category, carries.subCategory, carries.req,
    carries.crypt, carries.magic.trans magic.symm, carries.version.trans version.symm⟩⟩
  rw [carry, packed]
  change (receiveOne received.crypt io packet.bytes).bind _ = _
  simp only [receiveOne, enqueued, Option.bind_some, held, parsed, seen]
  rfl

end Carrying

theorem dispatched_same {left right : Option RpcReq} (same : SameTexts left right)
    (hash : Bytes → Bytes) (around : Surroundings) (server : Server) (kind : RpcKind) (fd : Int) :
    dispatched hash around server kind fd left = dispatched hash around server kind fd right := by
  unfold dispatched
  split
  · rfl
  · rw [Request.run_same same]

theorem dispatched_texts {hash : Bytes → Bytes} {around : Surroundings} {server after : Server}
    {kind : RpcKind} {fd : Int} {req : Option RpcReq} {reply : Reply}
    (done : dispatched hash around server kind fd req = some (after, reply)) :
    ∀ pair ∈ reply, TextPair pair := by
  unfold dispatched at done
  split at done
  · obtain ⟨_, rfl⟩ := Prod.mk.inj (Option.some.inj done)
    exact fun _ member => absurd member List.not_mem_nil
  · split at done
    · cases done
    · rename_i outcome ran
      obtain ⟨sent, replied, same⟩ := Option.map_eq_some_iff.mp done
      obtain ⟨_, rfl⟩ := Prod.mk.inj same
      exact (Request.run_clean ran sent replied).texts

theorem McCall.finish_same (call : McCall) {left right : Option RpcReq} (same : SameTexts left right)
    (none_iff : left = none ↔ right = none) :
    call.function.finish left = call.function.finish right := by
  rw [McFunction.finish, McFunction.finish, McCall.answer_same same]
  simp only [none_iff]

section Exchanging
variable {rpcIdEncrypt : BitVec 6} (known : RpcCryptType.ofField rpcIdEncrypt ≠ .unknown)
  {hash : Bytes → Bytes} {server : Server} {link : Link} {action : CallAction} {kind : RpcKind}
  {pairs : List (Bytes × Bytes)} (near : Idle link.near) (far : Idle link.far)
  (texts : ∀ pair ∈ pairs, TextPair pair) (fits : TextsFit rpcIdEncrypt link.far pairs)
include known far texts fits

theorem exchange_refused (refused : dispatched hash action.around server kind link.fd (addedReq pairs) = none) :
    exchange rpcIdEncrypt hash server link action kind pairs = none := by
  obtain ⟨after, header, tail, carried, _, same⟩ := @carry_texts rpcIdEncrypt known
    (requestShell rpcIdEncrypt kind) pairs link.far action.sends action.receives rfl rfl rfl texts far fits
  have seen : shellKind header = kind := by
    rw [shellKind, same.category, same.subCategory]
    rfl
  rw [exchange, carried]
  change (dispatched hash action.around server (shellKind header) link.fd _).bind _ = none
  rw [seen, dispatched_same (received_same texts tail), refused]
  rfl

include near

theorem exchange_replied {after : Server} {reply : Reply}
    (done : dispatched hash action.around server kind link.fd (addedReq pairs) = some (after, reply))
    (replyFits : TextsFit rpcIdEncrypt link.near reply) :
    ∃ link' tail, exchange rpcIdEncrypt hash server link action kind pairs =
        some (after, link', receivedReq tail reply) ∧
      link'.fd = link.fd ∧ Idle link'.near ∧ Idle link'.far := by
  obtain ⟨far', header, tail, carried, quiet, same⟩ := @carry_texts rpcIdEncrypt known
    (requestShell rpcIdEncrypt kind) pairs link.far action.sends action.receives rfl rfl rfl texts far fits
  obtain ⟨near', back, tail', returned, still, kept⟩ := @carry_texts rpcIdEncrypt known
    { header with req := reqTypePost } reply link.near action.replies action.reads same.magic same.version
    same.crypt (dispatched_texts done) near replyFits
  have seen : shellKind header = kind := by
    rw [shellKind, same.category, same.subCategory]
    rfl
  have answered : shellKind back = kind := by
    rw [shellKind, kept.category, kept.subCategory]
    exact seen
  have asks : header.req ≠ reqTypePost := by
    rw [same.req]
    change reqTypeGet ≠ reqTypePost
    decide
  refine ⟨{ link with near := near', far := far' }, tail', ?_, rfl, still, quiet⟩
  rw [exchange, carried]
  change (dispatched hash action.around server (shellKind header) link.fd _).bind _ = _
  rw [seen, dispatched_same (received_same texts tail), done]
  change (guard (header.req ≠ reqTypePost) : Option Unit).bind _ = _
  rw [guard, if_pos asks]
  change (carry { header with req := reqTypePost } reply action.replies action.reads link.near).bind _ = _
  rw [returned]
  change some (after, _, if shellKind back = kind then receivedReq tail' reply else none) = _
  rw [if_pos answered]

end Exchanging

/-! ### Conversations -/

def World.Quiet (world : World) : Prop := ∀ link ∈ world.links, Idle link.near ∧ Idle link.far

theorem receivedReq_none (tail : Bytes) (pairs : List (Bytes × Bytes)) :
    receivedReq tail pairs = none ↔ addedReq pairs = none := by
  unfold receivedReq addedReq
  split
  · exact Iff.rfl
  · exact iff_of_false (Option.some_ne_none _) (Option.some_ne_none _)

section Conversing
variable {rpcIdEncrypt : BitVec 6} (known : RpcCryptType.ofField rpcIdEncrypt ≠ .unknown)
  {hash : Bytes → Bytes} {world : World} {action : CallAction} (quiet : world.Quiet)
  (fits : CallFits rpcIdEncrypt hash world action)
include known quiet fits

/-- One call, over its connection and on the spot. -/
theorem World.next_cases :
    (World.next rpcIdEncrypt hash world action = none ∧ Spot.next hash world.spot action = none) ∨
    ∃ after, World.next rpcIdEncrypt hash world action = some after ∧
      Spot.next hash world.spot action = some after.spot ∧ after.Quiet := by
  have fds : world.spot.fds[action.link]? = world.links[action.link]?.map Link.fd :=
    List.getElem?_map ..
  unfold World.next Spot.next
  rw [fds]
  cases found : world.links[action.link]? with
  | none => exact .inl ⟨rfl, rfl⟩
  | some link =>
    have member := List.mem_of_getElem? found
    cases asks : action.call.function.request with
    | error status => exact .inr ⟨_, rfl, rfl, quiet⟩
    | ok request =>
      obtain ⟨kind, pairs⟩ := request
      have texts := McCall.sends_texts asks
      obtain ⟨near, far⟩ := quiet link member
      obtain ⟨requestFits, replyFits⟩ := fits link found (kind, pairs)
        (by rw [asks]; exact Option.mem_some_self _)
      cases done : dispatched hash action.around world.server kind link.fd (addedReq pairs) with
      | none =>
        refine .inl ⟨?_, ?_⟩
        · change (exchange rpcIdEncrypt hash world.server link action kind pairs).bind _ = none
          rw [exchange_refused known far texts requestFits done]
          rfl
        · change (spotExchange hash action.around world.server link.fd kind pairs).bind _ = none
          rw [spotExchange, done]
          rfl
      | some replied =>
        obtain ⟨server, reply⟩ := replied
        obtain ⟨link', tail, exchanged, fd, near', far'⟩ :=
          exchange_replied known near far texts requestFits done (replyFits (server, reply) done)
        have answered := McCall.finish_same action.call
          (received_same (dispatched_texts done) tail) (receivedReq_none tail reply)
        have listed : (world.links.set action.link link').map Link.fd = world.links.map Link.fd := by
          have here : (world.links.map Link.fd)[action.link]? = some link.fd := by
            rw [List.getElem?_map, found, Option.map_some]
          obtain ⟨inside, same⟩ := List.getElem?_eq_some_iff.mp here
          rw [List.map_set, fd, ← same, List.set_getElem_self inside]
        refine .inr ⟨⟨server, world.links.set action.link link', world.answers ++
          [action.call.function.finish (addedReq reply)]⟩, ?_, ?_, ?_⟩
        · change (exchange rpcIdEncrypt hash world.server link action kind pairs).bind _ = _
          rw [exchanged, ← answered]
          rfl
        · change (spotExchange hash action.around world.server link.fd kind pairs).bind _ = _
          rw [spotExchange, done]
          change some (Spot.mk server (world.links.map Link.fd) _) = some (Spot.mk server _ _)
          rw [listed]
          rfl
        · intro other listed
          rcases List.mem_or_eq_of_mem_set listed with old | rfl
          · exact quiet other old
          · exact ⟨near', far'⟩

end Conversing

/-- Clients that call over their connections get what they would get if they called the handlers on the
spot, and leave the server as if they had. -/
theorem conversation_spot {rpcIdEncrypt : BitVec 6} (known : RpcCryptType.ofField rpcIdEncrypt ≠ .unknown)
    (hash : Bytes → Bytes) {world : World} {actions : List CallAction}
    (start : (World.system rpcIdEncrypt hash).Start world)
    (fits : (World.system rpcIdEncrypt hash).Guarded (CallFits rpcIdEncrypt hash) world actions) :
    ((World.system rpcIdEncrypt hash).run world actions).map World.spot =
      (Spot.system hash).run world.spot actions := by
  refine System.run_view World.spot World.Quiet ?_ ?_ start fits
  · intro before action after quiet fit step
    rcases World.next_cases known quiet fit with ⟨stuck, _⟩ | ⟨other, next, _, still⟩
    · cases stuck.symm.trans step
    · obtain rfl := Option.some.inj (next.symm.trans step)
      exact still
  · intro before action quiet fit
    change (World.next rpcIdEncrypt hash before action).map World.spot = Spot.next hash before.spot action
    rcases World.next_cases known quiet fit with ⟨stuck, refused⟩ | ⟨after, next, seen, _⟩
    · rw [stuck, refused]
      rfl
    · rw [next, seen]
      rfl

/-- An admin "m" with the password "p", and a client that is connected. -/
def office : World where
  server := ⟨{ Store.init with
    basic := ⟨[⟨[109], [112], [], [], [49]⟩], by decide⟩
    admin := ⟨[⟨[109], 0, [], [], [49]⟩], by decide⟩ }, [], []⟩
  links := [⟨5, rpcIoNew 7, rpcIoNew 5⟩]
  answers := []

def callOf (call : McCall) : CallAction :=
  let chance : Chance := ⟨.replicate _ 0, fun _ => 0⟩
  ⟨0, ⟨⟨[50], [], []⟩, none⟩, call, chance, chance, chance, chance⟩

/-- "m" logs in, makes a child "c" and cannot make it again. -/
def calls : List CallAction :=
  [.accountLogin [109] [112] .pcWin, .accountCreate ⟨[99], [112], [], []⟩,
    .accountCreate ⟨[99], [112], [], []⟩].map callOf

theorem conversation_office : ((World.system 0 id).run office calls).map (World.spot · |>.answers) = some
    [⟨.ok, .session ⟨[109], true, []⟩⟩, ⟨.ok, .nothing⟩, ⟨.uuidExist, .nothing⟩] := by
  have start : (World.system 0 id).Start office := by
    intro link member
    obtain rfl := List.mem_singleton.mp member
    exact ⟨.new 7, .new 5⟩
  have fits : (World.system 0 id).Guarded (CallFits 0 id) office calls := by decide +kernel
  have same := conversation_spot (by decide) id start fits
  rw [← Function.comp_def Spot.answers, ← Option.map_map, same]
  decide +kernel

end Livezure.Client
