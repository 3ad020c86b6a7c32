import Livezure.Rpc.IoHeaders
import Livezure.Rpc.IoRounds

/-! Two endpoints that answer each other's packets with `rpc_io_processor`. -/
namespace Livezure.Rpc
open Livezure.Core

/-- A packet as `rpc_io_make_shell` puts it together. -/
structure Outgoing where
  shell : RpcShell
  body : Bytes
  deriving DecidableEq

def Outgoing.bytes (packet : Outgoing) : Bytes := packet.shell.bytes ++ packet.body

/-- What `rpc_request_new` and `rpc_service_push` make: the right magic number and
version, and the size of the body. -/
def Outgoing.Formed (packet : Outgoing) : Prop :=
  packet.shell.magic = rpcMagicNumber ∧ packet.shell.version = rpcVersionSign ∧
    packet.shell.bodySize.toInt = packet.body.length

instance (packet : Outgoing) : Decidable packet.Formed := instDecidableAnd

def Packet.outgoing (packet : Packet) : Outgoing := ⟨packet.shell, packet.body⟩

/-- A packet that was queued, and the place of the task that it answers. It is none
for a packet of `rpc_request_new` or `rpc_service_push`. -/
structure Made where
  answers : Option Nat
  packet : Outgoing
  deriving DecidableEq

/-- One end of a connection. -/
structure Endpoint where
  connection : Connection
  send : List Outgoing
  incoming : Bytes
  made : List Made
  deriving DecidableEq

inductive Endpoint.Move where
  | inject (packet : Outgoing)
  | sendNext
  | receive (count : Nat)
  | header
  | dispatch
  /-- A worker makes its next access. The last one copies `body`, the handler's
  answer, behind the header and queues the packet. -/
  | work (index : Nat) (answer : Option (BitVec 32)) (body : Bytes)
  deriving DecidableEq

/-- The packet that an access of a worker completes. -/
def Worker.reply? (worker next : Worker) (body : Bytes) : Option Outgoing :=
  if worker.phase = .reply then next.reply.map fun shell => ⟨shell, body⟩ else none

namespace Endpoint

def opened (fd : Int) : Endpoint where
  connection := .accepted fd
  send := []
  incoming := []
  made := []

/-- `rpc_queue_push` on `child->send`. -/
def queue (self : Endpoint) (answers : Option Nat) (packet : Outgoing) : Endpoint :=
  { self with send := self.send ++ [packet], made := self.made ++ [⟨answers, packet⟩] }

/-- A worker's access, and the packet it completes. -/
def work (self : Endpoint) (index : Nat) (worker : Worker) (answer : Option (BitVec 32))
    (body : Bytes) : Except Fault Endpoint := do
  let connection ← self.connection.work index worker answer
  match connection.workers[index]?.bind (worker.reply? · body) with
  | none => return { self with connection }
  | some packet => return { self with connection }.queue (some index) packet

/-- A move of one end, where it is enabled: both ends afterwards. -/
def next (crypt : RpcCrypt) (self other : Endpoint) :
    Move → Option (Except Fault (Endpoint × Endpoint))
  | .inject packet => if packet.Formed then some (.ok (self.queue none packet, other)) else none
  | .sendNext =>
    match self.send with
    | [] => none
    | packet :: send => some (.ok ({ self with send },
        { other with incoming := other.incoming ++ packet.bytes }))
  | .receive count =>
    if 0 < count ∧ count ≤ self.incoming.length ∧ self.connection.calling = false then
      some do
        let connection ← self.connection.enqueue (self.incoming.take count)
        return ({ self with connection, incoming := self.incoming.drop count }, other)
    else none
  | .header =>
    if self.connection.calling ∧ self.connection.taken = none then
      some do
        let connection ← self.connection.header
        return ({ self with connection }, other)
    else none
  | .dispatch =>
    self.connection.taken.map fun taken => do
      let connection ← self.connection.dispatch crypt taken
      return ({ self with connection }, other)
  | .work index answer body =>
    match self.connection.workers[index]? with
    | none => none
    | some worker =>
      -- the answer has the size that was written to its header
      if worker.phase = .reply ∧ (worker.answer.getD 0).toInt ≠ body.length then none
      else some do
        let self ← self.work index worker answer body
        return (self, other)

/-- What each of its steps needs of an end alone. A packet that is made fits into a buffer. -/
def Guard (crypt : RpcCrypt) (self : Endpoint) : Move → Prop
  | .inject packet => ChunkFits packet.bytes.length
  | .work index _ body =>
    ∀ worker ∈ self.connection.workers[index]?, worker.phase = .reply →
      ChunkFits (sizeofShell + body.length)
  | .receive count => HeadersGuard crypt (.ok self.connection) (.enqueue (self.incoming.take count))
  | .header => HeadersGuard crypt (.ok self.connection) .header
  | .dispatch => HeadersGuard crypt (.ok self.connection) .dispatch
  | .sendNext => True

instance (crypt : RpcCrypt) (self : Endpoint) (move : Move) : Decidable (self.Guard crypt move) :=
  match move with
  | .inject packet => inferInstanceAs (Decidable (ChunkFits packet.bytes.length))
  | .work index _ body => inferInstanceAs (Decidable (∀ worker ∈ self.connection.workers[index]?,
      worker.phase = .reply → ChunkFits (sizeofShell + body.length)))
  | .receive count => inferInstanceAs (Decidable (
      HeadersGuard crypt (.ok self.connection) (.enqueue (self.incoming.take count))))
  | .header => inferInstanceAs (Decidable (HeadersGuard crypt (.ok self.connection) .header))
  | .dispatch => inferInstanceAs (Decidable (HeadersGuard crypt (.ok self.connection) .dispatch))
  | .sendNext => .isTrue trivial

end Endpoint

abbrev Link := Endpoint × Endpoint

inductive Side where
  | near
  | far
  deriving DecidableEq

/-- Two ends of a new connection and the moves of both in any order. Undefined
behaviour is a last state. -/
def Link.system (crypt : RpcCrypt) : System (Except Fault Link) (Side × Endpoint.Move) where
  Start := fun state => ∃ near far, state = .ok (.opened near, .opened far)
  next := fun state action =>
    match state, action with
    | .error _, _ => none
    | .ok (near, far), (.near, move) => near.next crypt far move
    | .ok (near, far), (.far, move) => (far.next crypt near move).map (Except.map Prod.swap)

def LinkGuard (crypt : RpcCrypt) : Except Fault Link → Side × Endpoint.Move → Prop
  | .error _, _ => False
  | .ok (near, _), (.near, move) => near.Guard crypt move
  | .ok (_, far), (.far, move) => far.Guard crypt move

instance (crypt : RpcCrypt) (state : Except Fault Link) (action : Side × Endpoint.Move) :
    Decidable (LinkGuard crypt state action) :=
  match state, action with
  | .error _, _ => .isFalse id
  | .ok (near, _), (.near, move) => inferInstanceAs (Decidable (near.Guard crypt move))
  | .ok (_, far), (.far, move) => inferInstanceAs (Decidable (far.Guard crypt move))

/-- The headers of the packets that have to be queued for a task: none before it is
done, and one afterwards unless its packet was posted. -/
def Worker.due (worker : Worker) : List RpcShell :=
  if worker.phase = .done ∧ worker.header.req ≠ reqTypePost then
    [{ worker.header with req := reqTypePost, bodySize := worker.answer.getD 0 }]
  else []

namespace Endpoint

/-- The headers of the packets that were queued for the task at a place. -/
def replies (self : Endpoint) (index : Nat) : List RpcShell :=
  (self.made.filter fun made => decide (made.answers = some index)).map fun made =>
    made.packet.shell

/-- Each task is answered as it has to be, and nothing else is. -/
structure Answers (endpoint : Endpoint) : Prop where
  once : ∀ (index : Nat) (worker : Worker), endpoint.connection.workers[index]? = some worker →
    endpoint.replies index = worker.due
  asked : ∀ made ∈ endpoint.made, ∀ index, made.answers = some index →
    index < endpoint.connection.workers.length

/-- The packets of `rpc_request_new` and `rpc_service_push`. -/
def injected (self : Endpoint) : Nat := self.made.countP fun made => made.answers.isNone

end Endpoint

/-- No undefined behaviour, one answer for each packet that is not posted, and at
most twice as many packets as were injected. -/
def RepliesOnce : Except Fault Link → Prop
  | .error _ => False
  | .ok (near, far) => near.Answers ∧ far.Answers ∧
      near.made.length + far.made.length ≤ 2 * (near.injected + far.injected)

/-! ### One worker -/

/-- The phases of a task whose packet is not posted. -/
def Phase.answering : Phase → Bool
  | .setReq | .crypt | .setBodySize | .reply => true
  | .category | .subCategory | .req | .done => false

def Worker.Waits (worker : Worker) : Prop :=
  worker.phase.answering = true → worker.header.req ≠ reqTypePost

theorem Worker.due_unfinished {worker : Worker} (active : worker.phase ≠ .done) :
    worker.due = [] := if_neg fun both => active both.1

/-- What an access adds to the packets that are due is the packet it completes. -/
structure Worker.Owes (worker next : Worker) (body : Bytes) : Prop where
  header : next.header = worker.header
  waits : next.Waits
  due : next.due = worker.due ++ ((worker.reply? next body).map Outgoing.shell).toList

/-- An access between the first one and the last one. -/
theorem Worker.Owes.pending {worker next : Worker} (waits : worker.Waits)
    (header : next.header = worker.header) (active : worker.phase ≠ .done)
    (unanswered : worker.phase ≠ .reply) (pending : next.phase ≠ .done)
    (answering : next.phase.answering = true → worker.phase.answering = true) (body : Bytes) :
    worker.Owes next body := by
  refine ⟨header, fun answers => ?_, ?_⟩
  · rw [header]
    exact waits (answering answers)
  · rw [Worker.due_unfinished active, Worker.due_unfinished pending, Worker.reply?,
      if_neg unanswered]
    rfl

theorem Worker.step_owes {worker next : Worker} {recv after : RpcRb} {answer : Option (BitVec 32)}
    (stepped : worker.step recv answer = .ok (after, next)) (faithful : next.Faithful)
    (waits : worker.Waits) (body : Bytes) : worker.Owes next body := by
  cases phase : worker.phase with
  | category =>
    simp only [Worker.step, phase] at stepped
    obtain ⟨shell, _, stepped⟩ := bind_ok stepped
    obtain ⟨rfl, rfl⟩ := Prod.mk.inj (Except.ok.inj stepped)
    exact .pending waits (by rfl) (by simp [phase]) (by simp [phase]) (by simp)
      (by simp [Phase.answering]) body
  | subCategory =>
    simp only [Worker.step, phase] at stepped
    obtain ⟨shell, _, stepped⟩ := bind_ok stepped
    obtain ⟨rfl, rfl⟩ := Prod.mk.inj (Except.ok.inj stepped)
    exact .pending waits (by rfl) (by simp [phase]) (by simp [phase]) (by simp)
      (by simp [Phase.answering]) body
  | req =>
    -- the header read here decides whether a packet will be due
    simp only [Worker.step, phase] at stepped
    obtain ⟨shell, _, stepped⟩ := bind_ok stepped
    obtain ⟨rfl, rfl⟩ := Prod.mk.inj (Except.ok.inj stepped)
    have read : shell.req = worker.header.req := faithful.req _ rfl
    have none : worker.due = [] := Worker.due_unfinished (by simp [phase])
    have silent : worker.phase ≠ .reply := by simp [phase]
    by_cases post : shell.req = reqTypePost
    · refine ⟨rfl, ?_, ?_⟩
      · intro answers
        simp [post, Phase.answering] at answers
      · rw [none, Worker.reply?, if_neg silent]
        exact if_neg fun both => both.2 (read.symm.trans post)
    · refine ⟨rfl, fun _ => fun same => post (read.trans same), ?_⟩
      rw [none, Worker.reply?, if_neg silent]
      exact Worker.due_unfinished (by simp [post])
  | setReq =>
    simp only [Worker.step, phase] at stepped
    obtain ⟨stored, _, stepped⟩ := bind_ok stepped
    obtain ⟨rfl, rfl⟩ := Prod.mk.inj (Except.ok.inj stepped)
    exact .pending waits (by rfl) (by simp [phase]) (by simp [phase]) (by simp)
      (by simp [phase, Phase.answering]) body
  | crypt =>
    simp only [Worker.step, phase] at stepped
    split at stepped
    · obtain ⟨rfl, rfl⟩ := Prod.mk.inj (Except.ok.inj stepped)
      exact .pending waits (by rfl) (by simp [phase]) (by simp [phase]) (by simp)
        (by simp [phase, Phase.answering]) body
    · obtain ⟨shell, _, stepped⟩ := bind_ok stepped
      obtain ⟨rfl, rfl⟩ := Prod.mk.inj (Except.ok.inj stepped)
      exact .pending waits (by rfl) (by simp [phase]) (by simp [phase]) (by simp)
        (by simp [phase, Phase.answering]) body
  | setBodySize =>
    simp only [Worker.step, phase] at stepped
    obtain ⟨stored, _, stepped⟩ := bind_ok stepped
    obtain ⟨rfl, rfl⟩ := Prod.mk.inj (Except.ok.inj stepped)
    exact .pending waits (by rfl) (by simp [phase]) (by simp [phase]) (by simp)
      (by simp [phase, Phase.answering]) body
  | reply =>
    simp only [Worker.step, phase] at stepped
    obtain ⟨shell, _, stepped⟩ := bind_ok stepped
    obtain ⟨rfl, rfl⟩ := Prod.mk.inj (Except.ok.inj stepped)
    have copied := faithful.reply _ rfl
    have asked : worker.header.req ≠ reqTypePost := waits (by rw [phase]; rfl)
    have none : worker.due = [] := Worker.due_unfinished (by simp [phase])
    refine ⟨rfl, (by intro impossible; cases impossible), ?_⟩
    rw [none, Worker.reply?, if_pos phase, Worker.due, if_pos ⟨rfl, asked⟩]
    exact congrArg (fun shell => [shell]) copied.symm
  | done =>
    simp only [Worker.step, phase] at stepped
    obtain ⟨rfl, rfl⟩ := Prod.mk.inj (Except.ok.inj stepped)
    have silent : worker.phase ≠ .reply := by simp [phase]
    refine ⟨rfl, waits, ?_⟩
    rw [Worker.reply?, if_neg silent]
    exact (List.append_nil _).symm

/-! ### One direction -/

/-- The unread bytes and the later ones are the packets still to come; after a
header was taken, its body and the packets behind it. -/
def Connection.Ahead (connection : Connection) (pending : List Packet) (later : Bytes) : Prop :=
  match connection.taken with
  | none => connection.child.recv.content ++ later = stream Packet.bytes pending
  | some taken => ∃ packet rest, pending = packet :: rest ∧ taken.header = packet.shell ∧
      connection.child.recv.content ++ later = packet.body ++ stream Packet.bytes rest

/-- The packets `made` at one end are `handled` as tasks at the other one, in order, or
`pending`: not sent, on their way or in the ring. -/
structure Carried (handled pending : List Packet) (made send : List Outgoing)
    (connection : Connection) (incoming : Bytes) : Prop where
  made : made = (handled ++ pending).map Packet.outgoing
  headers : connection.workers.map Worker.header = handled.map Packet.shell
  cached : connection.child.shellCached = true → connection.taken = none
  ahead : connection.child.shellCached = false →
    connection.Ahead pending (incoming ++ stream Outgoing.bytes send)

def Flows (made send : List Outgoing) (connection : Connection) (incoming : Bytes) : Prop :=
  ∃ handled pending, Carried handled pending made send connection incoming

section Direction
variable {made send : List Outgoing} {connection after : Connection} {incoming : Bytes}

theorem Outgoing.Formed.packet {packet : Outgoing} (formed : packet.Formed) :
    ∃ whole : Packet, whole.outgoing = packet ∧ whole.bytes = packet.bytes :=
  ⟨⟨packet.shell, packet.body, formed.1, formed.2.1, formed.2.2⟩, rfl, rfl⟩

theorem Flows.opened (fd : Int) : Flows [] [] (.accepted fd) [] := by
  refine ⟨[], [], rfl, rfl, (by intro impossible; cases impossible), fun _ => ?_⟩
  change (rpcIoNew fd).recv.content ++ [] = []
  rw [List.append_nil]
  exact rpcRbNew_content _ _

theorem Connection.Ahead.append {pending : List Packet} {later : Bytes}
    (ahead : connection.Ahead pending later) (packet : Packet) :
    connection.Ahead (pending ++ [packet]) (later ++ packet.bytes) := by
  have last : stream Packet.bytes [packet] = packet.bytes := by simp
  unfold Connection.Ahead at *
  split at ahead
  · rw [← List.append_assoc, ahead, stream_append, last]
  · obtain ⟨next, rest, rfl, header, bytes⟩ := ahead
    refine ⟨next, rest ++ [packet], rfl, header, ?_⟩
    rw [← List.append_assoc, bytes, stream_append, last, List.append_assoc]

theorem Flows.queue (flows : Flows made send connection incoming) {packet : Outgoing}
    (formed : packet.Formed) : Flows (made ++ [packet]) (send ++ [packet]) connection incoming := by
  obtain ⟨handled, pending, same, headers, cached, ahead⟩ := flows
  obtain ⟨whole, rfl, bytes⟩ := formed.packet
  refine ⟨handled, pending ++ [whole], ?_, headers, cached, fun uncached => ?_⟩
  · rw [same, List.map_append, List.map_append, List.map_append, List.append_assoc]
    rfl
  · have longer := (ahead uncached).append whole
    rw [List.append_assoc, bytes] at longer
    rw [stream_append]
    simpa using longer

theorem Flows.sendNext {packet : Outgoing} (flows : Flows made (packet :: send) connection incoming) :
    Flows made send connection (incoming ++ packet.bytes) := by
  obtain ⟨handled, pending, same, headers, cached, ahead⟩ := flows
  refine ⟨handled, pending, same, headers, cached, fun uncached => ?_⟩
  have before := ahead uncached
  rw [stream_cons] at before
  rwa [List.append_assoc]

theorem Flows.receive (flows : Flows made send connection incoming) (held : HeadersHeld connection)
    (idle : connection.calling = false)
    (met : HeadersGuard crypt (.ok connection) (.enqueue (incoming.take count)))
    (done : connection.enqueue (incoming.take count) = .ok after) :
    Flows made send after (incoming.drop count) := by
  obtain ⟨handled, pending, same, headers, cached, ahead⟩ := flows
  obtain ⟨recv, written, _, _, _, content, _⟩ := held.enqueue_written met
  obtain rfl := Except.ok.inj (written.symm.trans done)
  have none := held.idle idle
  refine ⟨handled, pending, same, headers, fun _ => none, fun uncached => ?_⟩
  · have before := ahead uncached
    unfold Connection.Ahead at *
    rw [none] at before
    simp only [none, content]
    rw [List.append_assoc, ← List.append_assoc (incoming.take count), List.take_append_drop]
    exact before

/-- A round takes the next packet's header, or nothing. -/
theorem Flows.header (flows : Flows made send connection incoming) (held : HeadersHeld connection)
    (none : connection.taken = none) (uncached : connection.child.shellCached = false)
    (done : connection.header = .ok after) : Flows made send after incoming := by
  obtain ⟨handled, pending, same, headers, _, ahead⟩ := flows
  have before := ahead uncached
  unfold Connection.Ahead at before
  rw [none] at before
  have tracks : Tracks pending (incoming ++ stream Outgoing.bytes send) connection.child.recv :=
    ⟨held.valid, held.clean, before⟩
  by_cases few : connection.child.recv.content.length < sizeofShell
  · simp only [Connection.header, rpcIoHeader_short held.valid uncached few, bind,
      Except.bind] at done
    obtain rfl := Except.ok.inj done
    refine ⟨handled, pending, same, headers, fun _ => none, fun _ => ?_⟩
    unfold Connection.Ahead
    simp only [none]
    exact before
  · have enough : sizeofShell ≤ connection.child.recv.content.length := Nat.not_lt.mp few
    obtain ⟨packet, rest, rfl⟩ := tracks.next (Nat.lt_of_lt_of_le (by decide) enough)
    have outcome := rpcIoHeader_packet tracks held.linear uncached enough
    have read := tracks.header enough
    obtain ⟨_, _, content⟩ := taken_queue held.valid held.linear enough
    by_cases missing : connection.child.recv.content.length < packet.bytes.length
    · rw [if_pos missing] at outcome
      simp only [Connection.header, outcome, bind, Except.bind] at done
      obtain rfl := Except.ok.inj done
      exact ⟨handled, packet :: rest, same, headers, fun _ => none, fun impossible => by
        cases impossible⟩
    · rw [if_neg missing] at outcome
      simp only [Connection.header, outcome, bind, Except.bind] at done
      obtain rfl := Except.ok.inj done
      refine ⟨handled, packet :: rest, same, headers, ?_, fun _ => ?_⟩
      · intro cached
        rw [show connection.child.shellCached = true from cached] at uncached
        cases uncached
      · refine ⟨packet, rest, rfl, read, ?_⟩
        change (taken connection.child.recv sizeofShell).content ++ _ = _
        rw [content, ← List.drop_append_of_le_length enough, before, stream_cons, Packet.bytes,
          List.append_assoc, List.drop_left' (RpcShell.bytes_length _)]

/-- The packet whose header was taken becomes a task. -/
theorem Flows.dispatch {header : TakenHeader} (flows : Flows made send connection incoming)
    (held : HeadersHeld connection) (found : connection.taken = some header)
    (done : connection.dispatch crypt header = .ok after) : Flows made send after incoming := by
  obtain ⟨handled, pending, same, headers, cached, ahead⟩ := flows
  have uncached : connection.child.shellCached = false := by
    cases shellCached : connection.child.shellCached with
    | false => rfl
    | true =>
      rw [cached shellCached] at found
      cases found
  have before := ahead uncached
  unfold Connection.Ahead at before
  rw [found] at before
  obtain ⟨packet, rest, rfl, shell, bytes⟩ := before
  have taken := held.taken header found
  have size : header.bodySize = packet.shell.bodySize := by rw [taken.size, shell]
  have within : packet.body.length ≤ rpcRbCanRead connection.child.recv := by
    have fits := taken.within
    rw [size, packet.bodySize_eq, held.valid.content_length] at fits
    omega
  obtain ⟨⟨child, task⟩, dispatched, done⟩ := bind_ok done
  obtain rfl := Except.ok.inj done
  obtain ⟨⟨recv, body⟩, read, dispatched⟩ := bind_ok dispatched
  obtain ⟨seen, _, dispatched⟩ := bind_ok dispatched
  obtain ⟨rfl, rfl⟩ := Prod.mk.inj (Except.ok.inj dispatched)
  rw [size] at read
  obtain ⟨_, _, content, _⟩ := readBody_follows held.valid held.clean within read
  refine ⟨handled ++ [packet], rest, ?_, ?_, fun _ => rfl, fun _ => ?_⟩
  · rw [same, List.append_assoc]
    rfl
  · rw [List.map_append, List.map_append, headers]
    exact congrArg (fun header => _ ++ [header]) shell
  · change recv.content ++ _ = _
    have inside : packet.body.length ≤ connection.child.recv.content.length := by
      rw [held.valid.content_length]
      exact within
    rw [content, ← List.drop_append_of_le_length inside, bytes, List.drop_left]

/-- A worker's access leaves the stream and the headers of the tasks alone. -/
theorem Flows.work {worker : Worker} (flows : Flows made send connection incoming)
    (found : connection.workers[index]? = some worker) {next : Worker} {recv : RpcRb}
    (header : next.header = worker.header) (content : recv.content = connection.child.recv.content)
    (harmed : Bool) :
    Flows made send { connection with
      child := { connection.child with recv }, workers := connection.workers.set index next,
      harmed } incoming := by
  obtain ⟨handled, pending, same, headers, cached, ahead⟩ := flows
  refine ⟨handled, pending, same, ?_, cached, fun uncached => ?_⟩
  · rw [← headers]
    apply List.ext_getElem?
    intro other
    rw [List.getElem?_map, List.getElem?_map, List.getElem?_set]
    split
    · rename_i here
      subst here
      split
      · rw [found, Option.map_some, Option.map_some, header]
      · rename_i outside
        exact absurd (List.getElem?_eq_some_iff.mp found).1 outside
    · rfl
  · have before := ahead uncached
    unfold Connection.Ahead at *
    simp only [content]
    exact before

end Direction

/-! ### One end -/

/-- The packet that completes an answer has the magic number and version of the packet
it answers, and the size of its body. -/
theorem Worker.reply_formed {worker next : Worker} {recv after : RpcRb}
    {answer : Option (BitVec 32)} {packet : Outgoing}
    (stepped : worker.step recv answer = .ok (after, next)) (faithful : next.Faithful)
    (magic : worker.header.magic = rpcMagicNumber) (version : worker.header.version = rpcVersionSign)
    (sized : ¬ (worker.phase = .reply ∧ (worker.answer.getD 0).toInt ≠ body.length))
    (completes : worker.reply? next body = some packet) : packet.Formed := by
  unfold Worker.reply? at completes
  split at completes
  · rename_i phase
    obtain ⟨shell, copied, rfl⟩ := Option.map_eq_some_iff.mp completes
    obtain rfl := faithful.reply shell copied
    simp only [Worker.step, phase] at stepped
    obtain ⟨_, _, stepped⟩ := bind_ok stepped
    obtain ⟨rfl, rfl⟩ := Prod.mk.inj (Except.ok.inj stepped)
    refine ⟨magic, version, ?_⟩
    by_contra different
    exact sized ⟨phase, different⟩
  · cases completes

namespace Endpoint

/-- The tasks that are answered. -/
def answered (workers : List Worker) : Nat := workers.countP fun worker => decide (worker.due ≠ [])

structure Kept (endpoint : Endpoint) : Prop where
  held : HeadersHeld endpoint.connection
  waits : ∀ worker ∈ endpoint.connection.workers, worker.Waits
  answers : endpoint.Answers
  counted : endpoint.made.countP (fun made => made.answers.isSome) =
    answered endpoint.connection.workers

theorem Kept.opened (fd : Int) : (Endpoint.opened fd).Kept where
  held := .accepted fd
  waits _ member := absurd member List.not_mem_nil
  answers := {
    once _ _ found := by cases found
    asked _ member := absurd member List.not_mem_nil }
  counted := rfl

section Steps
variable {self : Endpoint} {connection : Connection}

theorem Kept.connect (kept : self.Kept) (held : HeadersHeld connection)
    (workers : connection.workers = self.connection.workers) (incoming : Bytes) :
    Kept { self with connection, incoming } := by
  obtain ⟨_, waits, ⟨once, asked⟩, counted⟩ := kept
  refine ⟨held, workers ▸ waits, ⟨?_, ?_⟩, workers ▸ counted⟩
  · intro index worker found
    exact once index worker (workers ▸ found)
  · intro made member index same
    have inside := asked made member index same
    change index < connection.workers.length
    rwa [workers]

theorem Kept.inject (kept : self.Kept) (packet : Outgoing) : (self.queue none packet).Kept := by
  obtain ⟨held, waits, ⟨once, asked⟩, counted⟩ := kept
  refine ⟨held, waits, ⟨?_, ?_⟩, ?_⟩
  · intro index worker found
    rw [← once index worker found]
    simp [replies, queue]
  · intro made member index same
    rcases List.mem_append.mp member with old | new
    · exact asked made old index same
    · rw [List.mem_singleton.mp new] at same
      cases same
  · change (self.made ++ [(⟨none, packet⟩ : Made)]).countP _ = answered self.connection.workers
    rw [List.countP_append, counted]
    rfl

/-- A new task is last, and nothing is due for it. -/
theorem Kept.register (kept : self.Kept) (held : HeadersHeld connection) {shell : Place}
    {header : RpcShell} (workers : connection.workers = self.connection.workers ++ [.fresh shell header]) :
    Kept { self with connection } := by
  obtain ⟨_, waits, ⟨once, asked⟩, counted⟩ := kept
  have none : (Worker.fresh shell header).due = [] := Worker.due_unfinished (by simp [Worker.fresh])
  refine ⟨held, ?_, ⟨?_, ?_⟩, ?_⟩
  · intro worker member
    rw [workers] at member
    rcases List.mem_append.mp member with old | new
    · exact waits worker old
    · rw [List.mem_singleton.mp new]
      intro impossible
      cases impossible
  · intro index worker found
    rw [workers, List.getElem?_append] at found
    split at found
    · exact once index worker found
    · rename_i behind
      have last : worker = .fresh shell header :=
        List.mem_singleton.mp (List.mem_of_getElem? found)
      rw [last, none]
      unfold replies
      rw [List.map_eq_nil_iff, List.filter_eq_nil_iff]
      intro made member same
      exact behind (asked made member index (of_decide_eq_true same))
  · intro made member index same
    have inside := asked made member index same
    change index < connection.workers.length
    rw [workers, List.length_append]
    omega
  · change self.made.countP _ = answered connection.workers
    rw [workers, counted]
    unfold answered
    rw [List.countP_append]
    simp [none]

theorem work_step {after : Connection} {worker : Worker} {answer : Option (BitVec 32)}
    (done : connection.work index worker answer = .ok after) :
    ∃ recv next, worker.step connection.child.recv answer = .ok (recv, next) ∧
      after = { connection with
        child := { connection.child with recv }
        workers := connection.workers.set index next
        harmed := connection.harmed || recv.content != connection.child.recv.content } := by
  obtain ⟨⟨recv, next⟩, stepped, done⟩ := bind_ok done
  exact ⟨recv, next, stepped, (Except.ok.inj done).symm⟩

/-- A packet that an access completes is the first one for its task. -/
theorem completes_first {worker next : Worker} {packet : Outgoing}
    (completes : worker.reply? next body = some packet) : worker.due = [] := by
  apply Worker.due_unfinished
  intro finished
  rw [Worker.reply?, finished] at completes
  cases completes

theorem answered_set {workers : List Worker} {worker next : Worker}
    (found : workers[index]? = some worker) (owes : worker.Owes next body) :
    answered (workers.set index next) =
      answered workers + (worker.reply? next body).toList.length := by
  obtain ⟨inside, rfl⟩ := List.getElem?_eq_some_iff.mp found
  have member : workers[index] ∈ workers := List.getElem_mem inside
  unfold answered
  rw [List.countP_set inside, owes.due]
  cases completes : workers[index].reply? next body with
  | none =>
    have some_due : workers[index].due ≠ [] →
        0 < workers.countP fun worker => decide (worker.due ≠ []) := fun due =>
      List.countP_pos_iff.mpr ⟨_, member, decide_eq_true due⟩
    by_cases due : workers[index].due = []
    · simp [due]
    · have positive := some_due due
      simp only [ne_eq, decide_not] at positive
      simp [due]
      omega
  | some packet =>
    rw [completes_first completes]
    simp

theorem work_silent {worker next : Worker} {answer : Option (BitVec 32)} {body : Bytes}
    (done : self.connection.work index worker answer = .ok connection)
    (now : connection.workers[index]? = some next) (silent : worker.reply? next body = none) :
    self.work index worker answer body = .ok { self with connection } := by
  simp only [work, done, bind, Except.bind, now, Option.bind_some, silent, pure, Except.pure]

theorem work_completes {worker next : Worker} {answer : Option (BitVec 32)} {body : Bytes}
    {packet : Outgoing} (done : self.connection.work index worker answer = .ok connection)
    (now : connection.workers[index]? = some next)
    (completes : worker.reply? next body = some packet) :
    self.work index worker answer body =
      .ok ({ self with connection }.queue (some index) packet) := by
  simp only [work, done, bind, Except.bind, now, Option.bind_some, completes, pure, Except.pure]

/-- An access of a worker, with the packet that it completes. -/
theorem Kept.worked (kept : self.Kept) (held : HeadersHeld connection) {worker next : Worker}
    (found : self.connection.workers[index]? = some worker)
    (workers : connection.workers = self.connection.workers.set index next)
    (owes : worker.Owes next body) (send : List Outgoing) :
    Kept { self with
      connection, send
      made := self.made ++ ((worker.reply? next body).map fun packet => ⟨some index, packet⟩).toList } := by
  obtain ⟨_, waits, ⟨once, asked⟩, counted⟩ := kept
  have inside : index < self.connection.workers.length := (List.getElem?_eq_some_iff.mp found).1
  refine ⟨held, ?_, ⟨?_, ?_⟩, ?_⟩
  · intro other member
    rw [workers] at member
    rcases List.mem_or_eq_of_mem_set member with old | new
    · exact waits other old
    · exact new ▸ owes.waits
  · intro place other now
    rw [workers, List.getElem?_set] at now
    unfold replies at *
    split at now
    · rename_i here
      subst here
      rw [← Option.some.inj now, owes.due, ← once index worker found]
      cases worker.reply? next body with
      | none => simp
      | some packet => simp
    · rename_i elsewhere
      rw [← once place other now]
      cases worker.reply? next body with
      | none => simp
      | some packet => simp [elsewhere]
  · intro made member place same
    change place < connection.workers.length
    rw [workers, List.length_set]
    rcases List.mem_append.mp member with old | new
    · exact asked made old place same
    · obtain ⟨packet, _, rfl⟩ := Option.map_eq_some_iff.mp (Option.mem_toList.mp new)
      exact Option.some.inj same ▸ inside
  · change List.countP _ (self.made ++ _) = answered connection.workers
    rw [workers, List.countP_append, counted, answered_set found owes]
    cases worker.reply? next body with
    | none => rfl
    | some packet => rfl

end Steps
end Endpoint

/-! ### Both ends -/

/-- Each end answers what it handled, and each direction carries what was made. -/
structure Link.Kept (near far : Endpoint) : Prop where
  own : near.Kept
  peer : far.Kept
  out : Flows (near.made.map Made.packet) near.send far.connection far.incoming
  back : Flows (far.made.map Made.packet) far.send near.connection near.incoming

private theorem header_workers {connection after : Connection} (done : connection.header = .ok after) :
    after.workers = connection.workers := by
  obtain ⟨outcome, _, done⟩ := bind_ok done
  cases outcome <;> exact Except.ok.inj done ▸ rfl

private theorem dispatch_workers {connection after : Connection} {crypt : RpcCrypt} {header : TakenHeader}
    (done : connection.dispatch crypt header = .ok after) :
    ∃ shell, after.workers = connection.workers ++ [.fresh shell header.header] := by
  obtain ⟨⟨child, task⟩, _, done⟩ := bind_ok done
  exact ⟨task.shell, Except.ok.inj done ▸ rfl⟩

namespace Link.Kept
variable {self other : Endpoint} {crypt : RpcCrypt}

private theorem swap (kept : Link.Kept self other) : Link.Kept other self :=
  ⟨kept.peer, kept.own, kept.back, kept.out⟩

theorem opened (first second : Int) : Link.Kept (.opened first) (.opened second) :=
  ⟨.opened first, .opened second, .opened second, .opened first⟩

private theorem inject (kept : Link.Kept self other) {packet : Outgoing} (formed : packet.Formed) :
    Link.Kept (self.queue none packet) other := by
  obtain ⟨own, peer, out, back⟩ := kept
  refine ⟨own.inject packet, peer, ?_, back⟩
  have longer := out.queue formed
  unfold Endpoint.queue
  rw [List.map_append]
  exact longer

private theorem sendNext (kept : Link.Kept self other) {packet : Outgoing} {send : List Outgoing}
    (found : self.send = packet :: send) :
    Link.Kept { self with send } { other with incoming := other.incoming ++ packet.bytes } := by
  obtain ⟨own, peer, out, back⟩ := kept
  rw [found] at out
  exact ⟨⟨own.held, own.waits, ⟨own.answers.once, own.answers.asked⟩, own.counted⟩,
    peer.connect peer.held rfl _, out.sendNext, back⟩

private theorem receive (kept : Link.Kept self other)
    (idle : self.connection.calling = false) (met : self.Guard crypt (.receive count)) :
    ∃ connection, self.connection.enqueue (self.incoming.take count) = .ok connection ∧
      Link.Kept { self with connection, incoming := self.incoming.drop count } other := by
  obtain ⟨own, peer, out, back⟩ := kept
  have fits : HeadersGuard crypt (.ok self.connection) (.enqueue (self.incoming.take count)) := met
  obtain ⟨after, done, held⟩ := own.held.enqueue_held idle fits
  obtain ⟨recv, written, _⟩ := own.held.enqueue_written fits
  have workers : after.workers = self.connection.workers := by
    obtain rfl := Except.ok.inj (written.symm.trans done)
    rfl
  exact ⟨after, done, own.connect held workers _, peer, out, back.receive own.held idle fits done⟩

theorem header (kept : Link.Kept self other)
    (none : self.connection.taken = none) (calling : self.connection.calling = true)
    (met : self.Guard crypt .header) :
    ∃ connection, self.connection.header = .ok connection ∧
      Link.Kept { self with connection } other := by
  obtain ⟨own, peer, out, back⟩ := kept
  obtain ⟨after, done, held⟩ := own.held.header_held none calling met
  exact ⟨after, done, own.connect held (header_workers done) _, peer, out,
    back.header own.held none met done⟩

theorem dispatch (kept : Link.Kept self other) {taken : TakenHeader}
    (found : self.connection.taken = some taken) (met : self.Guard crypt .dispatch) :
    ∃ connection, self.connection.dispatch crypt taken = .ok connection ∧
      Link.Kept { self with connection } other := by
  obtain ⟨own, peer, out, back⟩ := kept
  obtain ⟨after, done, held⟩ := own.held.dispatch_held found met
  obtain ⟨shell, workers⟩ := dispatch_workers done
  exact ⟨after, done, own.register held workers, peer, out, back.dispatch own.held found done⟩

/-- The tasks' packets came from the other end. -/
theorem Flows.signed {made send : List Outgoing} {connection : Connection} {incoming : Bytes}
    (flows : Flows made send connection incoming) :
    ∀ worker ∈ connection.workers, worker.header.magic = rpcMagicNumber ∧
      worker.header.version = rpcVersionSign := by
  obtain ⟨handled, pending, _, headers, _⟩ := flows
  intro worker member
  have listed : worker.header ∈ handled.map Packet.shell := by
    rw [← headers]
    exact List.mem_map_of_mem member
  obtain ⟨packet, _, same⟩ := List.mem_map.mp listed
  rw [← same]
  exact ⟨packet.magic_eq, packet.version_eq⟩

theorem work (kept : Link.Kept self other) {worker : Worker} {answer : Option (BitVec 32)}
    {body : Bytes} (found : self.connection.workers[index]? = some worker)
    (sized : ¬ (worker.phase = .reply ∧ (worker.answer.getD 0).toInt ≠ body.length)) :
    ∃ after, self.work index worker answer body = .ok after ∧ Link.Kept after other := by
  have ⟨own, peer, out, back⟩ := kept
  have member := List.mem_of_getElem? found
  obtain ⟨connection, done, held⟩ := own.held.work_held found answer
  obtain ⟨recv, next, stepped, rfl⟩ := Endpoint.work_step done
  have inside : index < self.connection.workers.length := (List.getElem?_eq_some_iff.mp found).1
  have faithful : next.Faithful := held.faithful next (List.mem_set inside next)
  have owes := worker.step_owes stepped faithful (own.waits worker member) body
  have content : recv.content = self.connection.child.recv.content := by
    have unharmed := held.unharmed
    simpa [own.held.unharmed] using unharmed
  have back := back.work found owes.header content
    (self.connection.harmed || recv.content != self.connection.child.recv.content)
  have now : (self.connection.workers.set index next)[index]? = some next := by
    rw [List.getElem?_set_self inside]
  have worked := own.worked held found rfl owes
  cases completes : worker.reply? next body with
  | none =>
    rw [completes] at worked
    have same := worked self.send
    simp only [Option.map_none, Option.toList_none, List.append_nil] at same
    exact ⟨_, Endpoint.work_silent done now completes, same, peer, out, back⟩
  | some packet =>
    rw [completes] at worked
    obtain ⟨magic, version⟩ := Flows.signed kept.back worker member
    have formed := Worker.reply_formed stepped faithful magic version sized completes
    have longer := out.queue formed
    refine ⟨_, Endpoint.work_completes done now completes, worked (self.send ++ [packet]), peer, ?_,
      back⟩
    simp only [Endpoint.queue, List.map_append]
    exact longer

theorem next (kept : Link.Kept self other) {move : Endpoint.Move} {result : Except Fault Link}
    (met : self.Guard crypt move) (moved : self.next crypt other move = some result) :
    ∃ near far, result = .ok (near, far) ∧ Link.Kept near far := by
  cases move with
  | inject packet =>
    rw [Endpoint.next] at moved
    split at moved
    · rename_i formed
      exact ⟨_, _, (Option.some.inj moved).symm, kept.inject formed⟩
    · cases moved
  | sendNext =>
    rw [Endpoint.next] at moved
    split at moved
    · cases moved
    · rename_i packet send found
      exact ⟨_, _, (Option.some.inj moved).symm, kept.sendNext found⟩
  | receive count =>
    rw [Endpoint.next] at moved
    split at moved
    · rename_i enabled
      obtain ⟨connection, done, after⟩ := kept.receive enabled.2.2 met
      rw [done] at moved
      exact ⟨_, _, (Option.some.inj moved).symm, after⟩
    · cases moved
  | header =>
    rw [Endpoint.next] at moved
    split at moved
    · rename_i enabled
      obtain ⟨connection, done, after⟩ := kept.header enabled.2 enabled.1 met
      rw [done] at moved
      exact ⟨_, _, (Option.some.inj moved).symm, after⟩
    · cases moved
  | dispatch =>
    obtain ⟨taken, found, moved⟩ := Option.map_eq_some_iff.mp moved
    obtain ⟨connection, done, after⟩ := kept.dispatch found met
    rw [done] at moved
    exact ⟨_, _, moved.symm, after⟩
  | work index answer body =>
    rw [Endpoint.next] at moved
    split at moved
    · cases moved
    · rename_i worker found
      split at moved
      · cases moved
      · rename_i sized
        obtain ⟨after, done, still⟩ := kept.work found sized
        rw [done] at moved
        exact ⟨_, _, (Option.some.inj moved).symm, still⟩

end Link.Kept

/-! ### How many packets there are -/

/-- The requests among the packets that an end made: nothing else is answered. -/
def Endpoint.requests (endpoint : Endpoint) : Nat :=
  endpoint.made.countP fun made => decide (made.packet.shell.req ≠ reqTypePost)

/-- An answer is posted, so an end makes as many requests as it injects, at most. -/
theorem Endpoint.Answers.requests_le {endpoint : Endpoint} (answers : endpoint.Answers) :
    endpoint.requests ≤ endpoint.injected := by
  apply List.countP_mono_left
  intro made member asks
  by_contra answering
  obtain ⟨index, same⟩ := Option.ne_none_iff_exists'.mp (by simpa using answering)
  have inside := answers.asked made member index same
  have found := List.getElem?_eq_getElem inside
  have listed : made.packet.shell ∈ endpoint.replies index := by
    apply List.mem_map.mpr
    exact ⟨made, List.mem_filter.mpr ⟨member, decide_eq_true same⟩, rfl⟩
  rw [answers.once index _ found] at listed
  unfold Worker.due at listed
  split at listed
  · rw [List.mem_singleton.mp listed] at asks
    simp at asks
  · cases listed

theorem answered_le (workers : List Worker) :
    Endpoint.answered workers ≤
      (workers.map Worker.header).countP fun header => decide (header.req ≠ reqTypePost) := by
  rw [List.countP_map]
  apply List.countP_mono_left
  intro worker _ due
  by_contra posted
  apply of_decide_eq_true due
  unfold Worker.due
  rw [if_neg]
  rintro ⟨_, asks⟩
  exact posted (decide_eq_true asks)

/-- An end answers at most the requests that the other end made. -/
theorem Flows.answered_le {near far : Endpoint}
    (flows : Flows (near.made.map Made.packet) near.send far.connection far.incoming) :
    Endpoint.answered far.connection.workers ≤ near.requests := by
  obtain ⟨handled, pending, made, headers, _⟩ := flows
  have requests : near.requests = (handled ++ pending).countP fun packet =>
      decide (packet.shell.req ≠ reqTypePost) := by
    have same := congrArg (List.countP fun packet => decide (packet.shell.req ≠ reqTypePost)) made
    rwa [List.countP_map, List.countP_map] at same
  apply Nat.le_trans (Rpc.answered_le _)
  rw [headers, List.countP_map, requests, List.countP_append]
  exact Nat.le_add_right _ _

theorem Link.Kept.bounded {near far : Endpoint} (kept : Link.Kept near far) :
    near.made.length + far.made.length ≤ 2 * (near.injected + far.injected) := by
  have split : ∀ endpoint : Endpoint, endpoint.Kept → endpoint.made.length =
      endpoint.injected + Endpoint.answered endpoint.connection.workers := by
    intro endpoint own
    have answers : endpoint.made.countP (fun made => decide ¬ made.answers.isNone) =
        endpoint.made.countP fun made => made.answers.isSome := by
      apply List.countP_congr
      intro made _
      simp [Option.isSome_iff_ne_none]
    rw [← own.counted, ← answers]
    exact List.length_eq_countP_add_countP fun made : Made => made.answers.isNone
  have first := split near kept.own
  have second := split far kept.peer
  have out := kept.out.answered_le
  have back := kept.back.answered_le
  have fewNear := kept.own.answers.requests_le
  have fewFar := kept.peer.answers.requests_le
  omega

/-- In every interleaving whose steps meet the condition, each packet that is not posted
is answered once, and no answer provokes another one. -/
theorem repliesOnce_of_guard (crypt : RpcCrypt) {state : Except Fault Link}
    (reached : (Link.system crypt).Reachable (LinkGuard crypt) state) : RepliesOnce state := by
  have kept : ∃ near far, state = .ok (near, far) ∧ Link.Kept near far := by
    refine reached.invariant (fun state => ∃ near far, state = .ok (near, far) ∧ Link.Kept near far)
      ?_ ?_
    · rintro _ ⟨first, second, rfl⟩
      exact ⟨_, _, rfl, .opened first second⟩
    · rintro _ ⟨side, move⟩ after ⟨near, far, rfl, kept⟩ met moved
      cases side with
      | near => exact kept.next met moved
      | far =>
        obtain ⟨result, done, rfl⟩ := Option.map_eq_some_iff.mp moved
        obtain ⟨self, other, rfl, after⟩ := kept.swap.next met done
        exact ⟨other, self, rfl, after.swap⟩
  obtain ⟨near, far, rfl, kept⟩ := kept
  exact ⟨kept.own.answers, kept.peer.answers, kept.bounded⟩

/-- A get request that the near end injects: the far end's answer of 9 bytes reaches the
near end, and its task there queues nothing. -/
private def requestAnswered : List (Side × Endpoint.Move) :=
  let request : List (Side × Endpoint.Move) := [
    (.near, .inject ⟨plainShell 1 2 reqTypeGet 0, []⟩), (.near, .sendNext),
    (.far, .receive 20), (.far, .header), (.far, .dispatch), (.far, .header)]
  let answer : List (Side × Endpoint.Move) := [
    (.far, .sendNext), (.near, .receive 29), (.near, .header), (.near, .dispatch), (.near, .header)]
  let farWork : Side × Endpoint.Move := (.far, .work 0 (some 9) (List.replicate 9 5))
  let nearWork : Side × Endpoint.Move := (.near, .work 0 none [])
  request ++ List.replicate 7 farWork ++ answer ++ List.replicate 3 nearWork

theorem repliesOnce_requestAnswered :
    ∃ near far, (Link.system noCiphers).run (.ok (.opened 7, .opened 8)) requestAnswered =
        some (.ok (near, far)) ∧
      near.made = [⟨none, ⟨plainShell 1 2 reqTypeGet 0, []⟩⟩] ∧
      far.made = [⟨some 0, ⟨plainShell 1 2 reqTypePost 9, List.replicate 9 5⟩⟩] ∧
      near.connection.workers.map Worker.phase = [.done] ∧ RepliesOnce (.ok (near, far)) := by
  have made : ((Link.system noCiphers).run (.ok (.opened 7, .opened 8)) requestAnswered).map
      (Except.map fun ends => (ends.1.made, ends.2.made,
        ends.1.connection.workers.map Worker.phase)) =
      some (.ok ([⟨none, ⟨plainShell 1 2 reqTypeGet 0, []⟩⟩],
        [⟨some 0, ⟨plainShell 1 2 reqTypePost 9, List.replicate 9 5⟩⟩], [.done])) := by
    decide +kernel
  obtain ⟨state, run, seen⟩ := Option.map_eq_some_iff.mp made
  obtain ⟨near, far, rfl⟩ : ∃ near far, state = .ok (near, far) := by
    cases state with
    | error fault => cases seen
    | ok ends => exact ⟨ends.1, ends.2, rfl⟩
  obtain ⟨first, rest⟩ := Prod.mk.inj (Except.ok.inj seen)
  obtain ⟨second, third⟩ := Prod.mk.inj rest
  refine ⟨near, far, run, first, second, third, repliesOnce_of_guard noCiphers ?_⟩
  exact System.Reachable.run (.start ⟨7, 8, rfl⟩) (by decide +kernel) run

/-- A get request waits for its worker while a chunk of 4096 bytes arrives: the worker
reads the header of the packet it has to answer from the freed storage. -/
theorem replies_freed_by_growth :
    ∃ state, (Link.system noCiphers).Reachable System.Free state ∧ ¬ RepliesOnce state := by
  refine ⟨.error .useAfterFree, ?_, id⟩
  have run : (Link.system noCiphers).run (.ok (.opened 7, .opened 8))
      [(.near, .inject ⟨plainShell 1 2 reqTypeGet 0, []⟩), (.near, .sendNext),
        (.far, .receive 20), (.far, .header), (.far, .dispatch), (.far, .header),
        (.near, .inject ⟨plainShell 1 3 reqTypePost 4076, List.replicate 4076 0⟩),
        (.near, .sendNext), (.far, .receive 4096), (.far, .work 0 none [])] =
      some (.error .useAfterFree) := by
    decide +kernel
  exact System.Reachable.run (.start ⟨7, 8, rfl⟩) (System.guarded_free _ _) run

end Livezure.Rpc
