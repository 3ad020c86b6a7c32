import Livezure.Rpc.IoRounds

/-! Reassembly as a whole: which cuts of a packet stream `rpc_io_enqueue` delivers. -/
namespace Livezure.Rpc
open Livezure.Core

/-- What a task and a packet are compared by. -/
structure PacketView where
  category : UInt8
  subCategory : UInt8
  req : BitVec 2
  crypt : BitVec 6
  body : Bytes
  deriving DecidableEq

def bodyBytes : Option RpcBuffer → Bytes
  | none => []
  | some buffer => buffer.bytes

/-- The view of a packet whose task should get the body `expect packet`. -/
def Packet.view (expect : Packet → Bytes) (packet : Packet) : PacketView where
  category := packet.shell.category
  subCategory := packet.shell.subCategory
  req := packet.shell.req
  crypt := packet.shell.crypt
  body := expect packet

def RpcIoTask.view (task : RpcIoTask) : PacketView where
  category := task.seen.category
  subCategory := task.seen.subCategory
  req := task.seen.req
  crypt := task.seen.crypt
  body := bodyBytes task.body

/-- `rpc_buffer_decrypt` succeeds on the packet's body and gives the expected bytes. -/
def Carries (crypt : RpcCrypt) (expect : Packet → Bytes) (packet : Packet) : Prop :=
  ∃ body, receivedBody crypt packet.shell packet.body = .ok body ∧ bodyBytes body = expect packet

/-- What `rpc_buffer_decrypt` makes of the packet's body. -/
def decryptedBody (crypt : RpcCrypt) (packet : Packet) : Bytes :=
  match receivedBody crypt packet.shell packet.body with
  | .ok body => bodyBytes body
  | .error _ => []

private theorem carries_decryptedBody {crypt : RpcCrypt} {packet : Packet} :
    Carries crypt (decryptedBody crypt) packet ↔
      ∃ body, receivedBody crypt packet.shell packet.body = .ok body := by
  constructor
  · rintro ⟨body, received, _⟩
    exact ⟨body, received⟩
  · rintro ⟨body, received⟩
    exact ⟨body, received, by rw [decryptedBody, received]⟩

private theorem carries_plain (crypt : RpcCrypt) (packet : Packet) (plain : packet.shell.crypt = 0) :
    Carries crypt Packet.body packet := by
  by_cases empty : packet.body = []
  · exact ⟨none, by rw [receivedBody, if_pos empty], empty.symm⟩
  · refine ⟨some (.filled packet.body), ?_, by simp [bodyBytes]⟩
    rw [receivedBody, if_neg empty, plain]
    rfl

/-- Every call hands over exactly the packets whose last byte it brings, with the
expected bodies, and no call refuses the connection. -/
def Delivered (crypt : RpcCrypt) (expect : Packet → Bytes) (ioList : List RpcIo) (fd : Int)
    (packets : List Packet) (chunks : List Bytes) : Prop :=
  ∃ calls, rpcIoEnqueueAll crypt fd ioList chunks = .ok calls ∧
    (∀ call ∈ calls, call.ret ≠ -1) ∧
    calls.map (fun call => call.tasks.map RpcIoTask.view) =
      (arrivals Packet.bytes packets 0 (chunks.map List.length)).map
        (List.map (Packet.view expect))

/-- No cut falls behind the header of a packet whose body is not complete. -/
def CutsInHeaders (packets : List Packet) (start : Nat) (lengths : List Nat) : Prop :=
  ∀ index < lengths.length,
    pending Packet.bytes packets (start + (lengths.take index).sum) < sizeofShell

/-- No chunk reaches the end of the ring's storage, unless the storage is replaced
for it by one whose size is an `int`. `capacity` and `tail` are those of the ring after
`start` bytes. -/
def Roomy (packets : List Packet) (start capacity tail : Nat) : List Nat → Prop
  | [] => True
  | length :: lengths =>
    let unread := pending Packet.bytes packets start + length
    if capacity ≤ unread then
      unread + rpcIoDefGrowSize < 2 ^ 31 ∧
        Roomy packets (start + length) (unread + rpcIoDefGrowSize) unread lengths
    else tail + length < capacity ∧
      Roomy packets (start + length) capacity (tail + length) lengths

instance (packets : List Packet) (start : Nat) (lengths : List Nat) :
    Decidable (CutsInHeaders packets start lengths) :=
  inferInstanceAs (Decidable (∀ index < lengths.length, _ < sizeofShell))

instance decidableRoomy (packets : List Packet) :
    (lengths : List Nat) → (start capacity tail : Nat) →
      Decidable (Roomy packets start capacity tail lengths)
  | [], _, _, _ => .isTrue trivial
  | length :: lengths, start, capacity, tail =>
    have (capacity tail : Nat) : Decidable (Roomy packets (start + length) capacity tail lengths) :=
      decidableRoomy packets lengths (start + length) capacity tail
    inferInstanceAs (Decidable (
      if capacity ≤ pending Packet.bytes packets start + length then
        _ + rpcIoDefGrowSize < 2 ^ 31 ∧ Roomy packets (start + length) _ _ lengths
      else tail + length < capacity ∧ Roomy packets (start + length) _ _ lengths))

/-! ### One call in the linear layout -/

/-- The connection after the rounds of a call that found the ring in the linear layout. -/
structure Settled (packets : List Packet) (later : Bytes) (child : RpcIo) (call : Enqueued) :
    Prop where
  ret : call.ret ≠ -1
  linear : ¬ call.child.recv.Wrapped
  tail : call.child.recv.tail = child.recv.tail
  capacity : call.child.recv.capacity = child.recv.capacity
  expand : call.child.recv.expand = child.recv.expand
  cached : call.child.shellCached = true ↔
    sizeofShell ≤ pending Packet.bytes packets child.recv.content.length
  tracks : call.child.shellCached = false →
    Tracks (remaining Packet.bytes packets child.recv.content.length) later call.child.recv
  length : call.child.shellCached = false →
    call.child.recv.content.length = pending Packet.bytes packets child.recv.content.length

private theorem taken_layout {recv : RpcRb} (linear : ¬ recv.Wrapped)
    (within : count ≤ recv.content.length) : ¬ (taken recv count).Wrapped := by
  have order : recv.head ≤ recv.tail := Nat.not_lt.mp linear
  rw [RpcRb.content_linear order, List.length_take] at within
  simp only [RpcRb.Wrapped, taken]
  omega

private theorem taken_length {packet : Packet} {rest : List Packet} {recv : RpcRb}
    (tracks : Tracks (packet :: rest) later recv) (linear : ¬ recv.Wrapped)
    (whole : packet.bytes.length ≤ recv.content.length) :
    (taken recv packet.bytes.length).content.length =
      recv.content.length - packet.bytes.length := by
  obtain ⟨after, _⟩ := taken_tracks tracks linear whole
  have before := congrArg List.length tracks.ahead
  have behind := congrArg List.length after.ahead
  rw [List.length_append, stream_cons, List.length_append] at before
  rw [List.length_append] at behind
  omega

private theorem incomplete {packets : List Packet} {count : Nat}
    (missing : ∀ packet rest, packets = packet :: rest → count < packet.bytes.length) :
    completed Packet.bytes packets count = [] ∧ remaining Packet.bytes packets count = packets ∧
      pending Packet.bytes packets count = count := by
  cases packets with
  | nil => exact ⟨rfl, rfl, rfl⟩
  | cons packet rest =>
    have short : ¬ packet.bytes.length ≤ count := Nat.not_le.mpr (missing packet rest rfl)
    simp only [completed, remaining, pending, if_neg short, and_self]

private theorem settled_short {packets : List Packet} {child : RpcIo}
    (tracks : Tracks packets later child.recv) (linear : ¬ child.recv.Wrapped)
    (uncached : child.shellCached = false) (few : child.recv.content.length < sizeofShell)
    (missing : ∀ packet rest, packets = packet :: rest →
      child.recv.content.length < packet.bytes.length) :
    Settled packets later child ⟨child, 0, []⟩ := by
  obtain ⟨_, same, rest⟩ := incomplete missing
  refine ⟨by simp, linear, rfl, rfl, rfl, ?_, ?_, ?_⟩
  · rw [rest, uncached]
    constructor
    · intro impossible
      cases impossible
    · intro enough
      exact absurd few (Nat.not_lt.mpr enough)
  · intro _
    rw [same]
    exact tracks
  · intro _
    rw [rest]

private theorem settled_cached {packet : Packet} {rest : List Packet} {child : RpcIo}
    (linear : ¬ child.recv.Wrapped) (enough : sizeofShell ≤ child.recv.content.length)
    (missing : child.recv.content.length < packet.bytes.length) :
    Settled (packet :: rest) later child
      ⟨{ child with
        recv := taken child.recv sizeofShell, shell := packet.shell, shellCached := true }, 1, []⟩ := by
  have short : ∀ next others, packet :: rest = next :: others →
      child.recv.content.length < next.bytes.length := by
    intro next others same
    obtain ⟨rfl, rfl⟩ := List.cons.inj same
    exact missing
  obtain ⟨_, _, left⟩ := incomplete short
  refine ⟨by simp, taken_layout linear enough, rfl, rfl, rfl, ?_, ?_, ?_⟩
  · rw [left]
    exact ⟨fun _ => enough, fun _ => rfl⟩
  · intro impossible
    cases impossible
  · intro impossible
    cases impossible

private theorem Settled.dispatched {packet : Packet} {rest : List Packet} {child : RpcIo}
    {call : Enqueued} (tracks : Tracks (packet :: rest) later child.recv)
    (linear : ¬ child.recv.Wrapped) (whole : packet.bytes.length ≤ child.recv.content.length)
    (settled : Settled rest later
      { child with recv := taken child.recv packet.bytes.length, shellCached := false } call)
    (tasks : List RpcIoTask) :
    Settled (packet :: rest) later child { call with tasks } := by
  have length := taken_length tracks linear whole
  have left : pending Packet.bytes (packet :: rest) child.recv.content.length =
      pending Packet.bytes rest (taken child.recv packet.bytes.length).content.length := by
    rw [pending, if_pos whole, length]
  have others : remaining Packet.bytes (packet :: rest) child.recv.content.length =
      remaining Packet.bytes rest (taken child.recv packet.bytes.length).content.length := by
    rw [remaining, if_pos whole, length]
  refine ⟨settled.ret, settled.linear, settled.tail, settled.capacity, settled.expand, ?_, ?_, ?_⟩
  · rw [left]
    exact settled.cached
  · rw [others]
    exact settled.tracks
  · rw [left]
    exact settled.length

/-- The rounds of one call: by induction on the packets still to come, each
complete one costs a round, and the loop ends in the first incomplete one. -/
theorem rpcIoRounds_settled {packets : List Packet} {child : RpcIo} {fuel : Nat} {call : Enqueued}
    (tracks : Tracks packets later child.recv) (linear : ¬ child.recv.Wrapped)
    (uncached : child.shellCached = false) (enough : child.recv.content.length < fuel)
    (done : rpcIoRounds crypt fuel child = .ok call) :
    Settled packets later child call ∧
      (call.tasks.map RpcIoTask.view =
          (completed Packet.bytes packets child.recv.content.length).map (Packet.view expect) ↔
        ∀ packet ∈ completed Packet.bytes packets child.recv.content.length,
          Carries crypt expect packet) := by
  induction packets generalizing child fuel call with
  | nil =>
    obtain ⟨fuel, rfl⟩ : ∃ less, fuel = less + 1 := ⟨fuel - 1, by omega⟩
    have empty : child.recv.content = [] := (List.append_eq_nil_iff.mp tracks.ahead).1
    have few : child.recv.content.length < sizeofShell := by simp [empty, sizeofShell]
    rw [rpcIoRounds, rpcIoRound_short tracks uncached few] at done
    have same : Enqueued.mk child 0 [] = call := Except.ok.inj done
    subst same
    exact ⟨settled_short tracks linear uncached few (by simp), by simp [completed]⟩
  | cons packet rest ih =>
    obtain ⟨fuel, rfl⟩ : ∃ less, fuel = less + 1 := ⟨fuel - 1, by omega⟩
    by_cases whole : packet.bytes.length ≤ child.recv.content.length
    · -- The packet is complete: one round hands it over, the rest is the induction hypothesis.
      obtain ⟨after, layout⟩ := taken_tracks tracks linear whole
      have length := taken_length tracks linear whole
      have size := packet.bytes_length
      have count : completed Packet.bytes (packet :: rest) child.recv.content.length =
          packet :: completed Packet.bytes rest
            (taken child.recv packet.bytes.length).content.length := by
        rw [completed, if_pos whole, length]
      rw [rpcIoRounds, rpcIoRound_dispatched tracks linear uncached whole] at done
      obtain ⟨round, received, done⟩ := bind_ok done
      obtain ⟨body, got, received⟩ := bind_ok received
      rw [← Except.ok.inj received] at done
      obtain ⟨inner, rounds, done⟩ := bind_ok done
      have positive : 0 < sizeofShell := by decide
      obtain ⟨settled, views⟩ := ih after layout rfl (by simp only; omega) rounds
      rw [← Except.ok.inj done, count]
      refine ⟨settled.dispatched tracks linear whole _, ?_⟩
      have own : (RpcIoTask.view ⟨child.fd, .storage child.recv.generation child.recv.head,
          packet.shell, body⟩ = packet.view expect) ↔ Carries crypt expect packet := by
        simp only [RpcIoTask.view, Packet.view, PacketView.mk.injEq, true_and, Carries, got,
          Except.ok.injEq, exists_eq_left']
      simp only [List.map_cons, List.cons.injEq, List.forall_mem_cons, own, views]
    · have missing : child.recv.content.length < packet.bytes.length := Nat.not_le.mp whole
      have none : completed Packet.bytes (packet :: rest) child.recv.content.length = [] := by
        rw [completed, if_neg whole]
      by_cases few : child.recv.content.length < sizeofShell
      · rw [rpcIoRounds, rpcIoRound_short tracks uncached few] at done
        have same : Enqueued.mk child 0 [] = call := Except.ok.inj done
        subst same
        refine ⟨settled_short tracks linear uncached few ?_, by simp [none]⟩
        intro next others same
        obtain ⟨rfl, rfl⟩ := List.cons.inj same
        exact missing
      · have header : sizeofShell ≤ child.recv.content.length := Nat.not_lt.mp few
        rw [rpcIoRounds, rpcIoRound_cached tracks linear uncached header missing] at done
        have same := Except.ok.inj done
        subst same
        exact ⟨settled_cached linear header missing, by simp [none]⟩

/-- The rounds meet no fault when every complete packet can be decrypted. -/
theorem rpcIoRounds_exists {packets : List Packet} {child : RpcIo} {fuel : Nat}
    (tracks : Tracks packets later child.recv) (linear : ¬ child.recv.Wrapped)
    (uncached : child.shellCached = false) (enough : child.recv.content.length < fuel)
    (intact : ∀ packet ∈ completed Packet.bytes packets child.recv.content.length,
      Carries crypt expect packet) :
    ∃ call, rpcIoRounds crypt fuel child = .ok call := by
  induction packets generalizing child fuel with
  | nil =>
    obtain ⟨fuel, rfl⟩ : ∃ less, fuel = less + 1 := ⟨fuel - 1, by omega⟩
    have empty : child.recv.content = [] := (List.append_eq_nil_iff.mp tracks.ahead).1
    have few : child.recv.content.length < sizeofShell := by simp [empty, sizeofShell]
    rw [rpcIoRounds, rpcIoRound_short tracks uncached few]
    exact ⟨_, rfl⟩
  | cons packet rest ih =>
    obtain ⟨fuel, rfl⟩ : ∃ less, fuel = less + 1 := ⟨fuel - 1, by omega⟩
    by_cases whole : packet.bytes.length ≤ child.recv.content.length
    · obtain ⟨after, layout⟩ := taken_tracks tracks linear whole
      have length := taken_length tracks linear whole
      have size := packet.bytes_length
      have positive : 0 < sizeofShell := by decide
      rw [completed, if_pos whole, ← length] at intact
      obtain ⟨⟨body, got, _⟩, others⟩ := List.forall_mem_cons.mp intact
      rw [rpcIoRounds, rpcIoRound_dispatched tracks linear uncached whole, got]
      simp only [bind, Except.bind, pure, Except.pure]
      have next : ∃ call, rpcIoRounds crypt fuel { child with
          recv := taken child.recv packet.bytes.length, shellCached := false } = .ok call :=
        ih after layout rfl (by simp only; omega) others
      obtain ⟨call, rounds⟩ := next
      exact ⟨_, by rw [rounds]⟩
    · have missing : child.recv.content.length < packet.bytes.length := Nat.not_le.mp whole
      by_cases few : child.recv.content.length < sizeofShell
      · rw [rpcIoRounds, rpcIoRound_short tracks uncached few]
        exact ⟨_, rfl⟩
      · rw [rpcIoRounds, rpcIoRound_cached tracks linear uncached (Nat.not_lt.mp few) missing]
        exact ⟨_, rfl⟩

/-! ### Calls that must fail -/

theorem rpcIoRounds_uncached {child : RpcIo} (done : rpcIoRounds crypt fuel child = .ok call) :
    child.shellCached = false := by
  cases fuel with
  | zero => cases done
  | succ fuel =>
    obtain ⟨round, first, _⟩ := bind_ok done
    obtain ⟨header, first, _⟩ := bind_ok first
    by_contra cached
    have set : child.shellCached = true := by simpa using cached
    rw [rpcIoHeader, if_neg (fun both => cached both.1), if_pos set] at first
    cases first

private theorem enqueueChild_uncached {child : RpcIo} (done : enqueueChild crypt child chunk = .ok call) :
    child.shellCached = false := by
  obtain ⟨_, _, done⟩ := bind_ok done
  obtain ⟨_, _, done⟩ := bind_ok done
  have uncached := rpcIoRounds_uncached done
  exact uncached

/-- A wrapped ring never runs empty without a read across the end of the storage. -/
theorem rpcIoRounds_wrapped {packets : List Packet} {child : RpcIo} {fuel : Nat} {call : Enqueued}
    (tracks : Tracks packets later child.recv) (wrapped : child.recv.Wrapped)
    (done : rpcIoRounds crypt fuel child = .ok call) :
    later ≠ [] ∧ (call.child.shellCached = false →
      call.child.recv.Wrapped ∧ ∃ rest, Tracks rest later call.child.recv) := by
  induction fuel generalizing packets child call with
  | zero => cases done
  | succ fuel ih =>
    have uncached := rpcIoRounds_uncached done
    obtain ⟨round, first, ended⟩ := bind_ok done
    have follows := rpcIoRound_follows tracks uncached first
    cases round with
    | short after =>
      obtain ⟨rfl, few⟩ := follows
      rw [← Except.ok.inj ended]
      refine ⟨?_, fun _ => ⟨wrapped, packets, tracks⟩⟩
      intro nothing
      have unread := wrapped.content_ne_nil tracks.valid
      obtain ⟨packet, rest, rfl⟩ := tracks.next (List.length_pos_iff.mpr unread)
      have whole := congrArg List.length tracks.ahead
      rw [nothing, List.append_nil, stream_cons, List.length_append, packet.bytes_length] at whole
      omega
    | refused after => exact follows.elim
    | cached after =>
      obtain ⟨cached, more⟩ := follows
      rw [← Except.ok.inj ended]
      refine ⟨more, fun uncached => ?_⟩
      rw [cached] at uncached
      cases uncached
    | dispatched after task =>
      obtain ⟨_, _, layout, packet, rest, rfl, advanced⟩ := follows
      obtain ⟨inner, rounds, ended⟩ := bind_ok ended
      rw [← Except.ok.inj ended]
      have kept := ih advanced (layout.mpr wrapped) rounds
      exact kept

/-! ### Successive calls -/

/-- `rpcIoEnqueueAll` on the connection itself. -/
def enqueueChildAll (crypt : RpcCrypt) : RpcIo → List Bytes → Except Fault (List Enqueued)
  | _, [] => .ok []
  | child, chunk :: chunks => do
    let call ← enqueueChild crypt child chunk
    let calls ← enqueueChildAll crypt call.child chunks
    return call :: calls

/-- Once the ring is wrapped, a run that empties it in the end meets a fault. -/
theorem enqueueChildAll_wrapped {packets : List Packet} {child : RpcIo} {chunks : List Bytes}
    (tracks : Tracks packets chunks.flatten child.recv) (wrapped : child.recv.Wrapped)
    (done : rpcIoRounds crypt fuel child = .ok call)
    (run : enqueueChildAll crypt call.child chunks = .ok calls) : False := by
  induction chunks generalizing packets child fuel call calls with
  | nil =>
    obtain ⟨more, _⟩ := rpcIoRounds_wrapped tracks wrapped done
    exact more rfl
  | cons chunk chunks ih =>
    obtain ⟨_, kept⟩ := rpcIoRounds_wrapped tracks wrapped done
    obtain ⟨next, called, run⟩ := bind_ok run
    obtain ⟨layout, rest, tracks⟩ := kept (enqueueChild_uncached called)
    obtain ⟨later, run, _⟩ := bind_ok run
    obtain ⟨written, write, called⟩ := bind_ok called
    obtain ⟨recv, sound, called⟩ := bind_ok called
    obtain ⟨same, clean⟩ := sound_ok sound
    obtain ⟨valid, still, content, _⟩ := rpcRbWrite_wrapped tracks.valid layout write clean
    rw [← same] at valid still content clean
    have onward : Tracks rest chunks.flatten recv := by
      refine ⟨valid, clean, ?_⟩
      rw [content, List.append_assoc]
      exact tracks.ahead
    have rounds : rpcIoRounds crypt (rpcRbCanRead recv + 1) { call.child with recv } = .ok next :=
      called
    exact ih onward still rounds run

/-- `Delivered`, on the connection itself and for any list of arrivals. -/
def DeliversFrom (crypt : RpcCrypt) (expect : Packet → Bytes) (child : RpcIo)
    (chunks : List Bytes) (expected : List (List Packet)) : Prop :=
  ∃ calls, enqueueChildAll crypt child chunks = .ok calls ∧ (∀ call ∈ calls, call.ret ≠ -1) ∧
    calls.map (fun call => call.tasks.map RpcIoTask.view) = expected.map (List.map (Packet.view expect))

private theorem deliversFrom_cons {child : RpcIo} :
    DeliversFrom crypt expect child (chunk :: chunks) (packets :: expected) ↔
      ∃ call, enqueueChild crypt child chunk = .ok call ∧ call.ret ≠ -1 ∧
        call.tasks.map RpcIoTask.view = packets.map (Packet.view expect) ∧
        DeliversFrom crypt expect call.child chunks expected := by
  constructor
  · rintro ⟨calls, run, accepted, views⟩
    obtain ⟨call, called, run⟩ := bind_ok run
    obtain ⟨later, others, run⟩ := bind_ok run
    rw [← Except.ok.inj run] at accepted views
    obtain ⟨own, rest⟩ := List.cons.inj views
    obtain ⟨first, remainder⟩ := List.forall_mem_cons.mp accepted
    exact ⟨call, called, first, own, later, others, remainder, rest⟩
  · rintro ⟨call, called, accepted, own, later, others, remainder, rest⟩
    refine ⟨call :: later, ?_, List.forall_mem_cons.mpr ⟨accepted, remainder⟩, ?_⟩
    · simp only [enqueueChildAll, called, others, bind, Except.bind, pure, Except.pure]
    · simp only [List.map_cons, own, rest]

/-- A connection between two calls, after `start` bytes of the stream, as long as
its ring is in the linear layout. -/
structure Ready (packets : List Packet) (start : Nat) (chunks : List Bytes) (child : RpcIo) :
    Prop where
  total : start + chunks.flatten.length = (stream Packet.bytes packets).length
  linear : ¬ child.recv.Wrapped
  expand : child.recv.expand = rpcIoDefGrowSize
  cached : child.shellCached = true ↔ sizeofShell ≤ pending Packet.bytes packets start
  tracks : child.shellCached = false →
    Tracks (remaining Packet.bytes packets start) chunks.flatten child.recv
  length : child.shellCached = false →
    child.recv.content.length = pending Packet.bytes packets start

private theorem nothing_completed (packets : List Packet) :
    remaining Packet.bytes packets 0 = packets ∧ pending Packet.bytes packets 0 = 0 := by
  cases packets with
  | nil => exact ⟨rfl, rfl⟩
  | cons packet rest =>
    have positive : ¬ packet.bytes.length ≤ 0 := by
      rw [packet.bytes_length, sizeofShell]
      omega
    exact ⟨by rw [remaining, if_neg positive], by rw [pending, if_neg positive]⟩

private theorem ready_new {packets : List Packet} {chunks : List Bytes}
    (cut : chunks.flatten = stream Packet.bytes packets) (fd : Int) :
    Ready packets 0 chunks (rpcIoNew fd) := by
  have whole := nothing_completed packets
  have valid : (rpcRbNew rpcIoDefGrowSize rpcIoDefGrowSize).Valid :=
    rpcRbNew_valid (by decide) (by decide)
  refine ⟨by rw [cut, Nat.zero_add], by simp [RpcRb.Wrapped, rpcIoNew, rpcRbNew], rfl, ?_, ?_, ?_⟩
  · rw [whole.2]
    simp [rpcIoNew, sizeofShell]
  · intro _
    refine ⟨valid, rfl, ?_⟩
    rw [whole.1, ← cut, rpcIoNew, rpcRbNew_content, List.nil_append]
  · intro _
    rw [whole.2, rpcIoNew, rpcRbNew_content, List.length_nil]

/-- A chunk that replaces the storage, or does not reach its end, joins the unread bytes. -/
theorem rpcRbWrite_tracks {packets : List Packet} {recv : RpcRb}
    (tracks : Tracks packets (chunk ++ later) recv) (linear : ¬ recv.Wrapped) :
    (recv.capacity ≤ recv.content.length + chunk.length →
      recv.content.length + chunk.length + recv.expand < 2 ^ 31 →
      ∃ written, rpcRbWrite recv chunk = .ok ⟨written, chunk.length⟩ ∧ Tracks packets later written ∧
        ¬ written.Wrapped ∧ written.content.length = recv.content.length + chunk.length ∧
        written.expand = recv.expand ∧
        written.capacity = recv.content.length + chunk.length + recv.expand ∧
        written.tail = recv.content.length + chunk.length) ∧
    (recv.content.length + chunk.length < recv.capacity →
      recv.tail + chunk.length < recv.capacity →
      ∃ written, rpcRbWrite recv chunk = .ok ⟨written, chunk.length⟩ ∧ Tracks packets later written ∧
        ¬ written.Wrapped ∧ written.content.length = recv.content.length + chunk.length ∧
        written.expand = recv.expand ∧ written.capacity = recv.capacity ∧
        written.tail = recv.tail + chunk.length) := by
  have length := tracks.canRead
  have order : recv.head ≤ recv.tail := Nat.not_lt.mp linear
  constructor
  · intro large capacity
    have positive := tracks.valid.expand_pos
    have fits : recv.GrowthFits chunk.length := by
      intro _
      rwa [rpcRbCapacityNew, length]
    have valid := grown_valid tracks.valid chunk.length
    have free : rpcRbCanWrite recv ≤ chunk.length := by
      rw [rpcRbCanWrite, length]
      omega
    have room : (grown recv chunk.length).tail + chunk.length < (grown recv chunk.length).capacity := by
      simp only [grown, rpcRbCapacityNew]
      omega
    have flat : ¬ (grown recv chunk.length).Wrapped := Nat.not_lt.mpr (Nat.zero_le _)
    have content := appended_content valid flat (Nat.le_of_lt room)
    rw [grown_content tracks.valid] at content
    refine ⟨_, rpcRbWrite_grown tracks.valid tracks.clean linear free fits,
      ⟨appended_valid valid room, tracks.clean, ?_⟩, Nat.not_lt.mpr (Nat.zero_le _), ?_, rfl, ?_, ?_⟩
    · rw [content, List.append_assoc]
      exact tracks.ahead
    · rw [content, List.length_append]
    · simp only [appended, grown, rpcRbCapacityNew, length]
    · simp only [appended, grown, length]
  · intro small room
    have free : chunk.length < rpcRbCanWrite recv := by
      rw [rpcRbCanWrite, length]
      omega
    have content := appended_content tracks.valid linear (Nat.le_of_lt room)
    refine ⟨_, rpcRbWrite_room tracks.valid linear free room,
      ⟨appended_valid tracks.valid room, tracks.clean, ?_⟩, ?_, ?_, rfl, rfl, rfl⟩
    · rw [content, List.append_assoc]
      exact tracks.ahead
    · simp only [RpcRb.Wrapped, appended]
      omega
    · rw [content, List.length_append]

section Call
variable {packets : List Packet} {chunk : Bytes} {chunks : List Bytes} {child : RpcIo}
  {written : RpcRb}

private theorem enqueueChild_written (write : rpcRbWrite child.recv chunk = .ok ⟨written, chunk.length⟩)
    (clean : written.strayed = false) :
    enqueueChild crypt child chunk =
      rpcIoRounds crypt (rpcRbCanRead written + 1) { child with recv := written } := by
  simp only [enqueueChild, write, bind, Except.bind, sound_clean written clean]

private theorem Settled.ready {call : Enqueued} (ready : Ready packets start (chunk :: chunks) child)
    (length : written.content.length = pending Packet.bytes packets start + chunk.length)
    (expand : written.expand = child.recv.expand)
    (settled : Settled (remaining Packet.bytes packets start) chunks.flatten
      { child with recv := written } call) :
    Ready packets (start + chunk.length) chunks call.child := by
  have total := ready.total
  rw [List.flatten_cons, List.length_append] at total
  have others : remaining Packet.bytes (remaining Packet.bytes packets start)
      written.content.length = remaining Packet.bytes packets (start + chunk.length) := by
    rw [length, ← remaining_add]
  have left : pending Packet.bytes (remaining Packet.bytes packets start)
      written.content.length = pending Packet.bytes packets (start + chunk.length) := by
    rw [length, ← pending_add]
  refine ⟨by omega, settled.linear, ?_, ?_, ?_, ?_⟩
  · rw [settled.expand, expand]
    exact ready.expand
  · rw [← left]
    exact settled.cached
  · rw [← others]
    exact settled.tracks
  · rw [← left]
    exact settled.length

private theorem deliversFrom_step {expected : List (List Packet)} {onward : Prop}
    (ready : Ready packets start (chunk :: chunks) child) (uncached : child.shellCached = false)
    (write : rpcRbWrite child.recv chunk = .ok ⟨written, chunk.length⟩)
    (tracks : Tracks (remaining Packet.bytes packets start) chunks.flatten written)
    (linear : ¬ written.Wrapped) (expand : written.expand = child.recv.expand)
    (length : written.content.length = pending Packet.bytes packets start + chunk.length)
    (rest : ∀ next : RpcIo, Ready packets (start + chunk.length) chunks next →
      next.recv.capacity = written.capacity → next.recv.tail = written.tail →
      (DeliversFrom crypt expect next chunks expected ↔
        onward ∧ ∀ packet ∈ remaining Packet.bytes packets (start + chunk.length),
          Carries crypt expect packet)) :
    DeliversFrom crypt expect child (chunk :: chunks)
        (completed Packet.bytes (remaining Packet.bytes packets start)
          (pending Packet.bytes packets start + chunk.length) :: expected) ↔
      onward ∧ ∀ packet ∈ remaining Packet.bytes packets start, Carries crypt expect packet := by
  have enough : written.content.length < rpcRbCanRead written + 1 := by
    rw [tracks.canRead]
    omega
  have unset : ({ child with recv := written } : RpcIo).shellCached = false := uncached
  have split : completed Packet.bytes (remaining Packet.bytes packets start)
      written.content.length ++ _ = _ := completed_append_remaining _ _
  have others : remaining Packet.bytes (remaining Packet.bytes packets start)
      written.content.length = remaining Packet.bytes packets (start + chunk.length) := by
    rw [length, ← remaining_add]
  have parts : (∀ packet ∈ remaining Packet.bytes packets start, Carries crypt expect packet) ↔
      (∀ packet ∈ completed Packet.bytes (remaining Packet.bytes packets start)
        written.content.length, Carries crypt expect packet) ∧
      ∀ packet ∈ remaining Packet.bytes packets (start + chunk.length), Carries crypt expect packet := by
    rw [← others]
    conv_lhs => rw [← split]
    exact List.forall_mem_append
  rw [deliversFrom_cons, enqueueChild_written write tracks.clean, ← length, parts]
  constructor
  · rintro ⟨call, called, _, views, run⟩
    obtain ⟨settled, intact⟩ := rpcIoRounds_settled tracks linear unset enough called
    obtain ⟨holds, later⟩ := (rest call.child (settled.ready ready length expand)
      settled.capacity settled.tail).mp run
    exact ⟨holds, intact.mp views, later⟩
  · rintro ⟨holds, own, later⟩
    obtain ⟨call, called⟩ := rpcIoRounds_exists tracks linear unset enough own
    obtain ⟨settled, intact⟩ := rpcIoRounds_settled tracks linear unset enough called
    exact ⟨call, called, settled.ret, intact.mpr own, (rest call.child
      (settled.ready ready length expand) settled.capacity settled.tail).mpr ⟨holds, later⟩⟩

private theorem deliversFrom_wraps {expected : List (List Packet)}
    (tracks : Tracks packets (chunk ++ chunks.flatten) child.recv) (linear : ¬ child.recv.Wrapped)
    (small : child.recv.content.length + chunk.length < child.recv.capacity)
    (past : child.recv.capacity ≤ child.recv.tail + chunk.length) :
    ¬ DeliversFrom crypt expect child (chunk :: chunks) expected := by
  rintro ⟨calls, run, _, _⟩
  have free : chunk.length < rpcRbCanWrite child.recv := by
    rw [rpcRbCanWrite, tracks.canRead]
    omega
  obtain ⟨call, called, run⟩ := bind_ok run
  obtain ⟨later, run, _⟩ := bind_ok run
  obtain ⟨written, write, called⟩ := bind_ok called
  obtain ⟨recv, sound, looped⟩ := bind_ok called
  obtain ⟨same, clean⟩ := sound_ok sound
  obtain ⟨result, done, valid, wrapped, content, _⟩ := rpcRbWrite_past tracks.valid linear free past
  cases done.symm.trans write
  obtain rfl : recv = result := same
  have onward : Tracks packets chunks.flatten recv := by
    refine ⟨valid, clean, ?_⟩
    rw [content, List.append_assoc]
    exact tracks.ahead
  have rounds : rpcIoRounds crypt (rpcRbCanRead recv + 1) { child with recv } = .ok call := looped
  exact enqueueChildAll_wrapped onward wrapped rounds run

private theorem deliversFrom_overflows {expected : List (List Packet)}
    (large : ¬child.recv.GrowthFits chunk.length) :
    ¬ DeliversFrom crypt expect child (chunk :: chunks) expected := by
  rintro ⟨calls, run, _, _⟩
  obtain ⟨call, called, _⟩ := bind_ok run
  obtain ⟨written, write, _⟩ := bind_ok called
  exact large (.of_write write)

end Call

private theorem cutsInHeaders_cons {packets : List Packet} {start length : Nat} {lengths : List Nat} :
    CutsInHeaders packets start (length :: lengths) ↔
      pending Packet.bytes packets start < sizeofShell ∧
        CutsInHeaders packets (start + length) lengths := by
  constructor
  · intro cuts
    refine ⟨by simpa using cuts 0 (by simp), ?_⟩
    intro index within
    have cut := cuts (index + 1) (by simpa using within)
    rwa [List.take_succ_cons, List.sum_cons, ← Nat.add_assoc] at cut
  · rintro ⟨first, cuts⟩ index within
    cases index with
    | zero => simpa using first
    | succ index =>
      rw [List.take_succ_cons, List.sum_cons, ← Nat.add_assoc]
      exact cuts index (by simpa using within)

private theorem deliversFrom_iff {packets : List Packet} {chunks : List Bytes} {child : RpcIo}
    (ready : Ready packets start chunks child) :
    DeliversFrom crypt expect child chunks
        (arrivals Packet.bytes packets start (chunks.map List.length)) ↔
      (CutsInHeaders packets start (chunks.map List.length) ∧
        Roomy packets start child.recv.capacity child.recv.tail (chunks.map List.length)) ∧
      ∀ packet ∈ remaining Packet.bytes packets start, Carries crypt expect packet := by
  induction chunks generalizing start child with
  | nil =>
    have none : remaining Packet.bytes packets start = [] := remaining_all ready.total
    rw [none]
    constructor
    · intro _
      exact ⟨⟨by simp [CutsInHeaders], trivial⟩, by simp⟩
    · intro _
      exact ⟨[], rfl, by simp, rfl⟩
  | cons chunk chunks ih =>
    rw [List.map_cons, arrivals_cons, cutsInHeaders_cons, Roomy]
    by_cases uncached : child.shellCached = false
    · have few : pending Packet.bytes packets start < sizeofShell := by
        by_contra full
        have cached := ready.cached.mpr (Nat.not_lt.mp full)
        rw [uncached] at cached
        cases cached
      have tracks := ready.tracks uncached
      have length := ready.length uncached
      rw [List.flatten_cons] at tracks
      obtain ⟨replaced, joined⟩ := rpcRbWrite_tracks tracks ready.linear
      rw [length] at replaced joined
      by_cases large : child.recv.capacity ≤ pending Packet.bytes packets start + chunk.length
      · by_cases fits : pending Packet.bytes packets start + chunk.length + rpcIoDefGrowSize < 2 ^ 31
        · obtain ⟨written, write, after, linear, size, expand, capacity, tail⟩ :=
            replaced large (by rwa [ready.expand])
          rw [ready.expand] at capacity
          rw [deliversFrom_step ready uncached write after linear expand size
            (fun next continues same still => by
              rw [ih continues, same, still, capacity, tail])]
          simp only [if_pos large, few, fits, true_and]
        · simp only [if_pos large, fits, false_and, and_false, iff_false]
          apply deliversFrom_overflows
          intro capacity
          have grows : rpcRbCanWrite child.recv ≤ chunk.length := by
            rw [rpcRbCanWrite, tracks.canRead, length]
            omega
          have less := capacity grows
          rw [rpcRbCapacityNew, tracks.canRead, length, ready.expand] at less
          exact fits less
      · have small := Nat.not_le.mp large
        by_cases room : child.recv.tail + chunk.length < child.recv.capacity
        · obtain ⟨written, write, after, linear, size, expand, capacity, tail⟩ := joined small room
          rw [deliversFrom_step ready uncached write after linear expand size
            (fun next continues same still => by
              rw [ih continues, same, still, capacity, tail])]
          simp only [if_neg large, few, room, true_and]
        · simp only [if_neg large, room, false_and, and_false, iff_false]
          exact deliversFrom_wraps tracks ready.linear (length ▸ small) (Nat.not_lt.mp room)
    · have full : ¬ pending Packet.bytes packets start < sizeofShell :=
        Nat.not_lt.mpr (ready.cached.mp (by simpa using uncached))
      simp only [full, false_and, iff_false]
      intro delivers
      obtain ⟨call, called, _⟩ := deliversFrom_cons.mp delivers
      exact uncached (enqueueChild_uncached called)

/-! ### The list of connections -/

def HeaderRound.child : HeaderRound → RpcIo
  | .short child => child
  | .refused child => child
  | .cached child => child
  | .complete child _ _ => child

private theorem rpcIoHeader_fd {child : RpcIo} (done : rpcIoHeader child = .ok header) :
    header.child.fd = child.fd := by
  unfold rpcIoHeader at done
  split at done
  · rw [← Except.ok.inj done]
    rfl
  · split at done
    · cases done
    · obtain ⟨_, _, done⟩ := bind_ok done
      obtain ⟨_, _, done⟩ := bind_ok done
      dsimp only at done
      split at done
      · rw [← Except.ok.inj done]
        rfl
      · split at done
        · rw [← Except.ok.inj done]
          rfl
        · split at done
          · rw [← Except.ok.inj done]
            rfl
          · rw [← Except.ok.inj done]
            rfl

def Round.child : Round → RpcIo
  | .short child => child
  | .refused child => child
  | .cached child => child
  | .dispatched child _ => child

private theorem rpcIoRound_fd {child : RpcIo} {round : Round} (done : rpcIoRound crypt child = .ok round) :
    round.child.fd = child.fd := by
  obtain ⟨header, first, done⟩ := bind_ok done
  have kept := rpcIoHeader_fd first
  cases header with
  | short after => rw [← Except.ok.inj done]; exact kept
  | refused after => rw [← Except.ok.inj done]; exact kept
  | cached after => rw [← Except.ok.inj done]; exact kept
  | complete after shell bodySize =>
    obtain ⟨⟨last, task⟩, dispatched, done⟩ := bind_ok done
    obtain ⟨_, _, dispatched⟩ := bind_ok dispatched
    obtain ⟨_, _, dispatched⟩ := bind_ok dispatched
    rw [← Except.ok.inj done, ← (Prod.mk.inj (Except.ok.inj dispatched)).1]
    exact kept

private theorem rpcIoRounds_fd {child : RpcIo} {call : Enqueued}
    (done : rpcIoRounds crypt fuel child = .ok call) : call.child.fd = child.fd := by
  induction fuel generalizing child call with
  | zero => cases done
  | succ fuel ih =>
    obtain ⟨round, first, ended⟩ := bind_ok done
    have same := rpcIoRound_fd first
    cases round with
    | short after => rw [← Except.ok.inj ended]; exact same
    | refused after => rw [← Except.ok.inj ended]; exact same
    | cached after => rw [← Except.ok.inj ended]; exact same
    | dispatched after task =>
      obtain ⟨inner, rounds, ended⟩ := bind_ok ended
      rw [← Except.ok.inj ended]
      exact (ih rounds).trans same

private theorem enqueueChild_fd {child : RpcIo} (done : enqueueChild crypt child chunk = .ok call) :
    call.child.fd = child.fd := by
  obtain ⟨_, _, done⟩ := bind_ok done
  obtain ⟨_, _, done⟩ := bind_ok done
  have same := rpcIoRounds_fd done
  exact same

private theorem rpcIoFind_store {ioList : List RpcIo} {fd : Int} {next : RpcIo}
    (found : rpcIoFind ioList fd = some child) (same : next.fd = fd) :
    rpcIoFind (rpcIoStore next ioList) fd = some next := by
  induction ioList with
  | nil => cases found
  | cons other rest ih =>
    by_cases here : other.fd = fd
    · rw [rpcIoStore, if_pos (here.trans same.symm)]
      simp [rpcIoFind, same]
    · have beyond : ¬ other.fd = next.fd := fun equal => here (equal.trans same)
      rw [rpcIoStore, if_neg beyond]
      simp only [rpcIoFind, List.find?_cons, beq_eq_false_iff_ne.mpr here] at found ⊢
      exact ih found

theorem rpcIoFind_add {ioList : List RpcIo} {fd : Int} (fresh : rpcIoFind ioList fd = none) :
    rpcIoFind (rpcIoAdd ioList fd).1 fd = some (rpcIoNew fd) := by
  rw [rpcIoAdd, fresh]
  simp only [rpcIoFind, List.find?_append] at fresh ⊢
  simp [fresh, rpcIoNew]

private theorem rpcIoEnqueueAll_eq {ioList : List RpcIo} {fd : Int} {child : RpcIo} {chunks : List Bytes}
    (found : rpcIoFind ioList fd = some child) (same : child.fd = fd) :
    rpcIoEnqueueAll crypt fd ioList chunks = enqueueChildAll crypt child chunks := by
  induction chunks generalizing ioList child with
  | nil => rfl
  | cons chunk chunks ih =>
    cases called : enqueueChild crypt child chunk with
    | error fault =>
      simp only [rpcIoEnqueueAll, enqueueChildAll, rpcIoEnqueue, found, called, bind, Except.bind]
    | ok call =>
      have kept : call.child.fd = fd := (enqueueChild_fd called).trans same
      have onward := ih (rpcIoFind_store found kept) kept
      simp only [rpcIoEnqueueAll, enqueueChildAll, rpcIoEnqueue, found, called, bind, Except.bind,
        pure, Except.pure, onward]

private theorem delivered_iff_deliversFrom {ioList : List RpcIo} {packets : List Packet}
    {chunks : List Bytes} (fresh : rpcIoFind ioList fd = none) :
    Delivered crypt expect (rpcIoAdd ioList fd).1 fd packets chunks ↔
      DeliversFrom crypt expect (rpcIoNew fd) chunks
        (arrivals Packet.bytes packets 0 (chunks.map List.length)) := by
  rw [Delivered, rpcIoEnqueueAll_eq (rpcIoFind_add fresh) rfl, DeliversFrom]

/-- A connection delivers a packet stream exactly when no cut falls behind the
header of an incomplete packet, no chunk reaches the end of the ring's storage or
asks for more of it than an `int` counts, and every body is left as it was sent by its decryption. With the decrypted
bodies in place of the sent ones, it is enough that the decryptions succeed. -/
theorem rpcIoEnqueue_delivered_iff (crypt : RpcCrypt) (ioList : List RpcIo) (fd : Int)
    (packets : List Packet) (chunks : List Bytes) (fresh : rpcIoFind ioList fd = none)
    (cut : chunks.flatten = stream Packet.bytes packets) :
    (Delivered crypt Packet.body (rpcIoAdd ioList fd).1 fd packets chunks ↔
      (CutsInHeaders packets 0 (chunks.map List.length) ∧
        Roomy packets 0 rpcIoDefGrowSize 0 (chunks.map List.length)) ∧
      ∀ packet ∈ packets, Carries crypt Packet.body packet) ∧
    (Delivered crypt (decryptedBody crypt) (rpcIoAdd ioList fd).1 fd packets chunks ↔
      (CutsInHeaders packets 0 (chunks.map List.length) ∧
        Roomy packets 0 rpcIoDefGrowSize 0 (chunks.map List.length)) ∧
      ∀ packet ∈ packets, ∃ body, receivedBody crypt packet.shell packet.body = .ok body) := by
  have run : ∀ expect : Packet → Bytes, DeliversFrom crypt expect (rpcIoNew fd) chunks _ ↔ _ :=
    fun _ => deliversFrom_iff (ready_new cut fd)
  simp only [(nothing_completed packets).1] at run
  rw [delivered_iff_deliversFrom fresh, delivered_iff_deliversFrom fresh]
  refine ⟨run Packet.body, ?_⟩
  rw [run (decryptedBody crypt)]
  simp only [carries_decryptedBody]
  rfl

/-- A post packet that is not encrypted. -/
def plainPacket (category subCategory : UInt8) (body : Bytes) (short : body.length < 2 ^ 31) :
    Packet where
  shell := plainShell category subCategory reqTypePost body.length
  body := body
  magic_eq := rfl
  version_eq := rfl
  bodySize_eq := by
    have value : (BitVec.ofNat 32 body.length).toNat = body.length := by
      rw [BitVec.toNat_ofNat]
      omega
    have positive : 2 * (BitVec.ofNat 32 body.length).toNat < 2 ^ 32 := by omega
    have signed := BitVec.toInt_eq_toNat_of_lt positive
    exact signed.trans (congrArg _ value)

theorem rpcIoEnqueue_delivered_whole :
    Delivered noCiphers Packet.body (rpcIoAdd [] 7).1 7
      [plainPacket 1 2 [42] (by decide), plainPacket 1 3 [] (by decide)]
      [(plainPacket 1 2 [42] (by decide)).bytes ++ (plainPacket 1 3 [] (by decide)).bytes] := by
  refine (rpcIoEnqueue_delivered_iff noCiphers [] 7 _ _ rfl (by simp)).1.mpr ⟨by decide, ?_⟩
  intro packet member
  rcases List.mem_pair.mp member with rfl | rfl
  · exact carries_plain _ _ rfl
  · exact carries_plain _ _ rfl

/-- A cut between a header and its body loses the packet: the next call reads the
header through a pointer it never set. -/
theorem rpcIoEnqueue_body_apart :
    let packet := plainPacket 1 2 [42] (by decide)
    [packet.shell.bytes, packet.body].flatten = stream Packet.bytes [packet] ∧
      (∀ chunk ∈ [packet.shell.bytes, packet.body], chunk ≠ []) ∧
      ¬ Delivered noCiphers Packet.body (rpcIoAdd [] 7).1 7 [packet] [packet.shell.bytes, packet.body] := by
  intro packet
  have cut : [packet.shell.bytes, packet.body].flatten = stream Packet.bytes [packet] := by
    simp [Packet.bytes]
  refine ⟨cut, by decide, ?_⟩
  rw [delivered_iff_deliversFrom rfl, deliversFrom_iff (ready_new cut 7)]
  rintro ⟨⟨cuts, _⟩, _⟩
  exact absurd cuts (by decide)

end Livezure.Rpc
