import Livezure.Core.Framing
import Livezure.Rpc.IoLinear

/-! What one round of the receive loop does when the ring holds a prefix of a
stream of well-formed packets. -/
namespace Livezure.Rpc
open Livezure.Core

/-- A well-formed packet. -/
structure Packet where
  shell : RpcShell
  body : Bytes
  magic_eq : shell.magic = rpcMagicNumber
  version_eq : shell.version = rpcVersionSign
  bodySize_eq : shell.bodySize.toInt = body.length

namespace Packet

def bytes (packet : Packet) : Bytes := packet.shell.bytes ++ packet.body

@[simp] theorem bytes_length (packet : Packet) :
    packet.bytes.length = sizeofShell + packet.body.length := by
  simp [bytes]

private theorem bodySize_zero (packet : Packet) : packet.shell.bodySize = 0 ↔ packet.body = [] := by
  constructor
  · intro zero
    have size := packet.bodySize_eq
    rw [zero] at size
    exact List.length_eq_zero_iff.mp (by simpa using size.symm)
  · intro empty
    have size := packet.bodySize_eq
    rw [empty] at size
    exact BitVec.eq_of_toInt_eq (by simpa using size)

end Packet

/-- The ring holds the next bytes of the packets, and `later` are still to come. -/
structure Tracks (packets : List Packet) (later : Bytes) (recv : RpcRb) : Prop where
  valid : recv.Valid
  clean : recv.strayed = false
  ahead : recv.content ++ later = stream Packet.bytes packets

namespace Tracks
variable {packets : List Packet} {later : Bytes} {recv : RpcRb}

theorem canRead (tracks : Tracks packets later recv) : rpcRbCanRead recv = recv.content.length :=
  tracks.valid.content_length.symm

theorem next (tracks : Tracks packets later recv) (some : 0 < recv.content.length) :
    ∃ packet rest, packets = packet :: rest := by
  cases packets with
  | nil =>
    have ahead := congrArg List.length tracks.ahead
    rw [List.length_append, stream_nil, List.length_nil] at ahead
    omega
  | cons packet rest => exact ⟨packet, rest, rfl⟩

theorem take (tracks : Tracks packets later recv) (within : count ≤ recv.content.length) :
    recv.content.take count = (stream Packet.bytes packets).take count := by
  rw [← tracks.ahead, List.take_append_of_le_length within]

theorem drop (tracks : Tracks packets later recv) (within : count ≤ recv.content.length) :
    recv.content.drop count ++ later = (stream Packet.bytes packets).drop count := by
  rw [← tracks.ahead, List.drop_append_of_le_length within]

theorem header {packet : Packet} {rest : List Packet} (tracks : Tracks (packet :: rest) later recv)
    (enough : sizeofShell ≤ recv.content.length) :
    RpcShell.ofBytes (recv.content.take sizeofShell) = packet.shell := by
  rw [tracks.take enough, stream_cons, Packet.bytes, List.append_assoc,
    List.take_append_of_le_length (by simp), List.take_of_length_le (by simp),
    RpcShell.ofBytes_bytes]

theorem body {packet : Packet} {rest : List Packet} (tracks : Tracks (packet :: rest) later recv)
    (whole : packet.bytes.length ≤ recv.content.length) :
    (recv.content.drop sizeofShell).take packet.body.length = packet.body := by
  have length := packet.bytes_length
  have bytes : recv.content.take (sizeofShell + packet.body.length) =
      packet.shell.bytes ++ packet.body := by
    rw [tracks.take (by omega), stream_cons, ← length,
      List.take_append_of_le_length (Nat.le_refl _), List.take_length, Packet.bytes]
  rw [List.take_drop, bytes, List.drop_left' (by simp)]

theorem rest {packet : Packet} {rest : List Packet} (tracks : Tracks (packet :: rest) later recv)
    (whole : packet.bytes.length ≤ recv.content.length) :
    recv.content.drop packet.bytes.length ++ later = stream Packet.bytes rest := by
  rw [tracks.drop whole, stream_cons, List.drop_left]

end Tracks

/-- What the loop has done to a ring that tracks the packets when a round ends. -/
def Follows (packets : List Packet) (later : Bytes) (child : RpcIo) : Round → Prop
  | .short after => after = child ∧ child.recv.content.length < sizeofShell
  | .refused _ => False
  | .cached after => after.shellCached = true ∧ later ≠ []
  | .dispatched after _ =>
    after.fd = child.fd ∧ after.shellCached = false ∧
      (after.recv.Wrapped ↔ child.recv.Wrapped) ∧
      ∃ packet rest, packets = packet :: rest ∧ Tracks rest later after.recv

theorem readBody_follows {packet : Packet} {rb : RpcRb}
    (valid : rb.Valid) (clean : rb.strayed = false)
    (within : packet.body.length ≤ rpcRbCanRead rb)
    (read : readBody crypt rb shell packet.shell.bodySize = .ok (after, body)) :
    after.Valid ∧ after.strayed = false ∧ after.content = rb.content.drop packet.body.length ∧
      (after.Wrapped ↔ rb.Wrapped) := by
  by_cases empty : packet.shell.bodySize = 0
  · rw [readBody, if_pos empty] at read
    have same : rb = after := congrArg Prod.fst (Except.ok.inj read)
    subst same
    have none : packet.body = [] := packet.bodySize_zero.mp empty
    exact ⟨valid, clean, by simp [none], Iff.rfl⟩
  · rw [readBody, if_neg empty, packet.bodySize_eq] at read
    obtain ⟨taken, done, read⟩ := bind_ok read
    obtain ⟨queue, unstrayed⟩ := readSound_ok valid within done
    obtain ⟨_, _, read⟩ := bind_ok read
    obtain ⟨_, _, read⟩ := bind_ok read
    obtain ⟨_, _, read⟩ := bind_ok read
    obtain ⟨_, _, read⟩ := bind_ok read
    have same : taken.rb = after := congrArg Prod.fst (Except.ok.inj read)
    subst same
    exact ⟨queue.valid, unstrayed, queue.content, queue.layout⟩

/-- In every layout of the ring: a round that meets no fault takes whole packets off the stream. -/
theorem rpcIoRound_follows {child : RpcIo} {round : Round}
    (tracks : Tracks packets later child.recv)
    (uncached : child.shellCached = false) (done : rpcIoRound crypt child = .ok round) :
    Follows packets later child round := by
  have length := tracks.canRead
  obtain ⟨header, first, done⟩ := bind_ok done
  by_cases few : child.recv.content.length < sizeofShell
  · rw [rpcIoHeader_short tracks.valid uncached few] at first
    rw [← Except.ok.inj first] at done
    rw [← Except.ok.inj done]
    exact ⟨rfl, few⟩
  · have start : ¬ (child.shellCached = false ∧ rpcRbCanRead child.recv < sizeofShell) := by
      rw [length]
      exact fun both => few both.2
    have enough : sizeofShell ≤ child.recv.content.length := Nat.not_lt.mp few
    have settled : ¬ child.shellCached = true := by simp [uncached]
    rw [rpcIoHeader, if_neg start, if_neg settled] at first
    obtain ⟨packet, rest, rfl⟩ := tracks.next (Nat.lt_of_lt_of_le (by decide) enough)
    obtain ⟨read, took, first⟩ := bind_ok first
    obtain ⟨queue, unstrayed⟩ := readSound_ok tracks.valid (by omega) took
    obtain ⟨shell, loaded, first⟩ := bind_ok first
    have same : shell = packet.shell := by
      rw [loadShell, queue.bytes] at loaded
      rw [← tracks.header enough]
      exact (Except.ok.inj loaded).symm
    subst same
    have left : rpcRbCanRead read.rb = child.recv.content.length - sizeofShell := by
      rw [← queue.valid.content_length, queue.content, List.length_drop]
    simp only [packet.magic_eq, packet.version_eq, ne_eq, not_true_eq_false, ↓reduceIte,
      packet.bodySize_eq, left] at first
    split at first
    · rename_i missing
      rw [← Except.ok.inj first] at done
      rw [← Except.ok.inj done]
      refine ⟨rfl, ?_⟩
      intro nothing
      have whole := congrArg List.length tracks.ahead
      rw [nothing, List.append_nil, stream_cons, List.length_append, packet.bytes_length] at whole
      omega
    · rename_i present
      rw [← Except.ok.inj first] at done
      obtain ⟨⟨after, task⟩, dispatched, done⟩ := bind_ok done
      obtain ⟨⟨recv, body⟩, bodyRead, dispatched⟩ := bind_ok dispatched
      obtain ⟨seen, _, dispatched⟩ := bind_ok dispatched
      obtain ⟨valid, clean, content, layout⟩ :=
        readBody_follows queue.valid unstrayed (by omega) bodyRead
      rw [← Except.ok.inj done, ← (Prod.mk.inj (Except.ok.inj dispatched)).1]
      refine ⟨rfl, rfl, layout.trans queue.layout, packet, rest, rfl, valid, clean, ?_⟩
      have whole : packet.bytes.length ≤ child.recv.content.length := by
        rw [packet.bytes_length]
        omega
      rw [content, queue.content, List.drop_drop, ← packet.bytes_length]
      exact tracks.rest whole

section Linear
variable {child : RpcIo} {packet : Packet} {rest : List Packet}

theorem rpcIoRound_short {packets : List Packet} (tracks : Tracks packets later child.recv)
    (uncached : child.shellCached = false) (few : child.recv.content.length < sizeofShell) :
    rpcIoRound crypt child = .ok (.short child) := by
  rw [rpcIoRound, rpcIoHeader_short tracks.valid uncached few]
  rfl

/-- A well-formed packet at the front of the ring passes the checks of its header. -/
theorem rpcIoHeader_packet (tracks : Tracks (packet :: rest) later child.recv)
    (linear : ¬ child.recv.Wrapped) (uncached : child.shellCached = false)
    (enough : sizeofShell ≤ child.recv.content.length) :
    rpcIoHeader child =
      if child.recv.content.length < packet.bytes.length then
        .ok (.cached { child with
          recv := taken child.recv sizeofShell, shell := packet.shell, shellCached := true })
      else .ok (.complete { child with recv := taken child.recv sizeofShell }
        (.storage child.recv.generation child.recv.head) packet.shell.bodySize) := by
  have missing : (child.recv.content.length : Int) < sizeofShell + (packet.body.length : Int) ↔
      child.recv.content.length < sizeofShell + packet.body.length := by
    omega
  rw [rpcIoHeader_linear tracks.valid tracks.clean linear uncached enough, tracks.header enough]
  simp only [headerOutcome, packet.magic_eq, packet.version_eq, ne_eq, not_true_eq_false,
    ↓reduceIte, packet.bodySize_eq, packet.bytes_length, missing]
  split <;> rfl

theorem rpcIoRound_cached (tracks : Tracks (packet :: rest) later child.recv)
    (linear : ¬ child.recv.Wrapped) (uncached : child.shellCached = false)
    (enough : sizeofShell ≤ child.recv.content.length)
    (missing : child.recv.content.length < packet.bytes.length) :
    rpcIoRound crypt child = .ok (.cached { child with
      recv := taken child.recv sizeofShell, shell := packet.shell, shellCached := true }) := by
  rw [rpcIoRound, rpcIoHeader_packet tracks linear uncached enough, if_pos missing]
  rfl

theorem taken_tracks (tracks : Tracks (packet :: rest) later recv) (linear : ¬ recv.Wrapped)
    (whole : packet.bytes.length ≤ recv.content.length) :
    Tracks rest later (taken recv packet.bytes.length) ∧
      ¬ (taken recv packet.bytes.length).Wrapped := by
  obtain ⟨valid, layout, content⟩ := taken_queue tracks.valid linear whole
  refine ⟨⟨valid, tracks.clean, ?_⟩, layout⟩
  rw [content]
  exact tracks.rest whole

/-- A complete packet is taken off the ring and handed to the dispatcher. -/
theorem rpcIoRound_dispatched (tracks : Tracks (packet :: rest) later child.recv)
    (linear : ¬ child.recv.Wrapped) (uncached : child.shellCached = false)
    (whole : packet.bytes.length ≤ child.recv.content.length) :
    rpcIoRound crypt child = do
      let body ← receivedBody crypt packet.shell packet.body
      return .dispatched
        { child with recv := taken child.recv packet.bytes.length, shellCached := false }
        { fd := child.fd, shell := .storage child.recv.generation child.recv.head
          seen := packet.shell, body } := by
  have length := packet.bytes_length
  have enough : sizeofShell ≤ child.recv.content.length := by omega
  obtain ⟨valid, layout, content⟩ := taken_queue tracks.valid linear enough
  have loads : ∀ count, loadShell (taken (taken child.recv sizeofShell) count)
      (.storage child.recv.generation child.recv.head) = .ok packet.shell := by
    intro count
    rw [taken_taken, loadShell_taken linear enough, tracks.header enough]
  have dispatched : rpcIoDispatch crypt { child with recv := taken child.recv sizeofShell } _ _ = _ :=
    rpcIoDispatch_linear valid tracks.clean layout packet.bodySize_eq
      (by rw [content, List.length_drop]; omega) loads
  rw [content, tracks.body whole] at dispatched
  rw [rpcIoRound, rpcIoHeader_packet tracks linear uncached enough,
    if_neg (Nat.not_lt.mpr whole)]
  simp only [bind, Except.bind] at dispatched ⊢
  rw [dispatched]
  cases receivedBody crypt packet.shell packet.body with
  | error fault => rfl
  | ok received => simp only [pure, Except.pure, taken_taken, ← length]

end Linear
end Livezure.Rpc
