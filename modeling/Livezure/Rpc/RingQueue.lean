import Livezure.Core.Transition
import Livezure.Rpc.RingInvariant

/-! The ring under any sequence of writes and reads, against a queue of bytes. -/
namespace Livezure.Rpc
open Livezure.Core

inductive RingCall where
  | write (data : Bytes)
  | read (count : Nat)
  deriving DecidableEq

/-- The ring, and the bytes that were written to it and not read yet. -/
structure RingState where
  rb : RpcRb
  unread : Bytes
  deriving DecidableEq

namespace RingState

def new (capacity expand : Nat) : RingState := ⟨rpcRbNew capacity expand, []⟩

def next (state : RingState) : RingCall → Option RingState
  | .write data =>
    match rpcRbWrite state.rb data with
    | .error _ => none
    | .ok result => some ⟨result.rb, state.unread ++ data⟩
  | .read count =>
    match rpcRbRead state.rb count with
    | .error _ => none
    | .ok result => some ⟨result.rb, state.unread.drop count⟩

def system : System RingState RingCall where
  Start state := ∃ capacity expand, 0 < capacity ∧ 0 < expand ∧ state = new capacity expand
  next := next

/-- The calls write something and read no more than there is. -/
def Allowed (unread : Nat) : List RingCall → Prop
  | [] => True
  | .write data :: rest => data ≠ [] ∧ Allowed (unread + data.length) rest
  | .read count :: rest => 1 ≤ count ∧ count ≤ unread ∧ Allowed (unread - count) rest

instance decidableAllowed : (calls : List RingCall) → (unread : Nat) → Decidable (Allowed unread calls)
  | [], _ => .isTrue trivial
  | .write data :: rest, unread =>
    have := decidableAllowed rest (unread + data.length)
    inferInstanceAs (Decidable (data ≠ [] ∧ Allowed (unread + data.length) rest))
  | .read count :: rest, unread =>
    have := decidableAllowed rest (unread - count)
    inferInstanceAs (Decidable (1 ≤ count ∧ count ≤ unread ∧ Allowed (unread - count) rest))

/-- The call does what a queue does, and stores nothing outside of the ring. -/
def Queues (state : RingState) : RingCall → Prop
  | .write data => ∃ result, rpcRbWrite state.rb data = .ok result ∧ result.rb.strayed = false ∧
      result.rb.content = state.unread ++ data
  | .read count => ∃ result, rpcRbRead state.rb count = .ok result ∧ result.rb.strayed = false ∧
      result.size = count ∧ result.rb.load result.data count = .ok (state.unread.take count) ∧
      result.rb.content = state.unread.drop count

/-- A read that wraps ends before the end of the storage, and the ring grows only where it does
not wrap and the new capacity is an `int`. -/
def Sound (state : RingState) : RingCall → Prop
  | .write data => rpcRbCanWrite state.rb ≤ data.length →
      ¬state.rb.Wrapped ∧ rpcRbCanRead state.rb + data.length + state.rb.expand < 2 ^ 31
  | .read count => state.rb.head < state.rb.tail ∨ count < state.rb.capacity - state.rb.head

instance (state : RingState) : (call : RingCall) → Decidable (Sound state call)
  | .write data => inferInstanceAs (Decidable (rpcRbCanWrite state.rb ≤ data.length →
      ¬state.rb.tail < state.rb.head ∧
        rpcRbCanRead state.rb + data.length + state.rb.expand < 2 ^ 31))
  | .read count => inferInstanceAs (Decidable
      (state.rb.head < state.rb.tail ∨ count < state.rb.capacity - state.rb.head))

end RingState

/-! ### One call -/

/-- The ring is valid, has strayed nowhere and holds what was not read yet. -/
structure RingState.Holds (state : RingState) (calls : List RingCall) : Prop where
  valid : state.rb.Valid
  clean : state.rb.strayed = false
  content : state.rb.content = state.unread
  allowed : RingState.Allowed state.unread.length calls

section Calls
variable {state : RingState} {rest : List RingCall}

theorem rpcRbWrite_appends {rb : RpcRb} {data : Bytes} (valid : rb.Valid) (clean : rb.strayed = false)
    (unwrapped : rpcRbCanWrite rb ≤ data.length → ¬rb.Wrapped) (fits : rb.GrowthFits data.length) :
    ∃ after, rpcRbWrite rb data = .ok ⟨after, data.length⟩ ∧ after.Valid ∧ after.strayed = false ∧
      after.content = rb.content ++ data := by
  by_cases large : rpcRbCanWrite rb ≤ data.length
  · have linear := unwrapped large
    have still := grown_valid valid data.length
    have tail : (grown rb data.length).tail + data.length < (grown rb data.length).capacity := by
      have positive := valid.expand_pos
      simp only [grown, rpcRbCapacityNew]
      omega
    have order : ¬(grown rb data.length).Wrapped := Nat.not_lt.mpr (Nat.zero_le _)
    refine ⟨_, rpcRbWrite_grown valid clean linear large fits, appended_valid still tail, clean, ?_⟩
    rw [appended_content still order (Nat.le_of_lt tail), grown_content valid]
  · have free := Nat.not_le.mp large
    by_cases wrapped : rb.Wrapped
    · obtain ⟨after, done, kept, _, content, strayed⟩ := rpcRbWrite_behind valid wrapped free
      exact ⟨after, done, kept, strayed.trans clean, content⟩
    · by_cases room : rb.tail + data.length < rb.capacity
      · exact ⟨_, rpcRbWrite_room valid wrapped free room, appended_valid valid room, clean,
          appended_content valid wrapped (Nat.le_of_lt room)⟩
      · obtain ⟨after, done, kept, _, content, strayed⟩ :=
          rpcRbWrite_past valid wrapped free (Nat.not_lt.mp room)
        exact ⟨after, done, kept, strayed.trans clean, content⟩

theorem RingState.Holds.write_iff {data : Bytes} (holds : state.Holds (.write data :: rest)) :
    state.Queues (.write data) ↔ state.Sound (.write data) := by
  constructor
  · rintro ⟨result, done, clean, _⟩ large
    refine ⟨fun wrapped => ?_, RpcRb.GrowthFits.of_write done large⟩
    rw [rpcRbWrite_wrapped_grown holds.valid wrapped large done] at clean
    cases clean
  · intro sound
    obtain ⟨after, done, _, clean, content⟩ := rpcRbWrite_appends holds.valid holds.clean
      (fun large => (sound large).1) (fun large => (sound large).2)
    exact ⟨_, done, clean, by rw [content, holds.content]⟩

/-- A read in bounds takes the next bytes where it does not cross the end of the storage. -/
theorem rpcRbRead_takes {rb : RpcRb} {count : Nat} (valid : rb.Valid) (clean : rb.strayed = false)
    (within : count ≤ rpcRbCanRead rb) (sound : rb.head < rb.tail ∨ count < rb.capacity - rb.head) :
    ∃ result, rpcRbRead rb count = .ok result ∧ ReadsQueue rb count result ∧
      result.rb.strayed = false := by
  by_cases linear : rb.head < rb.tail
  · have read := rpcRbRead_linear linear within
    exact ⟨_, read, rpcRbRead_queue valid within read clean, clean⟩
  · have inside := sound.resolve_left linear
    have read := rpcRbRead_inside valid (Nat.not_lt.mp linear) inside
    have still : (rpcRbReserve rb count).strayed = false := by simpa using clean
    exact ⟨_, read, rpcRbRead_queue valid within read still, still⟩

theorem RingState.Holds.within {count : Nat} (holds : state.Holds (.read count :: rest)) :
    count ≤ rpcRbCanRead state.rb := by
  rw [← holds.valid.content_length, holds.content]
  exact holds.allowed.2.1

theorem RingState.Holds.read_iff {count : Nat} (holds : state.Holds (.read count :: rest)) :
    state.Queues (.read count) ↔ state.Sound (.read count) := by
  constructor
  · rintro ⟨result, done, clean, _⟩
    by_cases linear : state.rb.head < state.rb.tail
    · exact .inl linear
    · right
      apply Nat.not_le.mp
      intro across
      rw [rpcRbRead_across (Nat.not_lt.mp linear) across done] at clean
      cases clean
  · intro sound
    obtain ⟨result, done, reads, clean⟩ :=
      rpcRbRead_takes holds.valid holds.clean holds.within sound
    exact ⟨result, done, clean, reads.size, holds.content ▸ reads.bytes, holds.content ▸ reads.content⟩

theorem RingState.Holds.call_iff {call : RingCall} (holds : state.Holds (call :: rest)) :
    state.Queues call ↔ state.Sound call := by
  cases call with
  | write data => exact holds.write_iff
  | read count => exact holds.read_iff

theorem RingState.Holds.step {call : RingCall} {after : RingState}
    (holds : state.Holds (call :: rest)) (queues : state.Queues call)
    (step : state.next call = some after) : after.Holds rest := by
  have sound := holds.call_iff.mp queues
  cases call with
  | write data =>
    obtain ⟨written, done, valid, clean, content⟩ := rpcRbWrite_appends holds.valid holds.clean
      (fun large => (sound large).1) (fun large => (sound large).2)
    simp only [RingState.next, done] at step
    obtain rfl := Option.some.inj step
    refine ⟨valid, clean, by rw [content, holds.content], ?_⟩
    rw [List.length_append]
    exact holds.allowed.2
  | read count =>
    obtain ⟨result, done, reads, clean⟩ :=
      rpcRbRead_takes holds.valid holds.clean holds.within sound
    simp only [RingState.next, done] at step
    obtain rfl := Option.some.inj step
    refine ⟨reads.valid, clean, by rw [reads.content, holds.content], ?_⟩
    rw [List.length_drop]
    exact holds.allowed.2.2

end Calls

/-! ### Every sequence -/

namespace RingState

/-- The ring is a queue exactly in the sequences whose wrapped reads end before the end of the
storage and in which it grows only where it does not wrap. -/
theorem queues_iff (capacity expand : Nat) (positive : 0 < capacity) (growing : 0 < expand)
    (calls : List RingCall) (allowed : Allowed 0 calls) :
    system.Guarded Queues (new capacity expand) calls ↔
      system.Guarded Sound (new capacity expand) calls := by
  have start : (new capacity expand).Holds calls :=
    ⟨rpcRbNew_valid positive growing, rfl, rpcRbNew_content _ _, allowed⟩
  apply System.guarded_iff Holds _ _ start
  · intro state call rest holds
    exact holds.call_iff
  · intro state call rest after holds queues step
    exact holds.step queues step

/-- A ring of eight bytes that wraps, and whose wrapped part is read byte by byte. -/
theorem queues_wrapped :
    let calls : List RingCall := [.write [1, 2, 3, 4, 5, 6], .read 5, .write [7, 8, 9], .read 1,
      .write [10]]
    system.Guarded Queues (new 8 4) calls := by
  intro calls
  exact (queues_iff 8 4 (by decide) (by decide) calls (by decide)).mpr (by decide)

/-- The same ring, whose wrapped part is read at once: four bytes in two pieces. -/
theorem not_queues_across :
    ¬system.Guarded Queues (new 8 4) [.write [1, 2, 3, 4, 5, 6], .read 5, .write [7, 8, 9], .read 4] := by
  rintro ⟨_, first⟩
  obtain ⟨_, second⟩ := first _ rfl
  obtain ⟨_, third⟩ := second _ rfl
  obtain ⟨⟨result, done, clean, _⟩, _⟩ := third _ rfl
  obtain rfl := Except.ok.inj done
  cases clean

end RingState
end Livezure.Rpc
