import Livezure.Core.Framing
import Livezure.Core.Reader
import Livezure.Rpc.Lookup
import Livezure.Rpc.RoundTrip

/-! Byte strings that are appended to a buffer one after the other, and what `rpc_buffer_next`
gives of them: of the buffer and of its copies. -/
namespace Livezure.Rpc
open Livezure.Core

/-- `rpc_buffer_next` where its sums are `rpc_size_t`s. -/
def rpcBufferNextSized (buffer : RpcBuffer) : Except Fault (RpcBuffer × Option (Int × Int)) :=
  if buffer.parsePosition + 2 < 2 ^ 31 then do
    let (after, frame) ← rpcBufferNext buffer
    if after.parsePosition < 2 ^ 31 then return (after, frame) else .error .outOfBounds
  else .error .outOfBounds

/-- `rpc_buffer_new` where `chunk_size` is an `rpc_size_t`. -/
def rpcBufferNewSized (source : Option Bytes) (size : Int) : Except Fault (Option RpcBuffer) :=
  if size + 1 + rpcBufferDefGrowSize < 2 ^ 31 then rpcBufferNew source size else .error .outOfBounds

def rpcBufferCloneSized (buffer : RpcBuffer) : Except Fault (Option RpcBuffer) :=
  rpcBufferNewSized (some buffer.chunk) buffer.chunkUsed

/-- A call of `rpc_buffer_next`, and the bytes that its result shows: as many as `*size` says. -/
def RpcBuffer.nextString (buffer : RpcBuffer) : Except Fault (RpcBuffer × Option Bytes) := do
  let (after, frame) ← rpcBufferNextSized buffer
  match frame with
  | none => return (after, none)
  | some (offset, size) =>
    if 0 ≤ offset ∧ 0 ≤ size then do
      let bytes ← slice after.chunk offset.toNat size.toNat
      return (after, some bytes)
    else .error .outOfBounds

def appendStrings (room : Nat) (buffer : Option RpcBuffer) : List Bytes → Except Fault (Option RpcBuffer)
  | [] => .ok buffer
  | string :: rest => do
    let buffer ← rpcBufferAppend (buffer.map fun buffer => buffer.widen room) string string.length
    appendStrings room (some buffer) rest

def stringFrame (string : Bytes) : Bytes := leBytes sizeofSize string.length ++ string

def totalSize (strings : List Bytes) : Nat := (stream stringFrame strings).length

/-- Rewound, the buffer gives the strings in order and then nothing, and so once more after
any number of calls. -/
def ReadsBack (buffer : RpcBuffer) (strings : List Bytes) : Prop :=
  ∀ count, ∃ after,
    callTimes RpcBuffer.nextString count (rpcBufferRewind buffer) = .ok (after, handedOut strings count) ∧
    ∀ again, ∃ last, callTimes RpcBuffer.nextString again (rpcBufferRewind after) =
      .ok (last, handedOut strings again)

/-- So do the copies that `rpc_buffer_new` and `rpc_buffer_clone` make of its bytes. -/
def CopiesReadBack (buffer : RpcBuffer) (strings : List Bytes) : Prop :=
  (∀ more, ∃ copy, rpcBufferNewSized (some (buffer.bytes ++ more)) buffer.chunkUsed = .ok (some copy) ∧
    ReadsBack copy strings) ∧
  ∃ clone, rpcBufferCloneSized buffer = .ok (some clone) ∧ ReadsBack clone strings

/-! ### Appending -/

theorem stringFrame_length (string : Bytes) :
    (stringFrame string).length = sizeofSize + string.length := by
  rw [stringFrame, List.length_append, leBytes_length]

theorem appendStrings_ok (buffer : Option RpcBuffer) {strings : List Bytes} {room : Nat}
    (nonempty : ∀ string ∈ strings, string ≠ [])
    (enough : ∀ string ∈ strings, (stringFrame string).length ≤ room) :
    ∃ result, appendStrings room buffer strings = .ok result ∧
      (result.map RpcBuffer.bytes).getD [] =
        (buffer.map RpcBuffer.bytes).getD [] ++ stream stringFrame strings := by
  induction strings generalizing buffer with
  | nil => exact ⟨buffer, rfl, by simp⟩
  | cons string rest ih =>
    obtain ⟨own, others⟩ := List.forall_mem_cons.mp nonempty
    obtain ⟨fits, laterFit⟩ := List.forall_mem_cons.mp enough
    rw [stringFrame_length] at fits
    obtain ⟨next, appended⟩ := rpcBufferAppend_in buffer own fits
    have bytes : next.bytes = (buffer.map RpcBuffer.bytes).getD [] ++ stringFrame string := by
      have same := rpcBufferAppend_bytes own appended
      cases buffer <;> exact same
    obtain ⟨result, done, whole⟩ := ih (some next) others laterFit
    refine ⟨result, ?_, ?_⟩
    · simp only [appendStrings, appended, bind, Except.bind]
      exact done
    · rw [whole, Option.map_some, Option.getD_some, bytes, stream_cons, List.append_assoc]

theorem appendStrings_some {buffer : RpcBuffer} {strings : List Bytes} {room : Nat}
    (done : appendStrings room (some buffer) strings = .ok result) : ∃ last, result = some last := by
  induction strings generalizing buffer with
  | nil => exact ⟨buffer, (Except.ok.inj done).symm⟩
  | cons string rest ih =>
    obtain ⟨next, _, done⟩ := bind_ok done
    exact ih done

/-! ### Reading -/

/-- The buffer at a position from which these strings are left. -/
def Unread (buffer : RpcBuffer) (strings : List Bytes) (state : RpcBuffer) : Prop :=
  ∃ position : Nat, state = buffer.seek position ∧ position ≤ buffer.chunkUsed ∧
    buffer.rest position = stream stringFrame strings ∧ ∀ string ∈ strings, string ≠ []

theorem rpcBufferNextSized_ok {buffer after : RpcBuffer} {frame : Option (Int × Int)}
    (sum : buffer.parsePosition + 2 < 2 ^ 31) (next : rpcBufferNext buffer = .ok (after, frame))
    (moved : after.parsePosition < 2 ^ 31) : rpcBufferNextSized buffer = .ok (after, frame) := by
  simp only [rpcBufferNextSized, if_pos sum, next, bind, Except.bind, if_pos moved, pure, Except.pure]

theorem RpcBuffer.nextString_some {buffer after : RpcBuffer} {offset size : Nat}
    (next : rpcBufferNextSized buffer = .ok (after, some ((offset : Int), (size : Int))))
    (content : slice after.chunk offset size = .ok string) :
    buffer.nextString = .ok (after, some string) := by
  have places : (0 : Int) ≤ offset ∧ (0 : Int) ≤ size := by omega
  simp only [RpcBuffer.nextString, next, bind, Except.bind, if_pos places, Int.toNat_natCast, content,
    pure, Except.pure]

@[simp] theorem RpcBuffer.seek_position (buffer : RpcBuffer) (position : Int) :
    (buffer.seek position).parsePosition = position := rfl

section Reading
variable {buffer state : RpcBuffer} {string : Bytes} {strings : List Bytes}

theorem Unread.rewound (unread : Unread buffer strings state) : rpcBufferRewind state = buffer.seek 0 := by
  obtain ⟨position, rfl, _⟩ := unread
  rfl

private theorem unread_start (bytes : buffer.bytes = stream stringFrame strings)
    (nonempty : ∀ string ∈ strings, string ≠ []) : Unread buffer strings (buffer.seek 0) :=
  ⟨0, rfl, Nat.zero_le _, bytes, nonempty⟩

/-- The string in front is the next one. -/
theorem Unread.next (unread : Unread buffer (string :: strings) state) (small : buffer.chunkUsed < 2 ^ 31) :
    ∃ after, state.nextString = .ok (after, some string) ∧ Unread buffer strings after := by
  obtain ⟨position, rfl, inside, rest, nonempty⟩ := unread
  obtain ⟨own, others⟩ := List.forall_mem_cons.mp nonempty
  rw [stream_cons] at rest
  have size : sizeofSize = 4 := rfl
  have length := rest_length inside
  rw [rest, List.length_append, stringFrame_length] at length
  obtain ⟨framed, announces, behind⟩ := Framed.of_content inside rest own (by omega)
  have frame := framed.next
  rw [announces, behind] at frame
  have memory := rest_tail inside
  rw [rest, stringFrame] at memory
  have content : slice buffer.chunk (position + sizeofSize) string.length = .ok string := by
    have room : position + sizeofSize + string.length ≤ buffer.chunk.length := by
      have written := buffer.used_le
      omega
    rw [slice_ok room, ← List.drop_drop, ← memory]
    simp only [List.append_assoc]
    rw [List.drop_left' (leBytes_length _ _), List.take_left]
  have sum : (buffer.seek position).parsePosition + 2 < 2 ^ 31 := by
    rw [RpcBuffer.seek_position]
    omega
  have moved : (buffer.seek (position + (sizeofSize + string.length) : Nat)).parsePosition < 2 ^ 31 := by
    rw [RpcBuffer.seek_position]
    omega
  refine ⟨buffer.seek (position + (sizeofSize + string.length) : Nat), ?_,
    position + (sizeofSize + string.length), rfl, by omega, ?_, others⟩
  · have found := rpcBufferNextSized_ok sum frame moved
    rw [← Int.natCast_add] at found
    exact RpcBuffer.nextString_some found content
  · rw [RpcBuffer.rest, ← List.drop_drop, ← RpcBuffer.rest, rest,
      List.drop_left' (stringFrame_length string)]

/-- Behind the last string the end is found, unless the sum for its test overflows. -/
theorem Unread.stop (unread : Unread buffer [] state) (small : buffer.chunkUsed < 2 ^ 31) :
    state.nextString =
      if buffer.chunkUsed + 2 < 2 ^ 31 then .ok (state, none) else .error .outOfBounds := by
  obtain ⟨position, rfl, inside, rest, _⟩ := unread
  have length := rest_length inside
  rw [rest] at length
  obtain rfl : position = buffer.chunkUsed := by simpa using length
  have few : (buffer.rest buffer.chunkUsed).length ≤ 2 := by simp [rest]
  have ended := rpcBufferNext_seek inside
  rw [if_pos few] at ended
  have moved : (buffer.seek buffer.chunkUsed).parsePosition < 2 ^ 31 := by
    rw [RpcBuffer.seek_position]
    omega
  by_cases fits : buffer.chunkUsed + 2 < 2 ^ 31
  · have sum : (buffer.seek buffer.chunkUsed).parsePosition + 2 < 2 ^ 31 := by
      rw [RpcBuffer.seek_position]
      omega
    rw [if_pos fits, RpcBuffer.nextString, rpcBufferNextSized_ok sum ended moved]
    rfl
  · have sum : ¬(buffer.seek buffer.chunkUsed).parsePosition + 2 < 2 ^ 31 := by
      rw [RpcBuffer.seek_position]
      omega
    rw [if_neg fits, RpcBuffer.nextString, rpcBufferNextSized, if_neg sum]
    rfl

/-- A buffer that holds the frames of the strings reads back exactly where the sum of its end
test does not overflow. -/
theorem readsBack_iff (bytes : buffer.bytes = stream stringFrame strings)
    (nonempty : ∀ string ∈ strings, string ≠ []) (small : buffer.chunkUsed < 2 ^ 31) :
    ReadsBack buffer strings ↔ buffer.chunkUsed + 2 < 2 ^ 31 := by
  have start := unread_start bytes nonempty
  have step (string : Bytes) (rest : List Bytes) (state : RpcBuffer)
      (unread : Unread buffer (string :: rest) state) := unread.next small
  constructor
  · intro back
    apply Classical.byContradiction
    intro large
    have stop (state : RpcBuffer) (unread : Unread buffer [] state) :
        state.nextString = .error .outOfBounds := by
      rw [unread.stop small, if_neg large]
    obtain ⟨after, done, _⟩ := back (strings.length + 1)
    rw [rpcBufferRewind, ← RpcBuffer.seek, callTimes_fault step stop start] at done
    cases done
  · intro fits count
    have stop (state : RpcBuffer) (unread : Unread buffer [] state) :
        state.nextString = .ok (state, none) := by
      rw [unread.stop small, if_pos fits]
    obtain ⟨after, rest, done, unread⟩ := callTimes_handedOut step stop count start
    refine ⟨after, done, fun again => ?_⟩
    obtain ⟨last, _, once, _⟩ := callTimes_handedOut step stop again start
    rw [unread.rewound]
    exact ⟨last, once⟩

end Reading

/-! ### The buffer and its copies -/

section Copies
variable {buffer : RpcBuffer} {strings : List Bytes}

theorem rpcBufferNewSized_filled {memory : Bytes} {size : Nat} (positive : 0 < size)
    (room : size ≤ memory.length) :
    rpcBufferNewSized (some memory) size =
      if size + 1 + rpcBufferDefGrowSize < 2 ^ 31 then .ok (some (.filled (memory.take size)))
      else .error .outOfBounds := by
  have sums : (size : Int) + 1 + rpcBufferDefGrowSize < 2 ^ 31 ↔ size + 1 + rpcBufferDefGrowSize < 2 ^ 31 := by
    omega
  rw [rpcBufferNewSized, rpcBufferNew_filled positive room]
  by_cases fits : size + 1 + rpcBufferDefGrowSize < 2 ^ 31
  · rw [if_pos fits, if_pos (sums.mpr fits)]
  · rw [if_neg fits, if_neg (mt sums.mp fits)]

/-- The copies read back exactly where the size of their chunk does not overflow. -/
theorem copiesReadBack_iff (bytes : buffer.bytes = stream stringFrame strings)
    (nonempty : ∀ string ∈ strings, string ≠ []) (positive : 0 < buffer.chunkUsed) :
    CopiesReadBack buffer strings ↔ buffer.chunkUsed + 1 + rpcBufferDefGrowSize < 2 ^ 31 := by
  have length := buffer.bytes_length
  have copied (more : Bytes) := @rpcBufferNewSized_filled (buffer.bytes ++ more) buffer.chunkUsed positive
    (by rw [List.length_append]; omega)
  have cloned := rpcBufferNewSized_filled positive buffer.used_le
  constructor
  · rintro ⟨copies, _⟩
    obtain ⟨copy, made, _⟩ := copies []
    apply Classical.byContradiction
    intro large
    rw [copied, if_neg large] at made
    cases made
  · intro fits
    have used : (RpcBuffer.filled buffer.bytes).chunkUsed = buffer.chunkUsed := length
    have grow : rpcBufferDefGrowSize = 64 := rfl
    have back : ReadsBack (.filled buffer.bytes) strings := by
      apply (readsBack_iff ((RpcBuffer.filled_bytes _).trans bytes) nonempty (by omega)).mpr
      omega
    refine ⟨fun more => ⟨.filled buffer.bytes, ?_, back⟩, .filled buffer.bytes, ?_, back⟩
    · rw [copied, if_pos fits, List.take_left' length]
    · rw [rpcBufferCloneSized, cloned, if_pos fits]
      rfl

end Copies

/-- Strings appended one after the other, with buffers as large as needed: the buffer gives them
back exactly where the sum of the end test is an `rpc_size_t`, and its copies exactly where the
size of their chunk is. -/
theorem strings_readBack_iff (strings : List Bytes) (listed : strings ≠ [])
    (nonempty : ∀ string ∈ strings, string ≠ []) (small : totalSize strings < 2 ^ 31)
    (room : Nat) (enough : ∀ string ∈ strings, (stringFrame string).length ≤ room) :
    ∃ buffer, appendStrings room none strings = .ok (some buffer) ∧
      buffer.chunkUsed = totalSize strings ∧
      (ReadsBack buffer strings ↔ totalSize strings + 2 < 2 ^ 31) ∧
      (CopiesReadBack buffer strings ↔ totalSize strings + 1 + rpcBufferDefGrowSize < 2 ^ 31) := by
  obtain ⟨result, done, bytes⟩ := appendStrings_ok none nonempty enough
  obtain ⟨buffer, rfl⟩ : ∃ buffer, result = some buffer := by
    cases strings with
    | nil => exact absurd rfl listed
    | cons string rest =>
      obtain ⟨next, _, later⟩ := bind_ok done
      exact appendStrings_some later
  have whole : buffer.bytes = stream stringFrame strings := bytes
  have used : buffer.chunkUsed = totalSize strings := by
    rw [← RpcBuffer.bytes_length, whole, totalSize]
  have positive : 0 < totalSize strings := by
    cases strings with
    | nil => exact absurd rfl listed
    | cons string rest =>
      have size : sizeofSize = 4 := rfl
      rw [totalSize, stream_cons, List.length_append, stringFrame_length]
      omega
  rw [← used] at positive small ⊢
  exact ⟨buffer, done, rfl, readsBack_iff whole nonempty small, copiesReadBack_iff whole nonempty positive⟩

/-- One byte, three bytes and one byte. -/
theorem strings_readBack_check :
    ∃ buffer, appendStrings 7 none [[1], [2, 3, 4], [0]] = .ok (some buffer) ∧
      buffer.chunkUsed = totalSize [[1], [2, 3, 4], [0]] ∧
      (ReadsBack buffer [[1], [2, 3, 4], [0]] ↔ totalSize [[1], [2, 3, 4], [0]] + 2 < 2 ^ 31) ∧
      (CopiesReadBack buffer [[1], [2, 3, 4], [0]] ↔
        totalSize [[1], [2, 3, 4], [0]] + 1 + rpcBufferDefGrowSize < 2 ^ 31) :=
  strings_readBack_iff [[1], [2, 3, 4], [0]] (by decide) (by decide) (by decide) 7 (by decide)

/-! ### Two strings at the limit -/

theorem RpcBuffer.widen_zero (buffer : Option RpcBuffer) :
    (buffer.map fun buffer => buffer.widen 0) = buffer := by
  cases buffer <;> rfl

theorem RpcBuffer.refill_sizes {chunk bytes : Bytes} {chunkSize : Nat} {position : Int} {result : RpcBuffer}
    (refilled : RpcBuffer.refill chunk chunkSize position bytes = .ok result) :
    result.chunkSize = chunkSize ∧ result.chunkUsed = bytes.length := by
  unfold RpcBuffer.refill at refilled
  split at refilled
  · obtain rfl := Except.ok.inj refilled
    exact ⟨rfl, rfl⟩
  · cases refilled

/-- An append with room for the size and the bytes keeps the chunk. -/
theorem rpcBufferAppend_keeps {buffer : Option RpcBuffer} {content : Bytes} (nonempty : content ≠ [])
    (fits : (buffer.getD (.fresh content.length)).chunkUsed + sizeofSize + content.length ≤
      (buffer.getD (.fresh content.length)).chunkSize) :
    ∃ result, rpcBufferAppend buffer content content.length = .ok result ∧
      result.chunkSize = (buffer.getD (.fresh content.length)).chunkSize ∧
      result.chunkUsed = (buffer.getD (.fresh content.length)).chunkUsed + sizeofSize + content.length := by
  obtain ⟨result, done⟩ := rpcBufferAppend_fits nonempty fits
  refine ⟨result, done, ?_⟩
  have positive : 0 < content.length := List.length_pos_iff.mpr nonempty
  have sized : ¬ (content.length : Int) ≤ 0 := by omega
  simp only [rpcBufferAppend, sizeOr_known sized, bind, Except.bind, slice_whole] at done
  generalize buffer.getD (.fresh content.length) = start at fits done ⊢
  have full : ¬ start.chunkUsed + content.length > start.chunkSize := by omega
  rw [if_neg full, if_neg full] at done
  obtain ⟨size, used⟩ := RpcBuffer.refill_sizes done
  refine ⟨size, ?_⟩
  rw [used, List.length_append, List.length_append, leBytes_length, RpcBuffer.bytes_length]

/-- Two strings for which the buffer is as large as an `rpc_size_t` allows, and the position
behind them leaves no room for the sum of the end test. -/
theorem not_readsBack_of_length {first second : Bytes} (long : first.length = 2147483583)
    (short : second.length = 55) :
    ∃ buffer, appendStrings 0 none [first, second] = .ok (some buffer) ∧ buffer.chunkSize < 2 ^ 31 ∧
      totalSize [first, second] < 2 ^ 31 ∧ ¬ReadsBack buffer [first, second] := by
  have firstFilled : first ≠ [] := List.ne_nil_of_length_pos (by omega)
  have secondFilled : second ≠ [] := List.ne_nil_of_length_pos (by omega)
  have size : sizeofSize = 4 := rfl
  have grow : rpcBufferDefGrowSize = 64 := rfl
  obtain ⟨one, firstDone, oneSize, oneUsed⟩ := @rpcBufferAppend_keeps none first firstFilled
    (by simp only [Option.getD_none, RpcBuffer.fresh]; omega)
  simp only [Option.getD_none, RpcBuffer.fresh] at oneSize oneUsed
  obtain ⟨both, secondDone, bothSize, bothUsed⟩ := @rpcBufferAppend_keeps (some one) second secondFilled
    (by simp only [Option.getD_some]; omega)
  simp only [Option.getD_some] at bothSize bothUsed
  have oneBytes : one.bytes = [] ++ stringFrame first := rpcBufferAppend_bytes firstFilled firstDone
  have bothBytes : both.bytes = one.bytes ++ stringFrame second := rpcBufferAppend_bytes secondFilled secondDone
  have bytes : both.bytes = stream stringFrame [first, second] := by
    rw [bothBytes, oneBytes, stream_cons, stream_cons, stream_nil, List.nil_append, List.append_nil]
  have total : totalSize [first, second] = both.chunkUsed := by
    rw [totalSize, ← bytes, RpcBuffer.bytes_length]
  have nonempty : ∀ string ∈ [first, second], string ≠ [] := by
    intro string listed
    rcases List.mem_pair.mp listed with rfl | rfl
    · exact firstFilled
    · exact secondFilled
  refine ⟨both, ?_, by omega, by omega, fun back => ?_⟩
  · simp only [appendStrings, RpcBuffer.widen_zero, firstDone, secondDone, bind, Except.bind]
  · have sum := (readsBack_iff bytes nonempty (by omega)).mp back
    omega

/-- Strings of 2147483583 and 55 bytes. -/
theorem not_readsBack_limit :
    ∃ buffer, appendStrings 0 none [List.replicate 2147483583 1, List.replicate 55 1] = .ok (some buffer) ∧
      buffer.chunkSize < 2 ^ 31 ∧
      totalSize [List.replicate 2147483583 1, List.replicate 55 1] < 2 ^ 31 ∧
      ¬ReadsBack buffer [List.replicate 2147483583 1, List.replicate 55 1] :=
  not_readsBack_of_length List.length_replicate List.length_replicate

end Livezure.Rpc
