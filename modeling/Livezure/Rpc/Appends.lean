import Livezure.Rpc.Lookup

/-! Appends to a buffer: what they write, and where its chunk has room for it. -/
namespace Livezure.Rpc
open Livezure.Core

/-- A call, with the memories from its pointers on. -/
inductive AppendCall where
  | buffer (source : Bytes) (size : Int)
  | keypair (key body : Bytes) (bodySize : Int)
  deriving DecidableEq

/-- The bytes that a pointer and a size stand for: the text without a size, else so many. -/
def item (source : Bytes) (size : Int) : Bytes :=
  if size ≤ 0 then cstring source else source.take size.toNat

/-- They are there, and an `rpc_size_t` can count them. -/
structure GivenItem (source : Bytes) (size : Int) : Prop where
  terminated : size ≤ 0 → 0 ∈ source
  present : size ≤ source.length
  counted : (item source size).length < 2 ^ 31

instance (source : Bytes) (size : Int) : Decidable (GivenItem source size) :=
  decidable_of_iff ((size ≤ 0 → 0 ∈ source) ∧ size ≤ source.length ∧
    (item source size).length < 2 ^ 31)
    ⟨fun ⟨terminated, present, counted⟩ => ⟨terminated, present, counted⟩,
      fun given => ⟨given.terminated, given.present, given.counted⟩⟩

namespace AppendCall

/-- The caller's part. -/
def Valid : AppendCall → Prop
  | .buffer source size => GivenItem source size
  | .keypair key body bodySize => GivenItem key 0 ∧ GivenItem body bodySize

instance : (call : AppendCall) → Decidable call.Valid
  | .buffer source size => inferInstanceAs (Decidable (GivenItem source size))
  | .keypair key body bodySize => inferInstanceAs (Decidable (GivenItem key 0 ∧ GivenItem body bodySize))

/-- What comes behind the four bytes of its size. -/
def content : AppendCall → Bytes
  | .buffer source size => item source size
  | .keypair key body bodySize => item key 0 ++ divide ++ item body bodySize

end AppendCall

/-- The sums of an append are `int`s: with one that is not, the chunk is not made larger, or
`malloc` gets a negative size. -/
def SumsFit (buffer : Option RpcBuffer) (size : Nat) : Prop :=
  match buffer with
  | none => rpcBufferDefGrowSize + size < 2 ^ 31
  | some buffer => buffer.chunkUsed + size < 2 ^ 31 ∧
      (buffer.chunkSize < buffer.chunkUsed + size →
        buffer.chunkUsed + size + rpcBufferDefGrowSize < 2 ^ 31)

instance : (buffer : Option RpcBuffer) → (size : Nat) → Decidable (SumsFit buffer size)
  | none, size => inferInstanceAs (Decidable (rpcBufferDefGrowSize + size < 2 ^ 31))
  | some buffer, size => inferInstanceAs (Decidable (buffer.chunkUsed + size < 2 ^ 31 ∧ (_ → _)))

def AppendCall.run (buffer : Option RpcBuffer) (call : AppendCall) : Except Fault RpcBuffer :=
  if SumsFit buffer call.content.length then
    match call with
    | .buffer source size => rpcBufferAppend buffer source size
    | .keypair key body bodySize => rpcKeypairAppend buffer key body bodySize
  else .error .outOfBounds

/-- No call writes outside the chunk, and the bytes in use stay inside it. -/
def AppendsSafe : Option RpcBuffer → List AppendCall → Prop
  | _, [] => True
  | buffer, call :: rest => ∃ after, call.run buffer = .ok after ∧
      after.chunkUsed ≤ after.chunkSize ∧ AppendsSafe (some after) rest

/-- `chunk_used` and `chunk_size`; none of a buffer that is NULL. -/
abbrev Extent := Option (Nat × Nat)

def extent (buffer : Option RpcBuffer) : Extent :=
  buffer.map fun buffer => (buffer.chunkUsed, buffer.chunkSize)

/-- The extent after an item of a size. -/
def Extent.append : Extent → Nat → Extent
  | none, size => some (sizeofSize + size, rpcBufferDefGrowSize + size)
  | some (used, chunkSize), size => some (used + sizeofSize + size,
      if chunkSize < used + size then used + size + rpcBufferDefGrowSize else chunkSize)

/-- Where an item fits into the rest of the chunk, so do the four bytes of its size; a new
chunk has a size that is an `int`. -/
def Extent.HasRoom : Extent → Nat → Prop
  | none, size => rpcBufferDefGrowSize + size < 2 ^ 31
  | some (used, chunkSize), size =>
    if chunkSize < used + size then used + size + rpcBufferDefGrowSize < 2 ^ 31
    else used + sizeofSize + size ≤ chunkSize

instance : (extent : Extent) → (size : Nat) → Decidable (extent.HasRoom size)
  | none, size => inferInstanceAs (Decidable (rpcBufferDefGrowSize + size < 2 ^ 31))
  | some (used, chunkSize), size => inferInstanceAs (Decidable (ite (chunkSize < used + size) _ _))

def RoomForAll : Extent → List Nat → Prop
  | _, [] => True
  | extent, size :: sizes => extent.HasRoom size ∧ RoomForAll (extent.append size) sizes

instance : (sizes : List Nat) → (extent : Extent) → Decidable (RoomForAll extent sizes)
  | [], _ => .isTrue trivial
  | size :: sizes, extent =>
    have : Decidable (RoomForAll (extent.append size) sizes) :=
      instDecidableRoomForAll sizes (extent.append size)
    inferInstanceAs (Decidable (extent.HasRoom size ∧ RoomForAll (extent.append size) sizes))

/-! ### One append -/

theorem item_read {source : Bytes} {size : Int} (given : GivenItem source size) :
    sizeOr (size ≤ 0) source size = .ok (item source size).length ∧
      slice source 0 (item source size).length = .ok (item source size) := by
  have present := given.present
  unfold sizeOr item
  split
  · rename_i unsized
    have shorter : (cstring source).length ≤ source.length := (List.takeWhile_prefix _).length_le
    have front : source.take (cstring source).length = cstring source :=
      (List.prefix_iff_eq_take.mp (List.takeWhile_prefix _)).symm
    refine ⟨by rw [strlen, if_pos (given.terminated unsized)], ?_⟩
    rw [slice_ok (by omega), List.drop_zero, front]
  · rename_i sized
    have length : (source.take size.toNat).length = size.toNat := by
      rw [List.length_take]
      omega
    rw [length]
    exact ⟨rfl, by rw [slice_ok (by omega), List.drop_zero]⟩

/-- `rpc_buffer_append` from the test for a larger chunk on. -/
def appendItem (buffer : Option RpcBuffer) (bytes : Bytes) : Except Fault RpcBuffer :=
  let old := buffer.getD (.fresh bytes.length)
  let full := old.chunkUsed + bytes.length > old.chunkSize
  RpcBuffer.refill (if full then old.bytes else old.chunk)
    (if full then old.chunkUsed + bytes.length + rpcBufferDefGrowSize else old.chunkSize)
    old.parsePosition (old.bytes ++ leBytes sizeofSize bytes.length ++ bytes)

private theorem rpcBufferAppend_item {source : Bytes} {size : Int} (given : GivenItem source size)
    (buffer : Option RpcBuffer) :
    rpcBufferAppend buffer source size = appendItem buffer (item source size) := by
  obtain ⟨sized, read⟩ := item_read given
  simp only [rpcBufferAppend, sized, read, bind, Except.bind]
  rfl

theorem rpcKeypairAppend_item {key body : Bytes} {bodySize : Int} (key_given : GivenItem key 0)
    (body_given : GivenItem body bodySize) (buffer : Option RpcBuffer) :
    rpcKeypairAppend buffer key body bodySize =
      appendItem buffer (item key 0 ++ divide ++ item body bodySize) := by
  obtain ⟨key_sized, key_read⟩ := item_read key_given
  obtain ⟨body_sized, body_read⟩ := item_read body_given
  have key_length : strlen key = .ok (item key 0).length := by
    rw [sizeOr, if_pos (Int.le_refl 0)] at key_sized
    exact key_sized
  simp only [rpcKeypairAppend, key_length, body_sized, key_read, body_read, bind, Except.bind]
  generalize joined : item key 0 ++ divide ++ item body bodySize = keybuf
  have positive : 0 < keybuf.length := by
    rw [← joined]
    simp only [divide, ascii, List.length_append, List.length_map]
    have two : ": ".toList.length = 2 := rfl
    omega
  have sized : ¬(keybuf.length : Int) ≤ 0 := by omega
  simp only [rpcBufferAppend, sizeOr_known sized, slice_whole, bind, Except.bind]
  rfl

theorem AppendCall.run_eq {call : AppendCall} (valid : call.Valid) (buffer : Option RpcBuffer) :
    call.run buffer = if SumsFit buffer call.content.length then appendItem buffer call.content
      else .error .outOfBounds := by
  unfold AppendCall.run
  congr 1
  cases call with
  | buffer source size => exact rpcBufferAppend_item valid buffer
  | keypair key body bodySize => exact rpcKeypairAppend_item valid.1 valid.2 buffer

private theorem refill_extent {chunk bytes : Bytes} {chunkSize : Nat} {position : Int} {after : RpcBuffer}
    (done : RpcBuffer.refill chunk chunkSize position bytes = .ok after) :
    bytes.length ≤ chunkSize ∧ after.chunkUsed = bytes.length ∧ after.chunkSize = chunkSize := by
  unfold RpcBuffer.refill at done
  split at done
  · rename_i room
    obtain rfl := Except.ok.inj done
    exact ⟨room.1, rfl, rfl⟩
  · cases done

/-- An append goes through where the chunk, if it is not made larger, has room for the size. -/
theorem appendItem_iff (buffer : RpcBuffer) (bytes : Bytes) :
    (∃ after, appendItem (some buffer) bytes = .ok after) ↔
      (buffer.chunkUsed + bytes.length ≤ buffer.chunkSize →
        buffer.chunkUsed + sizeofSize + bytes.length ≤ buffer.chunkSize) := by
  have used := buffer.bytes_length
  have within := Nat.le_trans buffer.used_le buffer.chunk_le
  have total : (buffer.bytes ++ leBytes sizeofSize bytes.length ++ bytes).length =
      buffer.chunkUsed + sizeofSize + bytes.length := by
    rw [List.length_append, List.length_append, leBytes_length, used]
  have four : sizeofSize = 4 := rfl
  have grow : rpcBufferDefGrowSize = 64 := rfl
  unfold appendItem
  simp only [Option.getD_some]
  by_cases full : buffer.chunkUsed + bytes.length > buffer.chunkSize
  · simp only [if_pos full]
    refine iff_of_true (RpcBuffer.refill_room _ ?_ ?_) fun fits => absurd full (by omega)
    · rw [total]
      omega
    · rw [used]
      omega
  · simp only [if_neg full]
    constructor
    · rintro ⟨after, done⟩ _
      exact total ▸ (refill_extent done).1
    · intro room
      exact RpcBuffer.refill_room _ (total ▸ room (by omega)) buffer.chunk_le

theorem appendItem_extent {buffer : Option RpcBuffer} {bytes : Bytes} {after : RpcBuffer}
    (done : appendItem buffer bytes = .ok after) :
    extent (some after) = (extent buffer).append bytes.length := by
  unfold appendItem at done
  obtain ⟨_, used, size⟩ := refill_extent done
  rw [List.length_append, List.length_append, leBytes_length, RpcBuffer.bytes_length] at used
  cases buffer with
  | none =>
    have room : ¬((none : Option RpcBuffer).getD (.fresh bytes.length)).chunkUsed + bytes.length >
        ((none : Option RpcBuffer).getD (.fresh bytes.length)).chunkSize := by
      change ¬0 + bytes.length > rpcBufferDefGrowSize + bytes.length
      omega
    rw [if_neg room] at size
    simp [extent, Extent.append, used, size, RpcBuffer.fresh]
  | some buffer => simp [extent, Extent.append, used, size]

theorem appendItem_fresh (bytes : Bytes) : ∃ after, appendItem none bytes = .ok after := by
  have room : appendItem none bytes = appendItem (some (.fresh bytes.length)) bytes := rfl
  rw [room]
  apply (appendItem_iff _ _).mpr
  intro _
  change 0 + sizeofSize + bytes.length ≤ rpcBufferDefGrowSize + bytes.length
  simp only [sizeofSize, rpcBufferDefGrowSize]
  omega

/-! ### Sequences -/

def Extent.Small : Extent → Prop
  | none => True
  | some (_, chunkSize) => chunkSize < 2 ^ 31

theorem Extent.Small.append {extent : Extent} {size : Nat} (small : extent.Small)
    (room : extent.HasRoom size) : (extent.append size).Small := by
  match extent, small, room with
  | none, _, room => exact room
  | some (used, chunkSize), small, room =>
    change (if chunkSize < used + size then used + size + rpcBufferDefGrowSize else chunkSize) < 2 ^ 31
    split
    · rename_i full
      have grown : ite (chunkSize < used + size) (used + size + rpcBufferDefGrowSize < 2 ^ 31)
        (used + sizeofSize + size ≤ chunkSize) := room
      rwa [if_pos full] at grown
    · exact small

/-- One call goes through exactly where its item has room. -/
theorem AppendCall.run_iff {call : AppendCall} (valid : call.Valid) {buffer : Option RpcBuffer}
    (small : (extent buffer).Small) :
    (∃ after, call.run buffer = .ok after) ↔ (extent buffer).HasRoom call.content.length := by
  rw [call.run_eq valid]
  generalize call.content = bytes
  cases buffer with
  | none =>
    by_cases sums : SumsFit none bytes.length
    · rw [if_pos sums]
      exact iff_of_true (appendItem_fresh bytes) sums
    · rw [if_neg sums]
      exact iff_of_false nofun sums
  | some buffer =>
    have within : buffer.chunkSize < 2 ^ 31 := small
    change _ ↔ if buffer.chunkSize < buffer.chunkUsed + bytes.length then
      buffer.chunkUsed + bytes.length + rpcBufferDefGrowSize < 2 ^ 31
      else buffer.chunkUsed + sizeofSize + bytes.length ≤ buffer.chunkSize
    by_cases sums : SumsFit (some buffer) bytes.length
    · rw [if_pos sums, appendItem_iff]
      split
      · rename_i full
        exact iff_of_true (fun fits => absurd full (by omega)) (sums.2 full)
      · rename_i room
        exact ⟨fun both => both (by omega), fun fits _ => fits⟩
    · rw [if_neg sums]
      refine iff_of_false nofun fun room => sums ?_
      split at room
      · exact ⟨by omega, fun _ => room⟩
      · exact ⟨by omega, fun full => absurd full (by omega)⟩

theorem AppendCall.run_extent {call : AppendCall} (valid : call.Valid) {buffer : Option RpcBuffer}
    {after : RpcBuffer} (done : call.run buffer = .ok after) :
    extent (some after) = (extent buffer).append call.content.length := by
  rw [call.run_eq valid] at done
  split at done
  · exact appendItem_extent done
  · cases done

private theorem appendsSafe_iff_of_small {calls : List AppendCall} (valid : ∀ call ∈ calls, call.Valid)
    (buffer : Option RpcBuffer) (small : (extent buffer).Small) :
    AppendsSafe buffer calls ↔
      RoomForAll (extent buffer) (calls.map fun call => call.content.length) := by
  induction calls generalizing buffer with
  | nil => exact Iff.rfl
  | cons call rest ih =>
    have own := valid call List.mem_cons_self
    have later := ih fun other member => valid other (List.mem_cons_of_mem _ member)
    rw [List.map_cons]
    constructor
    · rintro ⟨after, done, _, safe⟩
      have room := (call.run_iff own small).mp ⟨after, done⟩
      have grown := call.run_extent own done
      refine ⟨room, ?_⟩
      rw [← grown]
      exact (later (some after) (grown ▸ small.append room)).mp safe
    · rintro ⟨room, rooms⟩
      obtain ⟨after, done⟩ := (call.run_iff own small).mpr room
      have grown := call.run_extent own done
      refine ⟨after, done, Nat.le_trans after.used_le after.chunk_le, ?_⟩
      apply (later (some after) (grown ▸ small.append room)).mpr
      rw [grown]
      exact rooms

/-- From NULL, a sequence of appends stays inside its chunks exactly where every item that fits
into the rest of the chunk fits with the four bytes of its size. -/
theorem appendsSafe_iff (calls : List AppendCall) (valid : ∀ call ∈ calls, call.Valid) :
    AppendsSafe none calls ↔ RoomForAll none (calls.map fun call => call.content.length) :=
  appendsSafe_iff_of_small valid none trivial

/-- The parameters of a login. -/
theorem appendsSafe_login : AppendsSafe none
    [.keypair (ascii "uuid" ++ [0]) (ascii "admin") 5, .keypair (ascii "pwd" ++ [0]) (ascii "secret" ++ [0]) (-1),
      .buffer (ascii "pid: 100") 8] :=
  (appendsSafe_iff _ (by decide)).mpr (by decide)

/-- The second item has 57 bytes, and the chunk 60 behind the first one. -/
theorem not_appendsSafe : ¬AppendsSafe none
    [.keypair (ascii "k" ++ [0]) (ascii "v") 1,
      .keypair (ascii "k" ++ [0]) (List.replicate 54 118) 54] := by
  rintro ⟨after, done, _, later, overrun, _⟩
  obtain rfl := Except.ok.inj done
  cases overrun

end Livezure.Rpc
