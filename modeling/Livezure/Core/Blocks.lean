import Livezure.Core.Memory
import Mathlib.Data.List.GetD

/-! Blocks of bytes, and messages that are encrypted block by block. -/
namespace Livezure.Core

/-- The bytes that a block cipher works on at once. -/
abbrev Block (size : Nat) := Vector UInt8 size

namespace Block
variable {size : Nat}

/-- The block at the start of a memory. -/
def ofBytes (size : Nat) (memory : Bytes) : Block size :=
  Vector.ofFn fun index => memory.getD index 0

def bytes (block : Block size) : Bytes := block.toList

def xor (first second : Block size) : Block size := Vector.zipWith (· ^^^ ·) first second

def zero (size : Nat) : Block size := Vector.replicate size 0

@[simp] theorem bytes_length (block : Block size) : block.bytes.length = size := by
  simp [bytes]

theorem bytes_getD (block : Block size) (index : Nat) (inside : index < size) :
    block.bytes.getD index 0 = block[index] := by
  simp [bytes, inside]

theorem xor_get (first second : Block size) (index : Nat) (inside : index < size) :
    (first.xor second)[index] = first[index] ^^^ second[index] := by
  simp [xor]

theorem xor_cancel (first second : Block size) : (first.xor second).xor second = first := by
  ext index inside
  rw [xor_get, xor_get, UInt8.xor_assoc, UInt8.xor_self, UInt8.xor_zero]

theorem xor_comm (first second : Block size) : first.xor second = second.xor first := by
  ext index inside
  rw [xor_get, xor_get, UInt8.xor_comm]

theorem xor_zero (block : Block size) : block.xor (zero size) = block := by
  ext index inside
  simp [xor, zero]

theorem ofBytes_bytes (block : Block size) (rest : Bytes) : ofBytes size (block.bytes ++ rest) = block := by
  ext index inside
  have within : index < block.bytes.length := by rwa [bytes_length]
  simp only [ofBytes, Vector.getElem_ofFn]
  rw [List.getD_append _ _ _ _ within, bytes_getD _ _ inside]

theorem bytes_ofBytes {memory : Bytes} (enough : size ≤ memory.length) :
    (ofBytes size memory).bytes = memory.take size := by
  apply List.ext_getElem
  · rw [bytes_length, List.length_take, Nat.min_eq_left enough]
  · intro index within _
    rw [bytes_length] at within
    simp [bytes, ofBytes, Nat.lt_of_lt_of_le within enough]

end Block

/-- The bytes of a list of blocks. -/
def joined {size : Nat} (blocks : List (Block size)) : Bytes := blocks.flatMap Block.bytes

/-- The first `count` blocks of a memory. -/
def blocks (size : Nat) : Nat → Bytes → List (Block size)
  | 0, _ => []
  | count + 1, memory => .ofBytes size memory :: blocks size count (memory.drop size)

section Blocks
variable {size : Nat}

@[simp] theorem joined_nil : joined ([] : List (Block size)) = [] := rfl

@[simp] theorem joined_cons (block : Block size) (rest : List (Block size)) :
    joined (block :: rest) = block.bytes ++ joined rest := rfl

@[simp] theorem joined_append (front rest : List (Block size)) :
    joined (front ++ rest) = joined front ++ joined rest := List.flatMap_append

theorem joined_length (list : List (Block size)) : (joined list).length = size * list.length := by
  induction list with
  | nil => rfl
  | cons block rest ih =>
    rw [joined_cons, List.length_append, ih, Block.bytes_length, List.length_cons, Nat.mul_succ,
      Nat.add_comm]

@[simp] theorem blocks_length (count : Nat) (memory : Bytes) :
    (blocks size count memory).length = count := by
  induction count generalizing memory with
  | zero => rfl
  | succ count ih => rw [blocks, List.length_cons, ih]

theorem blocks_joined (list : List (Block size)) (rest : Bytes) :
    blocks size list.length (joined list ++ rest) = list := by
  induction list with
  | nil => rfl
  | cons block others ih =>
    rw [joined_cons, List.append_assoc, List.length_cons, blocks, Block.ofBytes_bytes,
      List.drop_left' (Block.bytes_length block), ih]

theorem blocks_add (first second : Nat) (memory : Bytes) :
    blocks size (first + second) memory =
      blocks size first memory ++ blocks size second (memory.drop (size * first)) := by
  induction first generalizing memory with
  | zero => simp [blocks]
  | succ first ih =>
    rw [Nat.add_right_comm, blocks, ih, blocks, List.drop_drop, Nat.mul_succ, Nat.add_comm size]
    rfl

theorem joined_blocks {count : Nat} {memory : Bytes} (enough : size * count ≤ memory.length) :
    joined (blocks size count memory) = memory.take (size * count) := by
  induction count generalizing memory with
  | zero => simp [blocks]
  | succ count ih =>
    rw [Nat.mul_succ] at enough
    have later : size * count ≤ (memory.drop size).length := by
      rw [List.length_drop]
      omega
    rw [blocks, joined_cons, Block.bytes_ofBytes (by omega), ih later, Nat.mul_succ,
      Nat.add_comm (size * count), List.take_add]

end Blocks

/-! ### Chaining -/

section Chaining
variable {Text : Type} (mix : Text → Text → Text)

/-- Cipher block chaining: a block is mixed with the coded block before it. -/
def cbcEncrypt (encrypt : Text → Text) : Text → List Text → List Text
  | _, [] => []
  | mask, text :: rest =>
    let coded := encrypt (mix text mask)
    coded :: cbcEncrypt encrypt coded rest

def cbcDecrypt (decrypt : Text → Text) : Text → List Text → List Text
  | _, [] => []
  | mask, coded :: rest => mix (decrypt coded) mask :: cbcDecrypt decrypt coded rest

/-- Chaining in both directions: what a block is mixed to before it is encrypted is
mixed into the coded block after it. -/
def carryEncrypt (encrypt : Text → Text) : Text → Text → List Text → List Text
  | _, _, [] => []
  | mask, carry, text :: rest =>
    let mixed := mix text mask
    let coded := mix (encrypt mixed) carry
    coded :: carryEncrypt encrypt coded mixed rest

variable {mix} {encrypt decrypt : Text → Text}

theorem cbcEncrypt_length (mask : Text) (texts : List Text) :
    (cbcEncrypt mix encrypt mask texts).length = texts.length := by
  induction texts generalizing mask with
  | nil => rfl
  | cons text rest ih => rw [cbcEncrypt, List.length_cons, ih, List.length_cons]

theorem cbcDecrypt_length (mask : Text) (codes : List Text) :
    (cbcDecrypt mix decrypt mask codes).length = codes.length := by
  induction codes generalizing mask with
  | nil => rfl
  | cons coded rest ih => rw [cbcDecrypt, List.length_cons, ih, List.length_cons]

theorem carryEncrypt_length (mask carry : Text) (texts : List Text) :
    (carryEncrypt mix encrypt mask carry texts).length = texts.length := by
  induction texts generalizing mask carry with
  | nil => rfl
  | cons text rest ih => rw [carryEncrypt, List.length_cons, ih, List.length_cons]

/-- What follows the coded blocks makes no difference to what they decrypt to. -/
theorem cbcDecrypt_cbcEncrypt (cancel : ∀ first second, mix (mix first second) second = first)
    (inverse : ∀ text, decrypt (encrypt text) = text) (mask : Text) (texts more : List Text) :
    ∃ later, cbcDecrypt mix decrypt mask (cbcEncrypt mix encrypt mask texts ++ more) =
      texts ++ later := by
  induction texts generalizing mask with
  | nil => exact ⟨_, rfl⟩
  | cons text rest ih =>
    obtain ⟨later, same⟩ := ih (encrypt (mix text mask))
    refine ⟨later, ?_⟩
    rw [cbcEncrypt, List.cons_append, cbcDecrypt, inverse, cancel, same]
    rfl

end Chaining
end Livezure.Core
