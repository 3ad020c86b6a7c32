import Livezure.Core.Gf256
import Mathlib.Data.Finite.Defs
import Mathlib.Data.Fintype.EquivFin
import Mathlib.Data.Matrix.Mul
import Mathlib.LinearAlgebra.Matrix.Notation

/-! Ciphers that add keys between a substitution and a linear layer, and the one of the advanced
encryption standard. -/
namespace Livezure.Core

/-! ### Ciphers in rounds -/

/-- A substitution and a linear layer, both with their inverses. -/
structure Layers (State : Type) [AddCommGroup State] where
  substitute : State → State
  restore : State → State
  mix : State → State
  unmix : State → State
  restore_substitute : ∀ state, restore (substitute state) = state
  unmix_mix : ∀ state, unmix (mix state) = state
  unmix_sub : ∀ left right, unmix (left - right) = unmix left - unmix right

namespace Layers
variable {State : Type} [AddCommGroup State] (layers : Layers State)

def round (state key : State) : State := layers.mix (layers.substitute state) + key

/-- The last round has no linear layer. -/
def cipher (first : State) (inner : List State) (last block : State) : State :=
  layers.substitute (inner.foldl layers.round (block + first)) + last

/-- The rounds of the cipher with the inverse layers, under other keys. -/
def unround (state key : State) : State := layers.unmix (layers.restore state) - key

def decipher (last : State) (inner : List State) (first block : State) : State :=
  layers.restore (inner.foldl layers.unround (block - last)) - first

/-- The rounds undone, the last one first. -/
theorem unrounds (inner : List State) (state : State) :
    (inner.reverse.map layers.unmix).foldl layers.unround
        (layers.substitute (inner.foldl layers.round state)) =
      layers.substitute state := by
  induction inner generalizing state with
  | nil => rfl
  | cons key rest ih =>
    rw [List.foldl_cons, List.reverse_cons, List.map_append, List.foldl_append, ih,
      List.map_singleton, List.foldl_cons, List.foldl_nil, unround, layers.restore_substitute, round]
    calc layers.unmix (layers.mix (layers.substitute state) + key) - layers.unmix key
        = layers.unmix (layers.mix (layers.substitute state) + key - key) := (layers.unmix_sub _ _).symm
      _ = layers.substitute state := by rw [add_sub_cancel_right, layers.unmix_mix]

/-- Decryption in the order of encryption, with the inner keys unmixed. -/
theorem decipher_cipher (first : State) (inner : List State) (last block : State) :
    layers.decipher last (inner.reverse.map layers.unmix) first
      (layers.cipher first inner last block) = block := by
  rw [decipher, cipher, add_sub_cancel_right, unrounds, layers.restore_substitute,
    add_sub_cancel_right]

end Layers

/-! ### The layers of the standard -/

/-- A substitution of bytes with its inverse. -/
structure SBox where
  sub : Gf → Gf
  unsub : Gf → Gf
  unsub_sub : ∀ byte, unsub (sub byte) = byte

/-- The affine transformation of the bits of a byte. -/
def affine (byte : Gf) : Gf :=
  byte + ⟨byte.byte.rotateLeft 1⟩ + ⟨byte.byte.rotateLeft 2⟩ + ⟨byte.byte.rotateLeft 3⟩ +
    ⟨byte.byte.rotateLeft 4⟩ + ⟨0x63⟩

/-- The substitution box of the standard, by inverses in the field. -/
def SBox.Standard (box : SBox) : Prop :=
  ∀ byte, ∃ inverse, byte.IsInverse inverse ∧ box.sub byte = affine inverse

/-- A substitution of a finite field has one inverse. -/
theorem SBox.eq_of_sub {first second : SBox} (same : first.sub = second.sub) : first = second := by
  have bytes : Finite (BitVec 8) := Finite.of_injective BitVec.toFin fun _ _ => BitVec.eq_of_toFin_eq
  have finite : Finite Gf := Finite.of_injective Gf.byte fun _ _ => Gf.ext
  have onto : Function.Surjective first.sub :=
    Finite.surjective_of_injective (Function.LeftInverse.injective first.unsub_sub)
  have unsub : first.unsub = second.unsub := by
    funext byte
    obtain ⟨origin, rfl⟩ := onto byte
    rw [first.unsub_sub, same, second.unsub_sub]
  cases first
  cases second
  cases same
  cases unsub
  rfl

theorem SBox.Standard.unique {first second : SBox} (left : first.Standard) (right : second.Standard) :
    first = second := by
  refine SBox.eq_of_sub (funext fun byte => ?_)
  obtain ⟨inverse, isInverse, sub⟩ := left byte
  obtain ⟨other, isOther, other_sub⟩ := right byte
  rw [sub, other_sub, isInverse.unique isOther]

/-- Four rows and four columns of bytes; a block fills the columns one after the other. -/
abbrev AesState := Matrix (Fin 4) (Fin 4) Gf

def shiftRows (state : AesState) : AesState := fun row column => state row (column + row)

def invShiftRows (state : AesState) : AesState := fun row column => state row (column - row)

def mixMatrix : AesState :=
  !![⟨0x02⟩, ⟨0x03⟩, ⟨0x01⟩, ⟨0x01⟩; ⟨0x01⟩, ⟨0x02⟩, ⟨0x03⟩, ⟨0x01⟩;
    ⟨0x01⟩, ⟨0x01⟩, ⟨0x02⟩, ⟨0x03⟩; ⟨0x03⟩, ⟨0x01⟩, ⟨0x01⟩, ⟨0x02⟩]

def invMixMatrix : AesState :=
  !![⟨0x0e⟩, ⟨0x0b⟩, ⟨0x0d⟩, ⟨0x09⟩; ⟨0x09⟩, ⟨0x0e⟩, ⟨0x0b⟩, ⟨0x0d⟩;
    ⟨0x0d⟩, ⟨0x09⟩, ⟨0x0e⟩, ⟨0x0b⟩; ⟨0x0b⟩, ⟨0x0d⟩, ⟨0x09⟩, ⟨0x0e⟩]

theorem invMixMatrix_mul : invMixMatrix * mixMatrix = 1 := by
  decide +kernel

def aesLayers (box : SBox) : Layers AesState where
  substitute state := shiftRows (state.map box.sub)
  restore state := invShiftRows (state.map box.unsub)
  mix state := mixMatrix * state
  unmix state := invMixMatrix * state
  restore_substitute state := by
    have back : ∀ row column : Fin 4, column - row + row = column := by decide
    refine Matrix.ext fun row column => ?_
    simp only [invShiftRows, shiftRows, Matrix.map_apply, back, box.unsub_sub]
  unmix_mix state := by rw [← Matrix.mul_assoc, invMixMatrix_mul, Matrix.one_mul]
  unmix_sub left right := Matrix.mul_sub invMixMatrix left right

/-! ### The key schedule of the standard -/

abbrev AesWord := Fin 4 → Gf

namespace AesWord
variable (word : AesWord)

def first : Gf := word 0
def second : Gf := word 1
def third : Gf := word 2
def fourth : Gf := word 3

end AesWord

def rotWord (word : AesWord) : AesWord := fun row => word (row + 1)

/-- x^(i - 1) in the first byte. -/
def rconWord (i : Nat) : AesWord := fun row => if row = 0 then Gf.xtime^[i - 1] 1 else 0

/-- What is added to the word `nk` before, of the word before. -/
def scheduleTemp (box : SBox) (nk i : Nat) (word : AesWord) : AesWord :=
  if i % nk = 0 then box.sub ∘ rotWord word + rconWord (i / nk)
  else if 6 < nk ∧ i % nk = 4 then box.sub ∘ word
  else word

/-- The words of the expanded key of `nk` words. -/
def schedule (box : SBox) (nk : Nat) (key : Nat → AesWord) (i : Nat) : AesWord :=
  if i < nk ∨ nk = 0 then key i
  else schedule box nk key (i - nk) + scheduleTemp box nk i (schedule box nk key (i - 1))
termination_by i

theorem schedule_key {box : SBox} {nk : Nat} {key : Nat → AesWord} {i : Nat} (inKey : i < nk) :
    schedule box nk key i = key i := by
  rw [schedule, if_pos (.inl inKey)]

theorem schedule_add {box : SBox} {nk : Nat} {key : Nat → AesWord} (positive : 0 < nk) (i : Nat) :
    schedule box nk key (nk + i) = schedule box nk key i +
      scheduleTemp box nk (nk + i) (schedule box nk key (nk + i - 1)) := by
  rw [schedule, if_neg (by omega), Nat.add_sub_cancel_left]

/-- Four words of the schedule as the columns of a key. -/
def roundKey (words : Nat → AesWord) (round : Nat) : AesState :=
  fun row column => words (4 * round + column) row

/-- The cipher of the standard with `nr` rounds. -/
def standardCipher (box : SBox) (words : Nat → AesWord) (nr : Nat) (block : AesState) : AesState :=
  (aesLayers box).cipher (roundKey words 0) ((List.range' 1 (nr - 1)).map (roundKey words))
    (roundKey words nr) block

end Livezure.Core
