import Mathlib.Algebra.Ring.Basic

/-! The field of 256 elements, as bytes modulo x^8 + x^4 + x^3 + x + 1. -/
namespace Livezure.Core

/-- A byte as a polynomial over two elements; the bit i is the coefficient of x^i. -/
structure Gf where
  byte : BitVec 8
  deriving DecidableEq

namespace Gf

instance : Zero Gf := ⟨⟨0⟩⟩
instance : One Gf := ⟨⟨1⟩⟩
instance : Add Gf := ⟨fun left right => ⟨left.byte ^^^ right.byte⟩⟩
instance : Neg Gf := ⟨id⟩

@[ext] theorem ext {left right : Gf} (same : left.byte = right.byte) : left = right := by
  cases left
  cases right
  cases same
  rfl

@[simp] theorem byte_zero : (0 : Gf).byte = 0 := rfl

@[simp] theorem byte_add (left right : Gf) : (left + right).byte = left.byte ^^^ right.byte := rfl

theorem add_self (element : Gf) : element + element = 0 :=
  Gf.ext (BitVec.xor_self)

instance : AddCommGroup Gf where
  add_assoc first second third := Gf.ext (BitVec.xor_assoc _ _ _)
  zero_add element := Gf.ext (by simp)
  add_zero element := Gf.ext (by simp)
  add_comm left right := Gf.ext (BitVec.xor_comm _ _)
  neg_add_cancel := add_self
  nsmul := nsmulRec
  zsmul := zsmulRec

/-- Multiplication by x. -/
def xtime (element : Gf) : Gf :=
  ⟨(element.byte <<< 1) ^^^ (if element.byte.msb then 0x1b#8 else 0#8)⟩

theorem xtime_add (left right : Gf) : xtime (left + right) = xtime left + xtime right := by
  have carry : (if (left + right).byte.msb then 0x1b#8 else 0#8) =
      (if left.byte.msb then 0x1b#8 else 0#8) ^^^ (if right.byte.msb then 0x1b#8 else 0#8) := by
    rw [byte_add, BitVec.msb_xor]
    cases left.byte.msb <;> cases right.byte.msb <;> rfl
  have shift : (left + right).byte <<< 1 = (left.byte <<< 1) ^^^ (right.byte <<< 1) :=
    BitVec.shiftLeft_xor_distrib _ _ _
  have split : xtime (left + right) = (⟨left.byte <<< 1⟩ + ⟨right.byte <<< 1⟩ : Gf) +
      (⟨if left.byte.msb then 0x1b#8 else 0#8⟩ + ⟨if right.byte.msb then 0x1b#8 else 0#8⟩ : Gf) := by
    apply Gf.ext
    rw [xtime, carry, shift]
    rfl
  rw [split, add_add_add_comm]
  rfl

/-- x^i, while it is a byte. -/
def unit (i : Fin 8) : Gf := ⟨1#8 <<< i.val⟩

/-- The element where a bit is set, and zero where it is not. -/
def bit (element : Gf) (i : Nat) (value : Gf) : Gf := if element.byte.getLsbD i then value else 0

theorem bit_add (left right : Gf) (i : Nat) (value : Gf) :
    bit (left + right) i value = bit left i value + bit right i value := by
  unfold bit
  rw [byte_add, BitVec.getLsbD_xor]
  cases left.byte.getLsbD i <;> cases right.byte.getLsbD i <;> simp [add_self]

theorem bit_value_add (element : Gf) (i : Nat) (left right : Gf) :
    bit element i (left + right) = bit element i left + bit element i right := by
  unfold bit
  split
  · rfl
  · exact (add_zero 0).symm

/-- The product with the last `n` bits of the first, divided by x^(8 - n). -/
def timesFrom (left right : Gf) : Nat → Gf
  | 0 => 0
  | n + 1 => bit left (7 - n) right + xtime (timesFrom left right n)

instance : Mul Gf := ⟨fun left right => timesFrom left right 8⟩

theorem timesFrom_add_left (first second third : Gf) (n : Nat) :
    timesFrom (first + second) third n = timesFrom first third n + timesFrom second third n := by
  induction n with
  | zero => exact (add_zero 0).symm
  | succ n ih => rw [timesFrom, ih, bit_add, xtime_add, add_add_add_comm]; rfl

theorem timesFrom_add_right (first second third : Gf) (n : Nat) :
    timesFrom first (second + third) n = timesFrom first second n + timesFrom first third n := by
  induction n with
  | zero => exact (add_zero 0).symm
  | succ n ih => rw [timesFrom, ih, bit_value_add, xtime_add, add_add_add_comm]; rfl

private theorem add_mul' (first second third : Gf) :
    (first + second) * third = first * third + second * third :=
  timesFrom_add_left first second third 8

private theorem mul_add' (first second third : Gf) :
    first * (second + third) = first * second + first * third :=
  timesFrom_add_right first second third 8

/-! ### Products of powers of x -/

private theorem byte_bits : ∀ byte : BitVec 8, (⟨byte⟩ : Gf) =
    (List.finRange 8).foldl (fun sum (i : Fin 8) => sum + bit ⟨byte⟩ i (unit i)) 0 := by
  decide +kernel

/-- Additive functions that agree on the powers of x agree. -/
theorem eq_of_units {f g : Gf → Gf} (addF : ∀ left right, f (left + right) = f left + f right)
    (addG : ∀ left right, g (left + right) = g left + g right)
    (same : ∀ i, f (unit i) = g (unit i)) (element : Gf) : f element = g element := by
  have zero {h : Gf → Gf} (add : ∀ left right, h (left + right) = h left + h right) : h 0 = 0 := by
    have twice := add 0 0
    rw [add_zero] at twice
    exact (add_eq_left.mp twice.symm)
  have bits : ∀ i : Fin 8, f (bit element i (unit i)) = g (bit element i (unit i)) := by
    intro i
    unfold bit
    split
    · exact same i
    · rw [zero addF, zero addG]
  have sum := byte_bits element.byte
  change element = _ at sum
  have fold {h : Gf → Gf} (add : ∀ left right, h (left + right) = h left + h right) (start : Gf)
      (indices : List (Fin 8)) :
      h (indices.foldl (fun sum (i : Fin 8) => sum + bit element i (unit i)) start) =
        indices.foldl (fun sum (i : Fin 8) => sum + h (bit element i (unit i))) (h start) := by
    induction indices generalizing start with
    | nil => rfl
    | cons i rest ih => rw [List.foldl_cons, ih, add, List.foldl_cons]
  rw [sum, fold addF, fold addG, zero addF, zero addG]
  simp only [bits]

private theorem mul_comm' (left right : Gf) : left * right = right * left := by
  refine eq_of_units (f := fun left => left * right) (g := fun left => right * left)
    (fun a b => add_mul' a b right) (fun a b => mul_add' right a b) (fun i => ?_) left
  refine eq_of_units (f := fun right => unit i * right) (g := fun right => right * unit i)
    (fun a b => mul_add' (unit i) a b) (fun a b => add_mul' a b (unit i)) (fun j => ?_) right
  revert i j
  decide +kernel

private theorem mul_assoc' (first second third : Gf) : first * second * third = first * (second * third) := by
  refine eq_of_units (f := fun first => first * second * third)
    (g := fun first => first * (second * third)) (fun a b => by simp only [add_mul'])
    (fun a b => add_mul' a b _) (fun i => ?_) first
  refine eq_of_units (f := fun second => unit i * second * third)
    (g := fun second => unit i * (second * third)) (fun a b => by simp only [add_mul', mul_add'])
    (fun a b => by simp only [add_mul', mul_add']) (fun j => ?_) second
  refine eq_of_units (f := fun third => unit i * unit j * third)
    (g := fun third => unit i * (unit j * third)) (fun a b => mul_add' _ a b)
    (fun a b => by simp only [mul_add']) (fun k => ?_) third
  revert i j k
  decide +kernel

private theorem one_mul' (element : Gf) : 1 * element = element := by
  refine eq_of_units (f := fun element => 1 * element) (g := id) (fun a b => mul_add' 1 a b)
    (fun _ _ => rfl) (fun i => ?_) element
  revert i
  decide +kernel

private theorem zero_mul' (element : Gf) : 0 * element = 0 := by
  have twice := add_mul' 0 0 element
  rw [add_zero] at twice
  exact add_eq_left.mp twice.symm

instance : CommRing Gf where
  mul_assoc := mul_assoc'
  one_mul := one_mul'
  mul_one element := (mul_comm' element 1).trans (one_mul' element)
  left_distrib := mul_add'
  right_distrib := add_mul'
  zero_mul := zero_mul'
  mul_zero element := (mul_comm' element 0).trans (zero_mul' element)
  mul_comm := mul_comm'
  neg_add_cancel := add_self
  zsmul := zsmulRec

/-- The byte 2 is x. -/
theorem x_mul (element : Gf) : (⟨0x02⟩ : Gf) * element = xtime element := by
  refine eq_of_units (f := fun element => (⟨0x02⟩ : Gf) * element) (g := xtime)
    (fun a b => mul_add _ a b) xtime_add (fun i => ?_) element
  revert i
  decide +kernel

/-- The inverse in the field, and zero for zero. -/
def IsInverse (element inverse : Gf) : Prop := element = 0 ∧ inverse = 0 ∨ element * inverse = 1

instance (element inverse : Gf) : Decidable (IsInverse element inverse) :=
  inferInstanceAs (Decidable (element = 0 ∧ inverse = 0 ∨ element * inverse = 1))

theorem IsInverse.unique {element first second : Gf} (left : IsInverse element first)
    (right : IsInverse element second) : first = second := by
  have never : (0 : Gf) ≠ 1 := by decide
  rcases left, right with ⟨⟨rfl, rfl⟩ | left, ⟨zero, rfl⟩ | right⟩
  · rfl
  · rw [zero_mul] at right
    exact absurd right never
  · rw [zero, zero_mul] at left
    exact absurd left never
  · calc first = first * (element * second) := by rw [right, mul_one]
      _ = element * first * second := by rw [← mul_assoc, mul_comm first]
      _ = second := by rw [left, one_mul]

end Gf
end Livezure.Core
