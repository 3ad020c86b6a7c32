import Mathlib.Data.Int.Notation
import Mathlib.Algebra.Order.Ring.Int

/-! Arithmetic of the signed types of C: it is undefined where it overflows, and a conversion to
a narrower type keeps the low bits. -/
namespace Livezure.Core

/-- A value of a signed type of so many bits. -/
def Fits (bits : Nat) (value : Int) : Prop := -2 ^ (bits - 1) ≤ value ∧ value < 2 ^ (bits - 1)

instance (bits : Nat) (value : Int) : Decidable (Fits bits value) :=
  inferInstanceAs (Decidable (_ ∧ _))

/-- The result of an operation, none where it overflows. -/
def signed (bits : Nat) (value : Int) : Option Int := if Fits bits value then some value else none

/-- A conversion to a narrower type. -/
def narrow (bits : Nat) (value : Int) : Int := (BitVec.ofInt bits value).toInt

section Fits
variable {bits : Nat} {value : Int}

theorem signed_of_fits (fits : Fits bits value) : signed bits value = some value := if_pos fits

theorem signed_eq_some {result : Int} :
    signed bits value = some result ↔ Fits bits value ∧ value = result := by
  rw [signed]
  split
  · rename_i fits
    rw [Option.some.injEq, and_iff_right fits]
  · rename_i outside
    exact iff_of_false (fun some_ => nomatch some_) fun both => outside both.1

theorem Fits.wider {more : Nat} (fits : Fits bits value) (wider : bits ≤ more) : Fits more value := by
  have power : (2 : Int) ^ (bits - 1) ≤ 2 ^ (more - 1) := by
    apply pow_le_pow_right₀ (by decide)
    omega
  obtain ⟨low, high⟩ := fits
  exact ⟨by omega, by omega⟩

theorem narrow_of_fits (fits : Fits bits value) (positive : 0 < bits) : narrow bits value = value := by
  obtain ⟨less, rfl⟩ : ∃ less, bits = less + 1 := ⟨bits - 1, by omega⟩
  have power : ((2 ^ (less + 1) : Nat) : Int) = 2 * 2 ^ less := by
    rw [Nat.pow_succ, Nat.mul_comm]
    push_cast
    rfl
  obtain ⟨low, high⟩ := fits
  rw [Nat.add_sub_cancel] at low high
  rw [narrow, BitVec.toInt_ofInt]
  apply Int.bmod_eq_of_le_mul_two
  · rw [power]
    omega
  · rw [power]
    omega

/-- What a conversion gives is a value of the narrower type. -/
theorem narrow_fits (value : Int) : Fits bits (narrow bits value) := by
  have low := @BitVec.le_toInt bits (BitVec.ofInt bits value)
  have high := @BitVec.toInt_lt bits (BitVec.ofInt bits value)
  exact ⟨low, high⟩

end Fits
end Livezure.Core
