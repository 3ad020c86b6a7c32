import Livezure.Service.Handlers

/-! `atoi` reads back what `%d` writes, for every `int`. -/
namespace Livezure.Service
open Livezure.Core

def IsInt (value : Int) : Prop := -2 ^ 31 ≤ value ∧ value < 2 ^ 31

instance (value : Int) : Decidable (IsInt value) := instDecidableAnd

def IsDigit (byte : UInt8) : Prop := 48 ≤ byte ∧ byte ≤ 57

private theorem byte_of_digit {char : Char} (digit : char.isDigit) :
    IsDigit (UInt8.ofNat char.toNat) ∧ (UInt8.ofNat char.toNat).toNat = char.toNat := by
  obtain ⟨low, high⟩ : 48 ≤ char.toNat ∧ char.toNat ≤ 57 := by
    simpa [Char.isDigit, UInt32.le_iff_toNat_le] using digit
  have fits : (UInt8.ofNat char.toNat).toNat = char.toNat := by
    rw [UInt8.toNat_ofNat']
    omega
  refine ⟨⟨?_, ?_⟩, fits⟩
  · rw [UInt8.le_iff_toNat_le, fits]
    exact low
  · rw [UInt8.le_iff_toNat_le, fits]
    exact high

private theorem foldl_digits {chars : List Char} (digits : ∀ char ∈ chars, char.isDigit) (start : Nat) :
    (chars.map fun char => UInt8.ofNat char.toNat).foldl
      (fun (value : Int) byte => value * 10 + (byte.toNat - 48)) start =
        (Nat.ofDigitChars 10 chars start : Nat) := by
  induction chars generalizing start with
  | nil => rfl
  | cons char rest ih =>
    have digit := digits char List.mem_cons_self
    obtain ⟨⟨low, _⟩, same⟩ := byte_of_digit digit
    rw [UInt8.le_iff_toNat_le, same] at low
    have next : ((start : Int) * 10 + ((UInt8.ofNat char.toNat).toNat - 48)) =
        (10 * start + (char.toNat - '0'.toNat) : Nat) := by
      have least : 48 ≤ char.toNat := low
      have zero : '0'.toNat = 48 := rfl
      rw [same, zero]
      omega
    rw [List.map_cons, List.foldl_cons, Nat.ofDigitChars_cons, next]
    exact ih (fun other member => digits other (List.mem_cons_of_mem _ member)) _

def digitsOf (value : Nat) : Bytes := ascii value.repr

theorem digitsOf_eq (value : Nat) :
    digitsOf value = (Nat.toDigits 10 value).map fun char => UInt8.ofNat char.toNat := by
  rw [digitsOf, ascii, Nat.toList_repr]

theorem digitsOf_ne_nil (value : Nat) : digitsOf value ≠ [] := by
  rw [digitsOf_eq]
  exact fun empty => Nat.toDigits_ne_nil (List.map_eq_nil_iff.mp empty)

theorem digitsOf_digit {value : Nat} (member : byte ∈ digitsOf value) : IsDigit byte := by
  rw [digitsOf_eq] at member
  obtain ⟨char, inside, rfl⟩ := List.mem_map.mp member
  exact (byte_of_digit (Nat.isDigit_of_mem_toDigits (by decide) (by decide) inside)).1

theorem digitsOf_value (value : Nat) :
    (digitsOf value).foldl (fun (value : Int) byte => value * 10 + (byte.toNat - 48)) 0 = value := by
  rw [digitsOf_eq]
  have digits : ∀ char ∈ Nat.toDigits 10 value, char.isDigit := fun char inside =>
    Nat.isDigit_of_mem_toDigits (by decide) (by decide) inside
  have folded := foldl_digits digits 0
  rw [Nat.ofDigitChars_ten_toDigits] at folded
  exact folded

theorem decimal_negSucc (value : Nat) : decimal (Int.negSucc value) = 45 :: digitsOf (value + 1) := by
  have text : toString (Int.negSucc value) = "-" ++ (value + 1).repr := rfl
  rw [decimal, text, digitsOf, ascii, ascii, String.toList_append]
  rfl

theorem decimal_ne_nil (value : Int) : decimal value ≠ [] := by
  cases value with
  | ofNat value => exact digitsOf_ne_nil value
  | negSucc value =>
    rw [decimal_negSucc]
    exact List.cons_ne_nil _ _

theorem decimal_clean (value : Int) : 0 ∉ decimal value := by
  have digits : ∀ value : Nat, 0 ∉ digitsOf value := fun value member =>
    absurd (digitsOf_digit member).1 (by decide)
  cases value with
  | ofNat value => exact digits value
  | negSucc value =>
    rw [decimal_negSucc]
    intro member
    rcases List.mem_cons.mp member with same | later
    · cases same
    · exact digits _ later

/-- `%d` writes different numbers differently. -/
theorem decimal_inj {left right : Int} (same : decimal left = decimal right) : left = right := by
  have digits : ∀ {left right : Nat}, digitsOf left = digitsOf right → left = right := by
    intro left right same
    have values := digitsOf_value left
    rw [same, digitsOf_value] at values
    exact (Int.ofNat.inj values).symm
  have sign : ∀ {value : Nat}, 45 ∉ digitsOf value := fun member =>
    absurd (digitsOf_digit member).1 (by decide)
  cases left with
  | ofNat left =>
    cases right with
    | ofNat right => exact congrArg Int.ofNat (digits same)
    | negSucc right =>
      rw [decimal_negSucc] at same
      have member : 45 ∈ decimal (Int.ofNat left) := by
        rw [same]
        exact List.mem_cons_self
      exact absurd member sign
  | negSucc left =>
    rw [decimal_negSucc] at same
    cases right with
    | ofNat right =>
      have member : 45 ∈ decimal (Int.ofNat right) := by
        rw [← same]
        exact List.mem_cons_self
      exact absurd member sign
    | negSucc right =>
      rw [decimal_negSucc] at same
      have next := digits (List.cons.inj same).2
      rw [Nat.add_right_cancel next]

/-- `atoi` keeps what fits an `int`. -/
def toInt (value : Int) : Int := Int.bmod (max (-2 ^ 63) (min (2 ^ 63 - 1) value)) (2 ^ 32)

theorem toInt_isInt (value : Int) : IsInt (toInt value) := by
  have low := @Int.le_bmod (max (-2 ^ 63) (min (2 ^ 63 - 1) value)) (2 ^ 32) (by decide)
  have high := @Int.bmod_lt (max (-2 ^ 63) (min (2 ^ 63 - 1) value)) (2 ^ 32) (by decide)
  unfold IsInt toInt
  omega

theorem toInt_of_isInt (small : IsInt value) : toInt value = value := by
  obtain ⟨low, high⟩ := small
  have clamped : max (-2 ^ 63) (min (2 ^ 63 - 1) value) = value := by omega
  rw [toInt, clamped]
  exact Int.bmod_eq_of_le (by omega) (by omega)

private theorem takeWhile_digits {text : Bytes} (digits : ∀ byte ∈ text, IsDigit byte) :
    text.takeWhile (fun byte => decide (48 ≤ byte ∧ byte ≤ 57)) = text := by
  rw [List.takeWhile_eq_self_iff]
  intro byte member
  exact decide_eq_true (digits byte member)

private theorem dropWhile_none {text : Bytes} (solid : 32 < byte) :
    (byte :: text).dropWhile (fun byte => decide (byte = 32 ∨ 9 ≤ byte ∧ byte ≤ 13)) =
      byte :: text := by
  rw [List.dropWhile_cons_of_neg]
  intro skipped
  have space := of_decide_eq_true skipped
  rw [UInt8.lt_iff_toNat_lt] at solid
  have visible : 32 < byte.toNat := solid
  rcases space with rfl | ⟨_, high⟩
  · exact absurd visible (by decide)
  · rw [UInt8.le_iff_toNat_le] at high
    have control : byte.toNat ≤ 13 := high
    omega

private theorem atoi_digitsOf (value : Nat) : atoi (digitsOf value) = toInt value := by
  have digits : ∀ byte ∈ digitsOf value, IsDigit byte := fun _ member => digitsOf_digit member
  have sum := digitsOf_value value
  unfold atoi toInt
  cases written : digitsOf value with
  | nil => exact absurd written (digitsOf_ne_nil value)
  | cons first rest =>
    rw [written] at digits sum
    obtain ⟨low, high⟩ := digits first List.mem_cons_self
    have solid : 32 < first := Std.lt_of_lt_of_le (by decide) low
    have minus : ¬ first = 45 := by
      rintro rfl
      exact absurd low (by decide)
    have plus : ¬ first = 43 := by
      rintro rfl
      exact absurd low (by decide)
    simp only [dropWhile_none solid, List.head?_cons, Option.some.injEq, minus, plus, or_self,
      if_false, takeWhile_digits digits, sum]

private theorem atoi_minus (value : Nat) : atoi (45 :: digitsOf value) = toInt (-value) := by
  have digits : ∀ byte ∈ digitsOf value, IsDigit byte := fun _ member => digitsOf_digit member
  unfold atoi toInt
  simp only [dropWhile_none (show (32 : UInt8) < 45 by decide), List.head?_cons, true_or, if_true,
    List.tail_cons, takeWhile_digits digits, digitsOf_value value]

theorem atoi_decimal (value : Int) : atoi (decimal value) = toInt value := by
  cases value with
  | ofNat value => exact atoi_digitsOf value
  | negSucc value =>
    rw [decimal_negSucc, atoi_minus]
    rfl

/-- A number is read back exactly if it is an `int`. -/
theorem atoi_decimal_iff (value : Int) : atoi (decimal value) = value ↔ IsInt value := by
  rw [atoi_decimal]
  constructor
  · intro same
    rw [← same]
    exact toInt_isInt value
  · exact toInt_of_isInt

end Livezure.Service
