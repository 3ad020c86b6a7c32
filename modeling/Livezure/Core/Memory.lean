import Mathlib.Algebra.Order.Ring.Int
import Mathlib.Data.List.Basic
import Mathlib.Data.List.Infix
import Mathlib.Data.List.TakeWhile

/-! Flat memory as a C program sees it: blocks of bytes, bounded copies,
little-endian integers and NUL-terminated strings. -/
namespace Livezure.Core

/-- Undefined behaviour of a C program. A model returns the first one it meets. -/
inductive Fault where
  | uninitialised
  | outOfBounds
  | useAfterFree
  | nullPointer
  | unterminated
  | exhausted
  deriving DecidableEq, Repr

/-- What a successful sequence of two computations went through. -/
theorem bind_ok {first : Except Fault α} {next : α → Except Fault β}
    (run : first >>= next = .ok result) :
    ∃ middle, first = .ok middle ∧ next middle = .ok result := by
  cases first with
  | error fault => cases run
  | ok middle => exact ⟨middle, rfl, run⟩

theorem bind_ok_iff {first : Except Fault α} {next : α → Except Fault β} :
    (first >>= next = .ok result) ↔ ∃ middle, first = .ok middle ∧ next middle = .ok result := by
  constructor
  · exact bind_ok
  · rintro ⟨middle, rfl, done⟩
    exact done

/-- An entry stays where it is when a list grows at its end. -/
theorem getElem?_stays {list : List α} {entry : α} {index : Nat} (found : list[index]? = some entry)
    (more : List α) : (list ++ more)[index]? = some entry := by
  rw [List.getElem?_append_left (List.getElem?_eq_some_iff.mp found).1]
  exact found

/-- An entry of a list that has grown by one was there before, or is the new one. -/
theorem getElem?_grown {list : List α} {last entry : α} {index : Nat}
    (found : (list ++ [last])[index]? = some entry) :
    list[index]? = some entry ∨ index = list.length ∧ entry = last := by
  rcases Nat.lt_or_ge index list.length with old | new
  · rw [List.getElem?_append_left old] at found
    exact .inl found
  · have bound := (List.getElem?_eq_some_iff.mp found).1
    rw [List.length_append, List.length_singleton] at bound
    obtain rfl : index = list.length := by omega
    rw [List.getElem?_concat_length] at found
    exact .inr ⟨rfl, (Option.some.inj found).symm⟩

abbrev Bytes := List UInt8

instance : LawfulBEq Bytes := inferInstance

instance : LawfulBEq (Option Bytes) := inferInstance

/-- The bytes of an ASCII literal. -/
def ascii (text : String) : Bytes :=
  text.toList.map (fun char => UInt8.ofNat char.toNat)

/-- `size` bytes of a block from `offset` on. -/
def slice (block : Bytes) (offset size : Nat) : Except Fault Bytes :=
  if offset + size ≤ block.length then .ok ((block.drop offset).take size)
  else .error .outOfBounds

/-- The block with `source` over its bytes from `offset` on. -/
def splice (block : Bytes) (offset : Nat) (source : Bytes) : Bytes :=
  block.take offset ++ source ++ block.drop (offset + source.length)

/-- `memcpy` into a block. -/
def copyInto (block : Bytes) (offset : Nat) (source : Bytes) : Except Fault Bytes :=
  if offset + source.length ≤ block.length then .ok (splice block offset source)
  else .error .outOfBounds

theorem slice_ok {block : Bytes} (room : offset + size ≤ block.length) :
    slice block offset size = .ok ((block.drop offset).take size) := by
  simp [slice, room]

theorem slice_eq_ok {block : Bytes} (read : slice block offset size = .ok bytes) :
    offset + size ≤ block.length ∧ bytes = (block.drop offset).take size := by
  unfold slice at read
  split at read
  · rename_i room
    exact ⟨room, (Except.ok.inj read).symm⟩
  · cases read

theorem copyInto_ok {block source : Bytes} (room : offset + source.length ≤ block.length) :
    copyInto block offset source = .ok (splice block offset source) := by
  simp [copyInto, room]

theorem splice_length {block source : Bytes} (room : offset + source.length ≤ block.length) :
    (splice block offset source).length = block.length := by
  simp only [splice, List.length_append, List.length_take, List.length_drop]
  omega

/-- Reading before the written range sees the old bytes. -/
theorem splice_before {block source : Bytes} (room : offset ≤ block.length)
    (apart : start + size ≤ offset) :
    ((splice block offset source).drop start).take size = (block.drop start).take size := by
  have inside : start ≤ (block.take offset).length := by
    rw [List.length_take]
    omega
  rw [splice, List.append_assoc, List.drop_append_of_le_length inside,
    List.take_append_of_le_length (by rw [List.length_drop, List.length_take]; omega),
    List.drop_take, List.take_take]
  congr 1
  omega

/-- Reading after the written range sees the old bytes. -/
theorem splice_after {block source : Bytes} (room : offset + source.length ≤ block.length)
    (apart : offset + source.length ≤ start) :
    (splice block offset source).drop start = block.drop start := by
  have whole : (block.take offset ++ source).length = offset + source.length := by
    rw [List.length_append, List.length_take]
    omega
  rw [splice, List.drop_append, whole, List.drop_eq_nil_of_le (by omega), List.nil_append,
    List.drop_drop]
  congr 1
  omega

/-- Reading what was just written, together with the bytes right before it. -/
theorem splice_upto (block source : Bytes) (room : offset ≤ block.length) (order : start ≤ offset) :
    ((splice block offset source).drop start).take (offset - start + source.length) =
      (block.drop start).take (offset - start) ++ source := by
  have inside : start ≤ (block.take offset).length := by
    rw [List.length_take]
    omega
  have front : (List.drop start (block.take offset)).length = offset - start := by
    rw [List.length_drop, List.length_take]
    omega
  rw [splice, List.append_assoc, List.drop_append_of_le_length inside, List.take_append, front,
    List.take_of_length_le (by omega), List.drop_take, Nat.add_sub_cancel_left,
    List.take_append_of_le_length (Nat.le_refl _), List.take_length]

/-- Writing inside a window writes the window. -/
theorem splice_window {block source : Bytes} (inside : offset + source.length ≤ size)
    (room : start + size ≤ block.length) :
    ((splice block (start + offset) source).drop start).take size =
      splice ((block.drop start).take size) offset source := by
  have front : (List.drop start (block.take (start + offset))).length = offset := by
    rw [List.length_drop, List.length_take]
    omega
  have reaches : start ≤ (block.take (start + offset)).length := by
    rw [List.length_take]
    omega
  rw [splice, splice, List.append_assoc, List.drop_append_of_le_length reaches, List.take_append,
    List.take_append, front, List.take_of_length_le (by omega),
    List.take_of_length_le (show source.length ≤ size - offset by omega), List.append_assoc]
  congr 1
  · rw [List.drop_take, List.take_take]
    congr 1
    omega
  · congr 1
    rw [List.drop_take, List.drop_drop]
    congr 1
    · omega
    · congr 1
      omega

/-- The `width` little-endian bytes of a number; higher bits are dropped. -/
def leBytes : Nat → Nat → Bytes
  | 0, _ => []
  | width + 1, value => UInt8.ofNat value :: leBytes width (value / 256)

/-- The number with the given little-endian bytes. -/
def leNat : Bytes → Nat
  | [] => 0
  | byte :: rest => byte.toNat + 256 * leNat rest

@[simp] theorem leBytes_length (width value : Nat) : (leBytes width value).length = width := by
  induction width generalizing value with
  | zero => rfl
  | succ width ih => simp [leBytes, ih]

theorem leNat_leBytes (width value : Nat) (fits : value < 256 ^ width) :
    leNat (leBytes width value) = value := by
  induction width generalizing value with
  | zero =>
    have zero : value = 0 := by simpa using fits
    simp [leBytes, leNat, zero]
  | succ width ih =>
    have smaller : value / 256 < 256 ^ width := by
      rw [Nat.pow_succ] at fits
      exact Nat.div_lt_of_lt_mul (by rw [Nat.mul_comm]; exact fits)
    have low : (UInt8.ofNat value).toNat = value % 256 := by simp
    rw [leBytes, leNat, ih _ smaller, low]
    omega

theorem leBytes_leNat (bytes : Bytes) : leBytes bytes.length (leNat bytes) = bytes := by
  induction bytes with
  | nil => rfl
  | cons byte rest ih =>
    have low := byte.toNat_lt
    have first : UInt8.ofNat (byte.toNat + 256 * leNat rest) = byte := by
      apply UInt8.toNat_inj.mp
      rw [UInt8.toNat_ofNat']
      omega
    have later : (byte.toNat + 256 * leNat rest) / 256 = leNat rest := by omega
    rw [leNat, List.length_cons, leBytes, first, later, ih]

theorem leNat_lt (bytes : Bytes) : leNat bytes < 256 ^ bytes.length := by
  induction bytes with
  | nil => simp [leNat]
  | cons byte rest ih =>
    have low := byte.toNat_lt
    rw [leNat, List.length_cons, Nat.pow_succ]
    omega

/-- The C string at the start of a memory: the bytes up to the first NUL. -/
def cstring (memory : Bytes) : Bytes := memory.takeWhile (· ≠ 0)

/-- `strlen`; reading on past the last known byte is a fault. -/
def strlen (memory : Bytes) : Except Fault Nat :=
  if 0 ∈ memory then .ok (cstring memory).length else .error .unterminated

/-- A size argument that may ask for `strlen`. -/
def sizeOr (unsized : Prop) [Decidable unsized] (memory : Bytes) (size : Int) : Except Fault Nat :=
  if unsized then strlen memory else .ok size.toNat

theorem sizeOr_known {unsized : Prop} [Decidable unsized] (known : ¬ unsized) (memory : Bytes)
    (size : Nat) : sizeOr unsized memory size = .ok size := by
  rw [sizeOr, if_neg known, Int.toNat_natCast]

/-- The offset of the first occurrence of `needle`. -/
def strstr (needle : Bytes) : Bytes → Option Nat
  | [] => if needle = [] then some 0 else none
  | byte :: rest =>
    if needle <+: byte :: rest then some 0 else (strstr needle rest).map (· + 1)

theorem cstring_append (front rest : Bytes) (clean : 0 ∉ front) :
    cstring (front ++ rest) = front ++ cstring rest := by
  unfold cstring
  rw [List.takeWhile_append_of_pos]
  intro byte member
  have different : byte ≠ 0 := fun same => clean (same ▸ member)
  simpa using different

theorem cstring_clean (memory : Bytes) : 0 ∉ cstring memory := by
  intro member
  have kept := List.mem_takeWhile_imp member
  simp at kept

/-- A string that is its own C string is terminated by the first NUL after it. -/
theorem cstring_terminated (text rest : Bytes) (clean : 0 ∉ text) :
    cstring (text ++ 0 :: rest) = text := by
  rw [cstring_append _ _ clean]
  simp [cstring]

end Livezure.Core
