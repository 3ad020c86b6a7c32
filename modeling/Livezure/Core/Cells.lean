import Livezure.Core.Memory

/-! Buffers of which some characters were never written, and the texts that are read of them. -/
namespace Livezure.Core

/-- The characters of a buffer; none is one that was never written. -/
abbrev Cells := List (Option UInt8)

namespace Cells

def write (cells : Cells) (place : Nat) (data : Bytes) : Cells :=
  cells.take place ++ data.map some ++ cells.drop (place + data.length)

/-- The text up to its NUL. -/
def text : Cells → Except Fault Bytes
  | [] => .error .unterminated
  | none :: _ => .error .uninitialised
  | some byte :: rest =>
    if byte = 0 then .ok []
    else do
      let text ← text rest
      return byte :: text

example : text [some 97, some 0, none] = .ok [97] := rfl

/-- What is written is read up to its first NUL. -/
theorem text_written (data : Bytes) (rest : Cells) :
    text ((data ++ [0]).map some ++ rest) = .ok (cstring data) := by
  induction data with
  | nil => rfl
  | cons byte data ih =>
    change text (some byte :: ((data ++ [0]).map some ++ rest)) = _
    by_cases ends : byte = 0
    · subst ends
      rfl
    · have kept : cstring (byte :: data) = byte :: cstring data :=
        List.takeWhile_cons_of_pos (decide_eq_true ends)
      rw [text, if_neg ends, ih, kept]
      rfl

/-- Without a NUL before it, a character that was never written is read. -/
theorem text_unwritten {written : Cells} (unterminated : some 0 ∉ written) (rest : Cells) :
    text (written ++ none :: rest) = .error .uninitialised := by
  induction written with
  | nil => rfl
  | cons cell written ih =>
    rw [List.mem_cons, not_or] at unterminated
    have later := ih unterminated.2
    cases cell with
    | none => rfl
    | some byte =>
      have goesOn : byte ≠ 0 := fun ends => unterminated.1 (congrArg some ends.symm)
      rw [List.cons_append, text, if_neg goesOn, later]
      rfl

theorem write_length {cells : Cells} {place : Nat} {data : Bytes}
    (within : place + data.length ≤ cells.length) : (cells.write place data).length = cells.length := by
  simp only [write, List.length_append, List.length_take, List.length_map, List.length_drop]
  omega

/-- A write in front leaves the rest. -/
theorem write_append {cells : Cells} {place : Nat} {data : Bytes}
    (within : place + data.length ≤ cells.length) (rest : Cells) :
    (cells ++ rest).write place data = cells.write place data ++ rest := by
  rw [write, write, List.take_append_of_le_length (by omega), List.drop_append_of_le_length within]
  simp only [List.append_assoc]

theorem mem_write {cells : Cells} {place : Nat} {data : Bytes} {cell : Option UInt8}
    (member : cell ∈ cells.write place data) : cell ∈ cells ∨ cell ∈ data.map some := by
  rcases List.mem_append.mp member with front | behind
  · rcases List.mem_append.mp front with before | new
    · exact .inl (List.mem_of_mem_take before)
    · exact .inr new
  · exact .inl (List.mem_of_mem_drop behind)

/-- Cells that are all written hold a block. -/
theorem write_splice (block : Bytes) (place : Nat) (data : Bytes) :
    write (block.map some) place data = (splice block place data).map some := by
  simp only [write, splice, List.map_append, List.map_take, List.map_drop]

end Cells
end Livezure.Core
