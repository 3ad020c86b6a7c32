import Mathlib.Data.List.Basic
import Mathlib.Tactic.Tauto

/-! A linked list that one loop goes through while others append to it: what the loop has passed,
what it still comes to, and what was appended after it had seen the end. -/
namespace Livezure.Core

structure CursorList (α : Type) where
  passed : List α
  ahead : List α
  late : List α
  deriving DecidableEq

namespace CursorList
variable {α : Type}

/-- The list itself. -/
def all (list : CursorList α) : List α := list.passed ++ list.ahead ++ list.late

def empty : CursorList α := ⟨[], [], []⟩

/-- A loop begins at the head. -/
def rewind (list : CursorList α) : CursorList α := ⟨[], list.all, []⟩

/-- What is appended is missed by a loop with no more than so many items ahead. -/
def append (list : CursorList α) (seen : Nat) (item : α) : CursorList α :=
  if list.late = [] ∧ seen < list.ahead.length then { list with ahead := list.ahead ++ [item] }
  else { list with late := list.late ++ [item] }

/-- The loop leaves its item as another one. -/
def pass (list : CursorList α) (item : α) : CursorList α :=
  { list with passed := list.passed ++ [item], ahead := list.ahead.tail }

/-- The loop takes its item off the list. -/
def drop (list : CursorList α) : CursorList α := { list with ahead := list.ahead.tail }

def map (list : CursorList α) (change : α → α) : CursorList α :=
  ⟨list.passed.map change, list.ahead.map change, list.late.map change⟩

section Items
variable {list : CursorList α} {item : α} {rest : List α}

@[simp] theorem all_rewind (list : CursorList α) : list.rewind.all = list.all := by
  simp [rewind, all]

@[simp] theorem all_append (list : CursorList α) (seen : Nat) (item : α) :
    (list.append seen item).all = list.all ++ [item] := by
  unfold append
  split
  · rename_i open_
    simp [all, open_.1]
  · simp [all]

@[simp] theorem all_map (list : CursorList α) (change : α → α) :
    (list.map change).all = list.all.map change := by
  simp [map, all]

theorem all_pass (ahead : list.ahead = item :: rest) (other : α) :
    (list.pass other).all = list.passed ++ other :: rest ++ list.late := by
  simp [pass, all, ahead]

theorem all_drop (ahead : list.ahead = item :: rest) :
    list.drop.all = list.passed ++ rest ++ list.late := by
  simp [drop, all, ahead]

theorem all_of_ahead (ahead : list.ahead = item :: rest) :
    list.all = list.passed ++ item :: rest ++ list.late := by
  rw [all, ahead]

/-- What is at the cursor, and what is around it. -/
theorem mem_around {front back : List α} {other : α} :
    other ∈ front ++ item :: rest ++ back ↔ other = item ∨ other ∈ front ++ rest ++ back := by
  simp only [List.mem_append, List.mem_cons]
  tauto

theorem mem_beside {other : α} (ahead : list.ahead = item :: rest)
    (beside : other ∈ list.passed ++ rest ++ list.late) : other ∈ list.all := by
  rw [all_of_ahead ahead]
  exact mem_around.mpr (.inr beside)

theorem mem_all_pass {left other : α} (ahead : list.ahead = item :: rest) :
    other ∈ (list.pass left).all ↔ other = left ∨ other ∈ list.passed ++ rest ++ list.late := by
  rw [all_pass ahead]
  exact mem_around

theorem head_mem_all (ahead : list.ahead = item :: rest) : item ∈ list.all := by
  rw [all_of_ahead ahead]
  exact mem_around.mpr (.inl rfl)

theorem mem_of_head (head : item ∈ list.ahead.head?) : item ∈ list.all := by
  rw [all]
  apply List.mem_append_left
  exact List.mem_append_right _ (List.mem_of_mem_head? head)

/-- What the loop comes to is what it came to before, and what was appended in time. -/
theorem ahead_append (list : CursorList α) (seen : Nat) (item : α) :
    (list.append seen item).ahead = list.ahead ∨
      (list.append seen item).ahead = list.ahead ++ [item] ∧ seen < list.ahead.length := by
  unfold append
  split
  · rename_i open_
    exact .inr ⟨rfl, open_.2⟩
  · exact .inl rfl

theorem mem_append_ahead {seen : Nat} {other : α} (member : other ∈ (list.append seen item).ahead) :
    other ∈ list.ahead ∨ other = item ∧ seen < list.ahead.length := by
  rcases list.ahead_append seen item with same | ⟨more, open_⟩
  · exact .inl (same ▸ member)
  · rw [more] at member
    rcases List.mem_append.mp member with old | new
    · exact .inl old
    · exact .inr ⟨List.mem_singleton.mp new, open_⟩

theorem mem_ahead_append {other : α} (seen : Nat) (item : α) (member : other ∈ list.ahead) :
    other ∈ (list.append seen item).ahead := by
  rcases list.ahead_append seen item with same | ⟨more, _⟩
  · exact same.symm ▸ member
  · rw [more]
    exact List.mem_append_left _ member

/-- An appended item does not stand at the cursor. -/
theorem head_append (list : CursorList α) (seen : Nat) (item : α) :
    (list.append seen item).ahead.head? = list.ahead.head? := by
  rcases list.ahead_append seen item with same | ⟨longer, some_⟩
  · rw [same]
  · rw [longer]
    cases ahead : list.ahead with
    | nil =>
      rw [ahead] at some_
      cases some_
    | cons head rest => rfl

theorem mem_append_tail {seen : Nat} {other : α}
    (member : other ∈ (list.append seen item).ahead.tail) : other ∈ list.ahead.tail ∨ other = item := by
  rcases list.ahead_append seen item with same | ⟨longer, _⟩
  · exact .inl (same ▸ member)
  · rw [longer] at member
    cases ahead : list.ahead with
    | nil =>
      rw [ahead] at member
      cases member
    | cons head rest =>
      rw [ahead] at member
      simpa using member

/-- What the loop does not come to is what it did not come to before, or was appended too late. -/
theorem mem_append_behind {seen : Nat} {other : α}
    (member : other ∈ (list.append seen item).passed ++ (list.append seen item).late) :
    other ∈ list.passed ++ list.late ∨ other = item := by
  unfold append at member
  split at member
  · exact .inl member
  · simpa [or_assoc] using member

end Items
end CursorList
end Livezure.Core
