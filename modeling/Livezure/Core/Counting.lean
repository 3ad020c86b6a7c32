import Mathlib.Data.List.Count
import Mathlib.Data.List.Perm.Basic

/-! How many entries of a list a test accepts, when one of them is replaced or taken out. -/
namespace Livezure.Core
variable {α : Type} {entries : List α} {index : Nat} {old : α} {p : α → Bool}

/-- One entry of a list is replaced. -/
theorem countP_replace (found : entries[index]? = some old) (changed : α) (p : α → Bool) :
    (entries.set index changed).countP p + (if p old then 1 else 0) =
      entries.countP p + if p changed then 1 else 0 := by
  obtain ⟨bound, rfl⟩ := List.getElem?_eq_some_iff.mp found
  have counted : (if p entries[index] then 1 else 0) ≤ entries.countP p := by
    split
    · exact List.countP_pos_iff.mpr ⟨_, List.getElem_mem bound, ‹_›⟩
    · exact Nat.zero_le _
  rw [List.countP_set bound]
  omega

section Replaced
variable {changed : α}

theorem countP_set_le (found : entries[index]? = some old) (less : p changed = true → p old = true) :
    (entries.set index changed).countP p ≤ entries.countP p := by
  have replaced := countP_replace found changed p
  by_cases counted : p changed = true
  · rw [if_pos counted, if_pos (less counted)] at replaced
    omega
  · rw [if_neg counted] at replaced
    omega

theorem countP_set_lt (found : entries[index]? = some old) (counted : p old = true) (gone : p changed = false) :
    (entries.set index changed).countP p < entries.countP p := by
  have replaced := countP_replace found changed p
  rw [if_pos counted, if_neg (ne_true_of_eq_false gone)] at replaced
  omega

theorem countP_set_ge (found : entries[index]? = some old) (uncounted : p old = false) :
    entries.countP p ≤ (entries.set index changed).countP p := by
  have replaced := countP_replace found changed p
  rw [if_neg (ne_true_of_eq_false uncounted)] at replaced
  omega

end Replaced

/-- One entry of a list is taken out. -/
theorem countP_eraseIdx (found : entries[index]? = some old) (p : α → Bool) :
    entries.countP p = [old].countP p + (entries.eraseIdx index).countP p := by
  obtain ⟨bound, rfl⟩ := List.getElem?_eq_some_iff.mp found
  rw [← List.countP_append]
  exact ((List.getElem_cons_eraseIdx_perm bound).countP_eq _).symm

/-- A test whose entries one of two others accepts. -/
theorem countP_le_add {q r : α → Bool}
    (covered : ∀ entry ∈ entries, p entry = true → q entry = true ∨ r entry = true) :
    entries.countP p ≤ entries.countP q + entries.countP r := by
  induction entries with
  | nil => exact Nat.zero_le _
  | cons entry rest ih =>
    have later := ih fun other member => covered other (List.mem_cons_of_mem _ member)
    have first := covered entry List.mem_cons_self
    simp only [List.countP_cons]
    by_cases counted : p entry = true
    · rcases first counted with left | right
      · rw [if_pos counted, if_pos left]
        omega
      · rw [if_pos counted, if_pos right]
        omega
    · rw [if_neg counted]
      omega

end Livezure.Core
