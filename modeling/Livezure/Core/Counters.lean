import Mathlib.Data.Finset.Card
import Mathlib.Data.List.Nodup
import Mathlib.Data.Multiset.Count
import Mathlib.Data.Set.Card

/-! A list with a counter for each key in use, and the multiset of the uses that it counts. -/
namespace Livezure.Core

/-- The list has one entry for each member of the multiset, with its multiplicity. -/
structure Counted {Key : Type} [DecidableEq Key] (entries : List (Key × Int)) (uses : Multiset Key) :
    Prop where
  unique : (entries.map Prod.fst).Nodup
  listed : ∀ key, key ∈ entries.map Prod.fst ↔ key ∈ uses
  exact : ∀ entry ∈ entries, entry.2 = uses.count entry.1

namespace Counted
variable {Key : Type} [DecidableEq Key]

theorem nil : Counted ([] : List (Key × Int)) 0 where
  unique := .nil
  listed := by simp
  exact := nofun

variable {entries front back : List (Key × Int)} {uses : Multiset Key} {key : Key} {count : Int}

theorem add (counted : Counted entries uses) (absent : key ∉ entries.map Prod.fst) :
    Counted (entries ++ [(key, 1)]) (key ::ₘ uses) := by
  have unused : key ∉ uses := fun used => absent ((counted.listed key).mpr used)
  refine ⟨?_, fun other => ?_, fun entry member => ?_⟩
  · rw [List.map_append]
    apply List.Nodup.append counted.unique (List.nodup_singleton _)
    intro other old new
    rw [List.mem_singleton.mp new] at old
    exact absent old
  · rw [List.map_append, List.mem_append, counted.listed, Multiset.mem_cons, or_comm]
    simp
  · rcases List.mem_append.mp member with old | new
    · have differ : entry.1 ≠ key := fun same => absent (same ▸ List.mem_map_of_mem old)
      rw [Multiset.count_cons_of_ne differ]
      exact counted.exact entry old
    · rw [List.mem_singleton.mp new, Multiset.count_cons_self, Multiset.count_eq_zero_of_notMem unused]
      rfl

/-- An entry that is split off, with what is known of the others. -/
theorem split (counted : Counted (front ++ (key, count) :: back) uses) :
    count = uses.count key ∧ 0 < uses.count key ∧
      ∀ entry ∈ front ++ back, entry.1 ≠ key ∧ entry.2 = uses.count entry.1 := by
  have here : (key, count) ∈ front ++ (key, count) :: back := by simp
  have used := (counted.listed key).mp (List.mem_map_of_mem here)
  have unique := counted.unique
  rw [List.map_append, List.map_cons] at unique
  obtain ⟨apart, _⟩ := List.nodup_cons.mp (List.nodup_middle.mp unique)
  refine ⟨counted.exact _ here, Multiset.count_pos.mpr used, fun entry member => ⟨?_, ?_⟩⟩
  · intro same
    have inside := List.mem_map_of_mem (f := Prod.fst) member
    rw [same, List.map_append] at inside
    exact apart inside
  · apply counted.exact
    rcases List.mem_append.mp member with before | behind
    · exact List.mem_append_left _ before
    · exact List.mem_append_right _ (List.mem_cons_of_mem _ behind)

/-- The entry of one key gets another count, which is that of the new multiset. -/
theorem change (counted : Counted (front ++ (key, count) :: back) uses) {after : Multiset Key}
    (used : key ∈ after) (others : ∀ other ≠ key, after.count other = uses.count other) :
    Counted (front ++ (key, (after.count key : Int)) :: back) after := by
  obtain ⟨_, positive, rest⟩ := counted.split
  refine ⟨?_, fun other => ?_, fun entry member => ?_⟩
  · have unique := counted.unique
    rw [List.map_append, List.map_cons] at unique ⊢
    exact unique
  · have listed := counted.listed other
    rw [List.map_append, List.map_cons] at listed ⊢
    rw [listed]
    by_cases same : other = key
    · subst same
      exact iff_of_true (Multiset.count_pos.mp positive) used
    · rw [← Multiset.count_pos, ← Multiset.count_pos, others other same]
  · rcases List.mem_append.mp member with before | behind
    · obtain ⟨differ, exact⟩ := rest entry (List.mem_append_left _ before)
      rw [others _ differ]
      exact exact
    · rcases List.mem_cons.mp behind with rfl | behind
      · rfl
      · obtain ⟨differ, exact⟩ := rest entry (List.mem_append_right _ behind)
        rw [others _ differ]
        exact exact

/-- The last use of a key goes, and with it the entry. -/
theorem remove (counted : Counted (front ++ (key, count) :: back) uses) {after : Multiset Key}
    (unused : key ∉ after) (others : ∀ other ≠ key, after.count other = uses.count other) :
    Counted (front ++ back) after := by
  obtain ⟨_, _, rest⟩ := counted.split
  have unique := counted.unique
  rw [List.map_append, List.map_cons] at unique
  obtain ⟨apart, left⟩ := List.nodup_cons.mp (List.nodup_middle.mp unique)
  refine ⟨?_, fun other => ?_, fun entry member => ?_⟩
  · rw [List.map_append]
    exact left
  · have listed := counted.listed other
    rw [List.map_append, List.map_cons, List.mem_append, List.mem_cons] at listed
    rw [List.map_append, List.mem_append]
    by_cases same : other = key
    · subst same
      exact iff_of_false (fun either => apart (List.mem_append.mpr either)) unused
    · rw [← Multiset.count_pos, others other same, Multiset.count_pos, ← listed]
      simp [same]
  · obtain ⟨differ, exact⟩ := rest entry member
    rw [others _ differ]
    exact exact

/-- As many entries as there are keys in use. -/
theorem length (counted : Counted entries uses) :
    entries.length = {key : Key | 0 < uses.count key}.ncard := by
  have keys : {key : Key | 0 < uses.count key} = ((entries.map Prod.fst).toFinset : Set Key) := by
    ext key
    rw [Set.mem_ofPred_eq, Multiset.count_pos, ← counted.listed, List.coe_toFinset]
    rfl
  rw [keys, Set.ncard_coe_finset, List.toFinset_card_of_nodup counted.unique, List.length_map]

end Counted
end Livezure.Core
