import Mathlib.Algebra.Order.Ring.Int
import Mathlib.Algebra.BigOperators.Group.List.Basic
import Mathlib.Data.List.Perm.Basic

/-! Calls under way, as a list that calls join at its end, and what they hold together. -/
namespace Livezure.Core

section Calls
variable {Call : Type} {calls : List Call} {call : Call} {index : Nat} (held : Call → Nat)

/-- What all calls hold. -/
def heldBy (calls : List Call) : Nat := (calls.map held).sum

@[simp] theorem heldBy_append (calls more : List Call) :
    heldBy held (calls ++ more) = heldBy held calls + heldBy held more := by
  rw [heldBy, List.map_append, List.sum_append]
  rfl

@[simp] theorem heldBy_one (call : Call) : heldBy held [call] = held call := by
  simp [heldBy]

theorem heldBy_perm {more : List Call} (perm : calls.Perm more) :
    heldBy held calls = heldBy held more := (perm.map held).sum_eq

/-- A call apart from the others. -/
theorem heldBy_apart (found : calls[index]? = some call) :
    heldBy held calls = held call + heldBy held (calls.eraseIdx index) := by
  obtain ⟨bound, rfl⟩ := List.getElem?_eq_some_iff.mp found
  exact heldBy_perm held (List.getElem_cons_eraseIdx_perm bound).symm

theorem heldBy_set (found : calls[index]? = some call) (next : Call) :
    heldBy held (calls.set index next) = held next + heldBy held (calls.eraseIdx index) := by
  obtain ⟨bound, rfl⟩ := List.getElem?_eq_some_iff.mp found
  exact heldBy_perm held (List.set_perm_cons_eraseIdx bound next)

end Calls
end Livezure.Core
