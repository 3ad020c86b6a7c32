import Mathlib.Logic.Basic

/-! Statements that are refused or done, and what is left of a sequence of them when one
is refused. -/
namespace Livezure.Core

/-- A statement gives whether it was done, and the state after it. -/
abbrev Attempt (State : Type) := State → Bool × State

namespace Attempt
variable {State : Type}

/-- A statement that was not done has left the state as it was. -/
def Kept (result : Bool × State) (before : State) : Prop :=
  result.1 = false → result.2 = before

/-- The statement is either refused, or done with a state that is another one. -/
def Refuses (statement : Attempt State) (before : State) (refused : Prop) : Prop :=
  refused ∧ statement before = (false, before) ∨
    ¬ refused ∧ ∃ after, after ≠ before ∧ statement before = (true, after)

/-- The second statement runs only if the first one is done. -/
def andThen (first second : Attempt State) : Attempt State := fun state =>
  match first state with
  | (false, state) => (false, state)
  | (true, state) => second state

section Refused
variable {statement : Attempt State} {before : State} {refused : Prop}

theorem Refuses.result_false (refuses : Refuses statement before refused) :
    (statement before).1 = false ↔ refused := by
  rcases refuses with ⟨yes, same⟩ | ⟨no, after, _, same⟩
  · rw [same]
    exact iff_of_true rfl yes
  · rw [same]
    exact iff_of_false Bool.true_eq_false.mp no

theorem Refuses.same_iff (refuses : Refuses statement before refused) :
    (statement before).2 = before ↔ refused := by
  rcases refuses with ⟨yes, same⟩ | ⟨no, after, changed, same⟩
  · rw [same]
    exact iff_of_true rfl yes
  · rw [same]
    exact iff_of_false changed no

theorem Refuses.kept (refuses : Refuses statement before refused) :
    Kept (statement before) before :=
  fun failed => refuses.same_iff.mpr (refuses.result_false.mp failed)

end Refused

/-- Of two statements the second has to be done whenever the first one is. -/
theorem andThen_kept_iff {first second : Attempt State} {before : State}
    {refusedFirst refusedSecond : Prop} (one : Refuses first before refusedFirst)
    (two : ∀ after, first before = (true, after) → Refuses second after refusedSecond) :
    Kept (andThen first second before) before ↔ ¬ refusedFirst → ¬ refusedSecond := by
  rcases one with ⟨yes, same⟩ | ⟨no, middle, changed, same⟩
  · simp only [andThen, same]
    exact iff_of_true (fun _ => rfl) fun absurdity => absurd yes absurdity
  · simp only [andThen, same]
    rcases two middle same with ⟨refused, left⟩ | ⟨done, after, _, left⟩
    · rw [left]
      exact iff_of_false (fun kept => changed (kept rfl)) fun both => both no refused
    · rw [left]
      exact iff_of_true (fun failed => nomatch failed) fun _ => done

end Attempt
end Livezure.Core
