import Livezure.Core.Memory

/-! A function that is called again and again and gives the next of some items each time. -/
namespace Livezure.Core

/-- So many of the items, one for each call, and nothing once they have run out. -/
def handedOut : List Item → Nat → List (Option Item)
  | _, 0 => []
  | [], count + 1 => none :: handedOut [] count
  | item :: rest, count + 1 => some item :: handedOut rest count

example : handedOut [7, 9] 4 = [some 7, some 9, none, none] := rfl

section Reader
variable {State Item : Type} (next : State → Except Fault (State × Option Item))

/-- What so many calls give, and the state after them. -/
def callTimes : Nat → State → Except Fault (State × List (Option Item))
  | 0, state => .ok (state, [])
  | count + 1, state => do
    let (after, answer) ← next state
    let (last, later) ← callTimes count after
    return (last, answer :: later)

variable {next} {reads : List Item → State → Prop}
  (item_step : ∀ item rest state, reads (item :: rest) state →
    ∃ after, next state = .ok (after, some item) ∧ reads rest after)
include item_step

/-- Where each call gives the item in front and the last state gives nothing for ever, the calls
hand the items out. -/
theorem callTimes_handedOut (stop : ∀ state, reads [] state → next state = .ok (state, none))
    (count : Nat) {items : List Item} {state : State} (start : reads items state) :
    ∃ after rest, callTimes next count state = .ok (after, handedOut items count) ∧
      reads rest after := by
  induction count generalizing items state with
  | zero => exact ⟨state, items, by cases items <;> rfl, start⟩
  | succ count ih =>
    cases items with
    | nil =>
      obtain ⟨after, rest, later, kept⟩ := ih start
      refine ⟨after, rest, ?_, kept⟩
      simp only [callTimes, stop state start, later, bind, Except.bind, pure, Except.pure, handedOut]
    | cons item items =>
      obtain ⟨middle, first, moved⟩ := item_step item items state start
      obtain ⟨after, rest, later, kept⟩ := ih moved
      refine ⟨after, rest, ?_, kept⟩
      simp only [callTimes, first, later, bind, Except.bind, pure, Except.pure, handedOut]

/-- Where the last state faults, one call more than there are items does. -/
theorem callTimes_fault {fault : Fault} (stop : ∀ state, reads [] state → next state = .error fault)
    {items : List Item} {state : State} (start : reads items state) :
    callTimes next (items.length + 1) state = .error fault := by
  induction items generalizing state with
  | nil => simp only [callTimes, stop state start, bind, Except.bind]
  | cons item items ih =>
    obtain ⟨middle, first, moved⟩ := item_step item items state start
    rw [List.length_cons, callTimes, first]
    simp only [bind, Except.bind, ih moved]

end Reader
end Livezure.Core
