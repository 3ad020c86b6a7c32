import Livezure.Core.Memory

/-! Blocks that are handed out and taken back: using one that is not out is a fault, and what is
still out at the end has leaked. -/
namespace Livezure.Core

structure Ledger where
  live : List Nat
  next : Nat
  older : ∀ block ∈ live, block < next

namespace Ledger

def empty : Ledger where
  live := []
  next := 0
  older := nofun

/-- `malloc` of the next block. -/
def take (ledger : Ledger) : Ledger where
  live := ledger.next :: ledger.live
  next := ledger.next + 1
  older := by
    intro block member
    rcases List.mem_cons.mp member with rfl | old
    · exact Nat.lt_succ_self _
    · exact Nat.lt_succ_of_lt (ledger.older block old)

/-- `free`. -/
def give (ledger : Ledger) (block : Nat) : Except Fault Ledger :=
  if block ∈ ledger.live then
    .ok
      { live := ledger.live.erase block
        next := ledger.next
        older := fun other left => ledger.older other (List.mem_of_mem_erase left) }
  else .error .useAfterFree

theorem give_ok (ledger : Ledger) {block : Nat} (member : block ∈ ledger.live) :
    ∃ after, ledger.give block = .ok after ∧ after.live = ledger.live.erase block := by
  rw [give, if_pos member]
  exact ⟨_, rfl, rfl⟩

/-- The block that was taken last is given back: what was out before is left. -/
theorem give_take (ledger : Ledger) :
    ∃ after, ledger.take.give ledger.next = .ok after ∧ after.live = ledger.live := by
  obtain ⟨after, given, left⟩ := ledger.take.give_ok List.mem_cons_self
  exact ⟨after, given, left.trans (List.erase_cons_head ..)⟩

/-- A block taken before is given back first, and then the last one. -/
theorem give_both {ledger : Ledger} {block : Nat} (member : block ∈ ledger.live) :
    ∃ middle after, ledger.take.give block = .ok middle ∧ middle.give ledger.next = .ok after ∧
      after.live = ledger.live.erase block := by
  have differ : (ledger.next == block) = false := beq_false_of_ne (ledger.older block member).ne'
  obtain ⟨middle, first, left⟩ := ledger.take.give_ok (List.mem_cons_of_mem _ member)
  have rest : middle.live = ledger.next :: ledger.live.erase block := by
    rw [left, take, List.erase_cons, differ]
    rfl
  obtain ⟨after, second, last⟩ := middle.give_ok (rest ▸ List.mem_cons_self)
  refine ⟨middle, after, first, second, ?_⟩
  rw [last, rest, List.erase_cons_head]

end Ledger
end Livezure.Core
