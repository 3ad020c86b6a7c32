import Mathlib.Algebra.Order.Ring.Int
import Mathlib.Data.Nat.Notation

/-! Waits on a condition variable with an absolute deadline: what they may return, and when. -/
namespace Livezure.Core

inductive WaitStatus where
  /-- Signalled, or for no reason at all. -/
  | woken
  | timedOut
  /-- Any other error, such as the one for a deadline with a second or more in `nsec`. -/
  | failed
  deriving DecidableEq

/-- `struct timespec`. -/
structure Timespec where
  sec : Nat
  nsec : Nat
  deriving DecidableEq

namespace Timespec

def nanos (time : Timespec) : Nat := time.sec * 10 ^ 9 + time.nsec

/-- So many milliseconds after a time in microseconds, with both remainders in `nsec`. -/
def afterMillis (clock millis : Nat) : Timespec where
  sec := clock / 10 ^ 6 + millis / 1000
  nsec := clock % 10 ^ 6 * 1000 + millis % 1000 * 10 ^ 6

theorem afterMillis_nanos (clock millis : Nat) :
    (afterMillis clock millis).nanos = (clock + 1000 * millis) * 1000 := by
  simp only [afterMillis, nanos]
  omega

end Timespec

/-- A status that a wait may return at a time in microseconds. -/
def MayReturn (deadline : Option Timespec) (clock : Nat) : WaitStatus → Prop
  | .timedOut => ∃ time ∈ deadline, time.nanos ≤ clock * 1000
  | .woken | .failed => True

instance (deadline : Option Timespec) (clock : Nat) :
    (status : WaitStatus) → Decidable (MayReturn deadline clock status)
  | .timedOut => inferInstanceAs (Decidable (∃ time ∈ deadline, time.nanos ≤ clock * 1000))
  | .woken | .failed => .isTrue trivial

/-- Only waits with a deadline time out. -/
theorem not_mayReturn_timedOut (clock : Nat) : ¬MayReturn none clock .timedOut := by
  rintro ⟨_, member, _⟩
  cases member

theorem MayReturn.expired {start millis clock : Nat}
    (may : MayReturn (some (.afterMillis start millis)) clock .timedOut) :
    start + 1000 * millis ≤ clock := by
  obtain ⟨time, member, reached⟩ := may
  obtain rfl := Option.some.inj member
  rw [Timespec.afterMillis_nanos] at reached
  exact Nat.le_of_mul_le_mul_right reached (by decide)

end Livezure.Core
