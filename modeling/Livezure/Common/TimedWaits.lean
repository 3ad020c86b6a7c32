import Livezure.Core.Signed
import Livezure.Rpc.QueueWaits
import Livezure.Rpc.RequestWaits

/-! The deadlines that the timed waits compute, in the arithmetic of C. -/
namespace Livezure.Common
open Livezure.Core Rpc

/-- `struct timeval` from `gettimeofday`, where `long` and `time_t` have so many bits. -/
structure Timeval (long : Nat) where
  sec : Int
  usec : Int
  since : 0 ≤ sec ∧ Fits long sec
  phase : 0 ≤ usec ∧ usec < 10 ^ 6

/-- `struct timespec`. -/
structure Deadline where
  sec : Int
  nsec : Int
  deriving DecidableEq

namespace Deadline

def Valid (deadline : Deadline) : Prop := 0 ≤ deadline.nsec ∧ deadline.nsec < 10 ^ 9

def nanos (deadline : Deadline) : Int := deadline.sec * 10 ^ 9 + deadline.nsec

/-- What `pthread_cond_timedwait` may return at a time in nanoseconds. -/
def MayReturn (deadline : Deadline) (clock : Int) : WaitStatus → Prop
  -- EINVAL
  | .failed => ¬deadline.Valid
  | .woken => deadline.Valid
  | .timedOut => deadline.Valid ∧ deadline.nanos ≤ clock

end Deadline

section Waits
variable {long : Nat}

namespace Timeval

def nanos (now : Timeval long) : Int := now.sec * 10 ^ 9 + now.usec * 1000

def micros (now : Timeval long) : Nat := now.sec.toNat * 10 ^ 6 + now.usec.toNat

/-- `ts`, none where an operation overflows. -/
def deadlineAfter (now : Timeval long) (milliseconds : Int) : Option Deadline := do
  let micros ← signed long (now.usec * 1000)
  let rest ← signed 32 (milliseconds.tmod 1000 * 1000000)
  let nsec ← signed long (micros + rest)
  let sec ← signed long (now.sec + milliseconds.tdiv 1000)
  return ⟨sec, nsec⟩

end Timeval

/-- How a call waits where it has to. -/
inductive Waiting where
  | returns
  | forever
  | till (ts : Option Deadline)

def rpcQueueGetWaiting (now : Timeval long) (timeout : Int) : Waiting :=
  if 0 < timeout then .till (now.deadlineAfter timeout)
  else if timeout = 0 then .returns
  else .forever

def rpcRequestWaitWaiting (now : Timeval long) (timeout : Int) : Waiting :=
  if 0 ≤ timeout then .till (now.deadlineAfter timeout) else .forever

def timerTickWaiting (now : Timeval long) (millisesecond : Int) : Waiting :=
  .till (now.deadlineAfter millisesecond)

/-- A wait with a deadline has a valid one, so long from now as asked for: it does not fail, and
does not time out before. -/
def WaitsFor (now : Timeval long) (timeout : Int) (waiting : Waiting) : Prop :=
  ∀ ts, waiting = .till ts → ∃ deadline, ts = some deadline ∧ deadline.Valid ∧
    deadline.nanos = now.nanos + timeout * 10 ^ 6 ∧
    ∀ clock status, deadline.MayReturn clock status →
      status ≠ .failed ∧ (status = .timedOut → now.nanos + timeout * 10 ^ 6 ≤ clock)

/-- The two parts of a second come to less than one, and the deadline to no overflow. -/
def InPhase (now : Timeval long) (timeout : Int) : Prop :=
  now.usec + timeout % 1000 * 1000 < 10 ^ 6 ∧ Fits long (now.sec + timeout / 1000)

/-! ### The deadline -/

variable {now : Timeval long} {timeout : Int}

/-- Of the operations only the sum of the seconds may overflow. -/
theorem deadlineAfter_eq (wide : 32 ≤ long) (positive : 0 ≤ timeout) :
    now.deadlineAfter timeout = (signed long (now.sec + timeout / 1000)).map fun sec =>
      ⟨sec, now.usec * 1000 + timeout % 1000 * 1000000⟩ := by
  have phase := now.phase
  have micros : Fits 32 (now.usec * 1000) := by
    constructor <;> omega
  have rest : Fits 32 (timeout % 1000 * 1000000) := by
    constructor <;> omega
  have nsec : Fits 32 (now.usec * 1000 + timeout % 1000 * 1000000) := by
    constructor <;> omega
  rw [Timeval.deadlineAfter, Int.tmod_eq_emod_of_nonneg positive,
    Int.tdiv_eq_ediv_of_nonneg positive, signed_of_fits (micros.wider wide), signed_of_fits rest]
  dsimp only [bind, Option.bind]
  rw [signed_of_fits (nsec.wider wide)]
  cases signed long (now.sec + timeout / 1000) <;> rfl

theorem deadlineAfter_nanos (now : Timeval long) (timeout : Int) :
    (Deadline.mk (now.sec + timeout / 1000) (now.usec * 1000 + timeout % 1000 * 1000000)).nanos =
      now.nanos + timeout * 10 ^ 6 := by
  rw [Deadline.nanos, Timeval.nanos]
  dsimp only
  omega

/-- Where it does not overflow, it is the deadline of the calls and their runs. -/
theorem deadlineAfter_afterMillis {deadline : Deadline} (wide : 32 ≤ long) (positive : 0 ≤ timeout)
    (computed : now.deadlineAfter timeout = some deadline) :
    deadline.sec = (Timespec.afterMillis now.micros timeout.toNat).sec ∧
      deadline.nsec = (Timespec.afterMillis now.micros timeout.toNat).nsec := by
  have phase := now.phase
  have since := now.since.1
  rw [deadlineAfter_eq wide positive] at computed
  obtain ⟨sec, added, rfl⟩ := Option.map_eq_some_iff.mp computed
  obtain ⟨_, rfl⟩ := signed_eq_some.mp added
  simp only [Timespec.afterMillis, Timeval.micros]
  constructor
  · omega
  · omega

theorem rpcQueueGetWaiting_deadline {deadline : Deadline} (wide : 32 ≤ long)
    (waits : rpcQueueGetWaiting now timeout = .till (some deadline)) (isSender : Bool) :
    ∃ ts ∈ (QueueGet.mk timeout now.micros isSender).deadline,
      deadline.sec = ts.sec ∧ deadline.nsec = ts.nsec := by
  rw [rpcQueueGetWaiting] at waits
  split at waits
  · rename_i positive
    refine ⟨_, if_pos positive, ?_⟩
    exact deadlineAfter_afterMillis wide (le_of_lt positive) (Waiting.till.inj waits)
  · split at waits <;> cases waits

theorem rpcRequestWaitWaiting_deadline {deadline : Deadline} (wide : 32 ≤ long)
    (waits : rpcRequestWaitWaiting now timeout = .till (some deadline)) (wasStored : Bool)
    (signalled : Bool) (phase : WaitPhase) :
    ∃ ts ∈ (WaitCall.mk timeout now.micros wasStored signalled phase).deadline,
      deadline.sec = ts.sec ∧ deadline.nsec = ts.nsec := by
  rw [rpcRequestWaitWaiting] at waits
  split at waits
  · rename_i positive
    refine ⟨_, if_pos positive, ?_⟩
    exact deadlineAfter_afterMillis wide positive (Waiting.till.inj waits)
  · cases waits

private theorem waitsFor_till (wide : 32 ≤ long) (positive : 0 ≤ timeout) :
    WaitsFor now timeout (.till (now.deadlineAfter timeout)) ↔ InPhase now timeout := by
  have phase := now.phase
  rw [deadlineAfter_eq wide positive]
  constructor
  · intro waits
    obtain ⟨deadline, some_, valid, _⟩ := waits _ rfl
    obtain ⟨sec, added, rfl⟩ := Option.map_eq_some_iff.mp some_
    obtain ⟨fits, rfl⟩ := signed_eq_some.mp added
    refine ⟨?_, fits⟩
    have below := valid.2
    dsimp only at below
    omega
  · rintro ⟨below, fits⟩ ts same
    rw [signed_of_fits fits] at same
    obtain rfl := Waiting.till.inj same
    have valid : (Deadline.mk (now.sec + timeout / 1000)
        (now.usec * 1000 + timeout % 1000 * 1000000)).Valid := by
      constructor
      · dsimp only
        omega
      · dsimp only
        omega
    have nanos := deadlineAfter_nanos now timeout
    refine ⟨_, rfl, valid, nanos, fun clock status may => ?_⟩
    cases status with
    | woken => exact ⟨nofun, nofun⟩
    | timedOut => exact ⟨nofun, fun _ => nanos ▸ may.2⟩
    | failed => exact absurd valid may

/-- Each of the three waits is right exactly if the two parts of a second come to less than one;
`rpc_queue_get` does not wait for no time at all. -/
theorem waitsFor_iff (now : Timeval long) (timeout : Int) (wide : 32 ≤ long)
    (positive : 0 ≤ timeout) :
    (WaitsFor now timeout (rpcQueueGetWaiting now timeout) ↔
      timeout = 0 ∨ InPhase now timeout) ∧
    (WaitsFor now timeout (rpcRequestWaitWaiting now timeout) ↔ InPhase now timeout) ∧
    (WaitsFor now timeout (timerTickWaiting now timeout) ↔ InPhase now timeout) := by
  have till : WaitsFor now timeout (.till (now.deadlineAfter timeout)) ↔ InPhase now timeout :=
    waitsFor_till wide positive
  refine ⟨?_, ?_, till⟩
  · rw [rpcQueueGetWaiting]
    split
    · rename_i waits
      rw [till, or_iff_right (ne_of_gt waits)]
    · rename_i none_
      have zero : timeout = 0 := by omega
      rw [if_pos zero]
      exact iff_of_true (fun _ never => nomatch never) (.inl zero)
  · rw [rpcRequestWaitWaiting, if_pos positive]
    exact till

/-- The last microsecond of a second. -/
private def lastMicro : Timeval 64 where
  sec := 0
  usec := 999999
  since := by decide
  phase := by decide

/-- Two seconds leave the microseconds as they are. -/
theorem waitsFor_twoSeconds :
    WaitsFor lastMicro 2000 (rpcQueueGetWaiting lastMicro 2000) ∧
      WaitsFor lastMicro 2000 (rpcRequestWaitWaiting lastMicro 2000) ∧
      WaitsFor lastMicro 2000 (timerTickWaiting lastMicro 2000) := by
  have inPhase : InPhase lastMicro 2000 := ⟨by decide, by decide⟩
  obtain ⟨queue, request, tick⟩ := waitsFor_iff lastMicro 2000 (by decide) (by decide)
  exact ⟨queue.mpr (.inr inPhase), request.mpr inPhase, tick.mpr inPhase⟩

/-- A millisecond from there has a second in `tv_nsec`, and all three waits fail at once. -/
theorem not_waitsFor :
    lastMicro.deadlineAfter 1 = some ⟨0, 1000999000⟩ ∧
      (∀ clock status, (Deadline.mk 0 1000999000).MayReturn clock status → status = .failed) ∧
      ¬WaitsFor lastMicro 1 (rpcQueueGetWaiting lastMicro 1) ∧
      ¬WaitsFor lastMicro 1 (rpcRequestWaitWaiting lastMicro 1) ∧
      ¬WaitsFor lastMicro 1 (timerTickWaiting lastMicro 1) := by
  have invalid : ¬(Deadline.mk 0 1000999000).Valid := fun valid => absurd valid.2 (by decide)
  have computed : lastMicro.deadlineAfter 1 = some ⟨0, 1000999000⟩ := by decide
  have late : ¬WaitsFor lastMicro 1 (.till (lastMicro.deadlineAfter 1)) := by
    intro waits
    obtain ⟨deadline, same, valid, _⟩ := waits _ rfl
    rw [computed] at same
    exact invalid (Option.some.inj same ▸ valid)
  refine ⟨computed, fun clock status may => ?_, late, late, late⟩
  cases status with
  | woken => exact absurd may invalid
  | timedOut => exact absurd may.1 invalid
  | failed => rfl

end Waits
end Livezure.Common
