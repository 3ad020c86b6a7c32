import Livezure.Core.Calls
import Livezure.Core.Counting
import Livezure.Core.Signed
import Livezure.Core.Transition

/-! The reference counter `pref_t` among any number of threads: `pref_get` and `pref_put` change
the count under the lock, and read what they return behind it. -/
namespace Livezure.Common
open Livezure.Core

inductive PrefCall where
  | get
  | put
  deriving DecidableEq

/-- What `pref_get` and `pref_put` do under the lock; the count is an `int`. -/
def prefLocked (refcount : Int) : PrefCall → Option Int
  | .get => signed 32 (refcount + 1)
  | .put => signed 32 (refcount - 1)

/-! ### One caller at a time -/

def prefInit : Int := 0

/-- The `int` wraps around. -/
def prefGet (refcount : Int) : Int := narrow 32 (refcount + 1)

def prefPut (refcount : Int) : Int := narrow 32 (refcount - 1)

def prefCount (refcount : Int) : Int := refcount

/-- `none` if it waits: a caller that is alone waits for ever. -/
def prefRelease (refcount : Int) : Option Unit := if refcount = 0 then some () else none

theorem prefGet_of_locked {refcount next : Int} (locked : prefLocked refcount .get = some next) :
    prefGet refcount = next := by
  obtain ⟨fits, rfl⟩ := signed_eq_some.mp locked
  exact narrow_of_fits fits (by decide)

theorem prefPut_of_locked {refcount next : Int} (locked : prefLocked refcount .put = some next) :
    prefPut refcount = next := by
  obtain ⟨fits, rfl⟩ := signed_eq_some.mp locked
  exact narrow_of_fits fits (by decide)

/-! ### Any number of threads -/

/-- A call that has given the lock back, and not read the count yet. -/
structure PrefPending where
  call : PrefCall
  /-- The count right after its own section. -/
  own : Int
  /-- The sections of other calls behind its own. -/
  gets : Nat
  puts : Nat
  deriving DecidableEq

structure PrefAnswer where
  call : PrefCall
  own : Int
  value : Int
  deriving DecidableEq

structure PrefRun where
  refcount : Int
  calls : List PrefPending
  answers : List PrefAnswer
  /-- How often a put has brought the count to 0. -/
  zeros : Nat
  overflowed : Bool
  deriving DecidableEq

inductive PrefAction where
  | locked (call : PrefCall)
  | returns (index : Nat)
  deriving DecidableEq

/-- Another call has the lock meanwhile. -/
def PrefPending.passed (pending : PrefPending) : PrefCall → PrefPending
  | .get => { pending with gets := pending.gets + 1 }
  | .put => { pending with puts := pending.puts + 1 }

namespace PrefRun

def new : PrefRun where
  refcount := 0
  calls := []
  answers := []
  zeros := 0
  overflowed := false

def locked (run : PrefRun) (call : PrefCall) : PrefRun :=
  match prefLocked run.refcount call with
  | none => { run with overflowed := true }
  | some refcount => { run with
      refcount
      calls := run.calls.map (·.passed call) ++ [⟨call, refcount, 0, 0⟩]
      zeros := if call = .put ∧ refcount = 0 then run.zeros + 1 else run.zeros }

/-- Each put belongs to a get before it. -/
def next (run : PrefRun) (action : PrefAction) : Option PrefRun :=
  if run.overflowed then none
  else
    match action with
    | .locked call =>
      if call = .put ∧ run.refcount ≤ 0 then none else some (run.locked call)
    | .returns index => run.calls[index]?.map fun pending =>
      { run with
        calls := run.calls.eraseIdx index
        answers := run.answers ++ [⟨pending.call, pending.own, run.refcount⟩] }

def system : System PrefRun PrefAction where
  Start run := run = new
  next := next

end PrefRun

/-- The call is, or will be if all is well, the one that takes the object away. -/
def PrefPending.last (pending : PrefPending) : Bool := pending.call = .put ∧ pending.own = 0

def PrefAnswer.last (answer : PrefAnswer) : Bool := answer.call = .put ∧ answer.value = 0

namespace PrefRun

/-- Each call has returned the count of its own section, and each time the count has come to 0
there is one put that has returned 0, or is about to. -/
structure Linear (run : PrefRun) : Prop where
  safe : run.overflowed = false
  own : ∀ answer ∈ run.answers, answer.value = answer.own
  last : run.zeros = run.answers.countP PrefAnswer.last + run.calls.countP PrefPending.last

/-- The count stays a value of `int`, and a call returns when behind its section as many gets as
puts have had the lock. -/
def Guard (run : PrefRun) : PrefAction → Prop
  | .locked call => (prefLocked run.refcount call).isSome
  | .returns index => ∀ pending ∈ run.calls[index]?, pending.gets = pending.puts

instance (run : PrefRun) (action : PrefAction) : Decidable (run.Guard action) := by
  unfold Guard
  split <;> infer_instance

/-! ### The runs -/

variable {run after : PrefRun}

/-- What holds whatever the calls return. -/
structure Holds (run : PrefRun) : Prop where
  count : ∀ pending ∈ run.calls, run.refcount = pending.own + pending.gets - pending.puts
  zeros : run.zeros = run.answers.countP (fun answer => answer.call = .put ∧ answer.own = 0) +
    run.calls.countP PrefPending.last

theorem Holds.linear_iff (holds : run.Holds) :
    run.Linear ↔ run.overflowed = false ∧ ∀ answer ∈ run.answers, answer.value = answer.own := by
  constructor
  · exact fun linear => ⟨linear.safe, linear.own⟩
  · rintro ⟨safe, own⟩
    refine ⟨safe, own, ?_⟩
    rw [holds.zeros, Nat.add_right_cancel_iff]
    apply List.countP_congr
    intro answer member
    rw [PrefAnswer.last, own answer member]

@[simp] theorem passed_last (pending : PrefPending) (call : PrefCall) :
    (pending.passed call).last = pending.last := by
  cases call <;> rfl

/-- What a section adds to the count, it adds to what each pending call has seen pass. -/
theorem passed_count {refcount next : Int} {call : PrefCall} (pending : PrefPending)
    (section_ : prefLocked refcount call = some next)
    (count : refcount = pending.own + pending.gets - pending.puts) :
    next = (pending.passed call).own + (pending.passed call).gets - (pending.passed call).puts := by
  cases call with
  | get =>
    obtain ⟨_, rfl⟩ := signed_eq_some.mp section_
    dsimp only [PrefPending.passed]
    omega
  | put =>
    obtain ⟨_, rfl⟩ := signed_eq_some.mp section_
    dsimp only [PrefPending.passed]
    omega

theorem Holds.locked (holds : run.Holds) (call : PrefCall) : (run.locked call).Holds := by
  unfold PrefRun.locked
  cases section_ : prefLocked run.refcount call with
  | none => exact ⟨holds.count, holds.zeros⟩
  | some refcount =>
    have same : (run.calls.map (·.passed call)).countP PrefPending.last =
        run.calls.countP PrefPending.last := by
      rw [List.countP_map]
      exact List.countP_congr fun pending _ => by simp
    constructor
    · intro pending member
      rcases List.mem_append.mp member with old | fresh
      · obtain ⟨before, listed, rfl⟩ := List.mem_map.mp old
        exact passed_count before section_ (holds.count before listed)
      · obtain rfl := List.mem_singleton.mp fresh
        simp
    · dsimp only
      rw [List.countP_append, same, List.countP_singleton, PrefPending.last, holds.zeros]
      split
      · rename_i zero
        rw [if_pos (decide_eq_true zero)]
        rfl
      · rename_i other
        rw [if_neg (by simpa using other)]
        rfl

theorem next_cases {action : PrefAction} (step : next run action = some after) :
    run.overflowed = false ∧
      ((∃ call, action = .locked call ∧ after = run.locked call) ∨
      ∃ index pending, action = .returns index ∧ run.calls[index]? = some pending ∧
        after = { run with
          calls := run.calls.eraseIdx index
          answers := run.answers ++ [⟨pending.call, pending.own, run.refcount⟩] }) := by
  unfold next at step
  split at step
  · cases step
  · rename_i safe
    refine ⟨Bool.eq_false_iff.mpr safe, ?_⟩
    cases action with
    | locked call =>
      dsimp only at step
      split at step
      · cases step
      · exact .inl ⟨call, rfl, (Option.some.inj step).symm⟩
    | returns index =>
      obtain ⟨pending, found, rfl⟩ := Option.map_eq_some_iff.mp step
      exact .inr ⟨index, pending, rfl, found, rfl⟩

theorem Holds.step {action : PrefAction} (holds : run.Holds) (step : next run action = some after) :
    after.Holds := by
  obtain ⟨_, ⟨call, rfl, rfl⟩ | ⟨index, pending, rfl, found, rfl⟩⟩ := next_cases step
  · exact holds.locked call
  · constructor
    · exact fun other member => holds.count other (List.mem_of_mem_eraseIdx member)
    · have apart := countP_eraseIdx found PrefPending.last
      have zeros := holds.zeros
      have last : [pending].countP PrefPending.last = [(⟨pending.call, pending.own, run.refcount⟩ :
          PrefAnswer)].countP fun answer => answer.call = .put ∧ answer.own = 0 := rfl
      dsimp only
      rw [List.countP_append]
      omega

/-- A call returns what it should exactly where gets and puts behind its section make up for each
other. -/
theorem Holds.linear_step {action : PrefAction} (holds : run.Holds) (linear : run.Linear)
    (step : next run action = some after) : after.Linear ↔ run.Guard action := by
  rw [(holds.step step).linear_iff]
  obtain ⟨safe, ⟨call, rfl, rfl⟩ | ⟨index, pending, rfl, found, rfl⟩⟩ := next_cases step
  · dsimp only [PrefRun.locked, Guard]
    cases prefLocked run.refcount call with
    | none => exact iff_of_false (fun both => nomatch both.1) nofun
    | some refcount => exact iff_of_true ⟨safe, linear.own⟩ rfl
  · have count := holds.count pending (List.mem_of_getElem? found)
    dsimp only [Guard]
    rw [found, and_iff_right safe, List.forall_mem_append, and_iff_right linear.own,
      List.forall_mem_singleton]
    constructor
    · rintro same _ ⟨⟩
      dsimp only at same
      omega
    · intro same
      have even := same pending rfl
      dsimp only
      omega

theorem Holds.linear_back {action : PrefAction} (holds : run.Holds)
    (step : next run action = some after) (linear : after.Linear) : run.Linear := by
  rw [holds.linear_iff]
  obtain ⟨safe, ⟨call, rfl, rfl⟩ | ⟨index, pending, rfl, found, rfl⟩⟩ := next_cases step
  · refine ⟨safe, ?_⟩
    have own := linear.own
    unfold PrefRun.locked at own
    split at own <;> exact own
  · exact ⟨safe, fun answer member => linear.own answer (List.mem_append_left _ member)⟩

/-- A run keeps the promise exactly where its steps meet the condition. -/
theorem linear_iff_guarded (actions : List PrefAction) (run : PrefRun)
    (done : system.run new actions = some run) :
    run.Linear ↔ system.Guarded Guard new actions := by
  have start : new.Holds := ⟨nofun, rfl⟩
  have linear : new.Linear := ⟨rfl, nofun, rfl⟩
  exact System.run_iff (fun _ _ _ holds step => holds.step step)
    (fun _ _ _ holds linear step => holds.linear_step linear step)
    (fun _ _ _ holds step late => holds.linear_back step late) start linear done

/-- Two threads take a reference and give it back, one behind the other. -/
private def turns : List PrefAction :=
  [.locked .get, .returns 0, .locked .get, .returns 0, .locked .put, .returns 0, .locked .put,
    .returns 0]

/-- All four have returned the count of their section. -/
private def turned : PrefRun where
  refcount := 0
  calls := []
  answers := [⟨.get, 1, 1⟩, ⟨.get, 2, 2⟩, ⟨.put, 1, 1⟩, ⟨.put, 0, 0⟩]
  zeros := 1
  overflowed := false

theorem linear_turned : turned.Linear :=
  (linear_iff_guarded turns turned (by decide)).mpr (by decide)

/-- Both threads have given the lock back before either reads the count. -/
private def bothLast : List PrefAction :=
  [.locked .get, .returns 0, .locked .get, .returns 0, .locked .put, .locked .put, .returns 0,
    .returns 0]

/-- A get has the lock before the last put reads the count. -/
private def noneLast : List PrefAction :=
  [.locked .get, .returns 0, .locked .put, .locked .get, .returns 0, .returns 0]

theorem not_linear :
    (∃ run, system.run new bothLast = some run ∧ run.zeros = 1 ∧
      run.answers.countP PrefAnswer.last = 2 ∧ ¬run.Linear) ∧
    ∃ run, system.run new noneLast = some run ∧ run.zeros = 1 ∧
      run.answers.countP PrefAnswer.last = 0 ∧ ¬run.Linear := by
  refine ⟨⟨_, rfl, rfl, rfl, fun linear => ?_⟩, ⟨_, rfl, rfl, rfl, fun linear => ?_⟩⟩
  · cases linear.last
  · cases linear.last

end PrefRun
end Livezure.Common
