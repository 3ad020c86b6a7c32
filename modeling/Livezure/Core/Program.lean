import Livezure.Core.Memory
import Livezure.Core.Transition

/-! Programs that perform operations and go on with whatever these answer; the protocols that they
obey on every path, and threads of such programs that share one lock. -/
namespace Livezure.Core
variable {Op : Type} {Answer : Op → Type} {State Result Later : Type}

/-- A tree of operations, with a branch for each answer. -/
inductive Program (Answer : Op → Type) (Result : Type) where
  | done (result : Result)
  | perform (op : Op) (next : Answer op → Program Answer Result)
  /-- Undefined behaviour; nothing is known from there on. -/
  | stop (fault : Fault)

namespace Program

protected def bind (program : Program Answer Result) (next : Result → Program Answer Later) :
    Program Answer Later :=
  match program with
  | .done result => next result
  | .perform op rest => .perform op fun answer => (rest answer).bind next
  | .stop fault => .stop fault

instance : Monad (Program Answer) where
  pure := .done
  bind := Program.bind

/-- One operation. -/
def one (op : Op) : Program Answer (Answer op) := .perform op .done

def ofExcept : Except Fault Result → Program Answer Result
  | .ok result => .done result
  | .error fault => .stop fault

/-- Run with an answer for each operation. -/
def run (answers : (op : Op) → Answer op) : Program Answer Result → Except Fault Result
  | .done result => .ok result
  | .perform op next => (next (answers op)).run answers
  | .stop fault => .error fault

section Run
variable {answers : (op : Op) → Answer op}

theorem run_ofExcept (computed : Except Fault Result) :
    (ofExcept computed : Program Answer Result).run answers = computed := by
  cases computed <;> rfl

theorem run_bind (program : Program Answer Result) (next : Result → Program Answer Later) :
    (program >>= next).run answers =
      program.run answers >>= fun result => (next result).run answers := by
  induction program with
  | done result => rfl
  | perform op rest ih => exact ih (answers op)
  | stop fault => rfl

theorem run_bind_ok {program : Program Answer Result} {result : Result}
    (first : program.run answers = .ok result) (next : Result → Program Answer Later) :
    (program >>= next).run answers = (next result).run answers := by
  rw [run_bind, first]
  rfl

end Run

/-- A path: what is performed and answered, and what is left of the program. -/
inductive Goes : Program Answer Result → List ((op : Op) × Answer op) → Program Answer Result → Prop
    where
  | start {program : Program Answer Result} : Goes program [] program
  | step {op : Op} {next : Answer op → Program Answer Result} {answer : Answer op}
      {trace : List ((op : Op) × Answer op)} {rest : Program Answer Result} :
      Goes (next answer) trace rest → Goes (.perform op next) (⟨op, answer⟩ :: trace) rest

end Program

/-! ### Protocols -/

/-- Where an operation with its answer leads to; none where it must not be performed. -/
abbrev Protocol (Answer : Op → Type) (State : Type) :=
  State → (op : Op) → Answer op → Option State

namespace Protocol
variable (protocol : Protocol Answer State)

/-- The state after a trace, if the protocol admits it. -/
def track : State → List ((op : Op) × Answer op) → Option State
  | state, [] => some state
  | state, ⟨op, answer⟩ :: trace => (protocol state op answer).bind (track · trace)

/-- On no path is an operation performed that the protocol does not admit, and what is returned
meets a condition. -/
def Obeys : State → Program Answer Result → (State → Result → Prop) → Prop
  | state, .done result, post => post state result
  | state, .perform op next, post =>
    ∀ answer, ∃ after, protocol state op answer = some after ∧ Obeys after (next answer) post
  | _, .stop _, _ => True

variable {protocol} {state : State} {post : State → Result → Prop}

theorem Obeys.bind {program : Program Answer Result} {next : Result → Program Answer Later}
    {last : State → Later → Prop} (first : protocol.Obeys state program post)
    (later : ∀ after result, post after result → protocol.Obeys after (next result) last) :
    protocol.Obeys state (program >>= next) last := by
  induction program generalizing state with
  | done result => exact later state result first
  | perform op rest ih =>
    intro answer
    obtain ⟨after, admitted, goes⟩ := first answer
    exact ⟨after, admitted, ih answer goes⟩
  | stop fault => trivial

theorem obeys_one {op : Op} {post : State → Answer op → Prop}
    (admits : ∀ answer, ∃ after, protocol state op answer = some after ∧ post after answer) :
    protocol.Obeys state (Program.one op) post := admits

theorem obeys_one_bind {op : Op} {next : Answer op → Program Answer Result}
    (admits : ∀ answer, ∃ after, protocol state op answer = some after ∧
      protocol.Obeys after (next answer) post) :
    protocol.Obeys state (Program.one op >>= next) post :=
  Obeys.bind (obeys_one admits) fun _ _ later => later

theorem obeys_ofExcept {result : Except Fault Result}
    (holds : ∀ value, result = .ok value → post state value) :
    protocol.Obeys state (Program.ofExcept result) post := by
  cases result with
  | ok value => exact holds value rfl
  | error fault => trivial

/-- What is obeyed on all paths is obeyed on each. -/
theorem Obeys.goes {program rest : Program Answer Result} {trace : List ((op : Op) × Answer op)}
    (obeys : protocol.Obeys state program post) (goes : program.Goes trace rest) :
    ∃ after, protocol.track state trace = some after ∧ protocol.Obeys after rest post := by
  induction goes generalizing state with
  | start => exact ⟨state, rfl, obeys⟩
  | @step op next answer trace rest _ ih =>
    obtain ⟨middle, admitted, later⟩ := obeys answer
    obtain ⟨after, tracked, last⟩ := ih later
    refine ⟨after, ?_, last⟩
    rw [track, admitted]
    exact tracked

theorem obeys_done {result : Result} :
    protocol.Obeys state (.done result) post ↔ post state result := Iff.rfl

theorem obeys_perform {op : Op} {next : Answer op → Program Answer Result} :
    protocol.Obeys state (.perform op next) post ↔ ∀ answer, ∃ after,
      protocol state op answer = some after ∧ protocol.Obeys after (next answer) post := Iff.rfl

theorem obeys_stop {fault : Fault} : protocol.Obeys state (.stop fault) post := trivial

theorem obeys_pure {result : Result} (holds : post state result) :
    protocol.Obeys state (pure result) post := holds

-- programs are not run to see whether they obey
attribute [irreducible] Obeys

end Protocol

/-! ### A lock -/

/-- What an operation does to the lock. -/
inductive LockUse where
  | acquire
  | release
  | other
  deriving DecidableEq

/-- No path asks for the lock that it holds, or releases one that it does not hold, and what is
returned leaves it free. -/
def Program.Balanced (use : Op → LockUse) : Bool → Program Answer Result → Prop
  | held, .done _ => held = false
  | held, .perform op next =>
    match use op with
    | .acquire => held = false ∧ ∀ answer, (next answer).Balanced use true
    | .release => held = true ∧ ∀ answer, (next answer).Balanced use false
    | .other => ∀ answer, (next answer).Balanced use held
  | _, .stop _ => True

/-- On every path the lock is given back. -/
inductive Program.Releases (use : Op → LockUse) : Program Answer Result → Prop where
  | release {op : Op} {next : Answer op → Program Answer Result} :
      use op = .release → Releases use (.perform op next)
  | other {op : Op} {next : Answer op → Program Answer Result} :
      use op = .other → (∀ answer, Releases use (next answer)) → Releases use (.perform op next)
  | stop {fault : Fault} : Releases use (.stop fault)

theorem Program.Balanced.releases {use : Op → LockUse} {program : Program Answer Result}
    (balanced : program.Balanced use true) : program.Releases use := by
  induction program with
  | done result => cases balanced
  | perform op next ih =>
    unfold Program.Balanced at balanced
    cases used : use op with
    | acquire =>
      rw [used] at balanced
      cases balanced.1
    | release => exact .release used
    | other =>
      rw [used] at balanced
      exact .other used fun answer => ih answer (balanced answer)
  | stop fault => exact .stop

/-- What a trace does to the lock. -/
def lockUses (use : Op → LockUse) (trace : List ((op : Op) × Answer op)) : List LockUse :=
  (trace.map fun step => use step.1).filter fun used => decide (used ≠ .other)

/-- Taken and given back so many times in turn, and taken once more if it is held. -/
def inTurn (times : Nat) (held : Bool) : List LockUse :=
  (List.replicate times [.acquire, .release]).flatten ++ if held then [.acquire] else []

theorem inTurn_succ (times : Nat) (held : Bool) :
    inTurn (times + 1) held = .acquire :: .release :: inTurn times held := rfl

/-- On each path the lock is taken and given back in turn. -/
theorem Program.Balanced.inTurn {use : Op → LockUse} {held : Bool}
    {program rest : Program Answer Result} {trace : List ((op : Op) × Answer op)}
    (balanced : program.Balanced use held) (goes : program.Goes trace rest) :
    ∃ times after, inTurn 0 held ++ lockUses use trace = inTurn times after ∧
      rest.Balanced use after := by
  induction goes generalizing held with
  | start => exact ⟨0, held, List.append_nil _, balanced⟩
  | @step op next answer trace rest _ ih =>
    unfold Program.Balanced at balanced
    cases used : use op with
    | acquire =>
      rw [used] at balanced
      obtain ⟨rfl, balanced⟩ := balanced
      obtain ⟨times, after, turns, later⟩ := ih (balanced answer)
      refine ⟨times, after, ?_, later⟩
      rw [← turns, lockUses, List.map_cons, used]
      rfl
    | release =>
      rw [used] at balanced
      obtain ⟨rfl, balanced⟩ := balanced
      obtain ⟨times, after, turns, later⟩ := ih (balanced answer)
      refine ⟨times + 1, after, ?_, later⟩
      rw [inTurn_succ, ← turns, lockUses, List.map_cons, used]
      rfl
    | other =>
      rw [used] at balanced
      obtain ⟨times, after, turns, later⟩ := ih (balanced answer)
      refine ⟨times, after, ?_, later⟩
      rw [← turns, lockUses, List.map_cons, used]
      rfl

/-- A protocol in whose states it can be seen whether the lock is held. -/
structure Protocol.Locks (protocol : Protocol Answer State) (use : Op → LockUse)
    (held : State → Bool) : Prop where
  acquire : ∀ state op answer after, protocol state op answer = some after → use op = .acquire →
    held state = false ∧ held after = true
  release : ∀ state op answer after, protocol state op answer = some after → use op = .release →
    held state = true ∧ held after = false
  other : ∀ state op answer after, protocol state op answer = some after → use op = .other →
    held after = held state

theorem Protocol.Locks.balanced {protocol : Protocol Answer State} {use : Op → LockUse}
    {held : State → Bool} (locks : protocol.Locks use held) (inhabited : ∀ op, Nonempty (Answer op))
    {state : State} {program : Program Answer Result} {post : State → Result → Prop}
    (obeys : protocol.Obeys state program post)
    (free : ∀ state result, post state result → held state = false) :
    program.Balanced use (held state) := by
  induction program generalizing state with
  | done result => exact free state result (Protocol.obeys_done.mp obeys)
  | perform op next ih =>
    replace obeys := Protocol.obeys_perform.mp obeys
    unfold Program.Balanced
    cases used : use op with
    | acquire =>
      obtain ⟨after, admitted, _⟩ := obeys (inhabited op).some
      refine ⟨(locks.acquire state op _ after admitted used).1, fun answer => ?_⟩
      obtain ⟨after, admitted, later⟩ := obeys answer
      rw [← (locks.acquire state op answer after admitted used).2]
      exact ih answer later
    | release =>
      obtain ⟨after, admitted, _⟩ := obeys (inhabited op).some
      refine ⟨(locks.release state op _ after admitted used).1, fun answer => ?_⟩
      obtain ⟨after, admitted, later⟩ := obeys answer
      rw [← (locks.release state op answer after admitted used).2]
      exact ih answer later
    | other =>
      intro answer
      obtain ⟨after, admitted, later⟩ := obeys answer
      rw [← locks.other state op answer after admitted used]
      exact ih answer later
  | stop fault => trivial

/-! ### Threads -/

/-- What is left to do for each thread, and which of them has the lock. -/
structure Threads (Answer : Op → Type) (Result : Type) where
  programs : List (Program Answer Result)
  holder : Option Nat

namespace Threads

/-- A thread takes its next step, with an answer for whatever it performs. -/
structure Action (Answer : Op → Type) where
  thread : Nat
  answers : (op : Op) → Answer op

def next (use : Op → LockUse) (threads : Threads Answer Result) (action : Action Answer) :
    Option (Threads Answer Result) :=
  match threads.programs[action.thread]? with
  | some (.perform op rest) =>
    let programs := threads.programs.set action.thread (rest (action.answers op))
    match use op with
    | .acquire => if threads.holder = none then some ⟨programs, some action.thread⟩ else none
    | .release => some ⟨programs, none⟩
    | .other => some ⟨programs, threads.holder⟩
  | _ => none

/-- Threads with programs of a kind. -/
def system (use : Op → LockUse) (Known : Program Answer Result → Prop) :
    System (Threads Answer Result) (Action Answer) where
  Start threads := threads.holder = none ∧ ∀ program ∈ threads.programs, Known program
  next := next use

/-- A thread asks for the lock while one has it. -/
def Waits (use : Op → LockUse) (threads : Threads Answer Result) (thread : Nat) : Prop :=
  threads.holder ≠ none ∧
    ∃ op rest, threads.programs[thread]? = some (.perform op rest) ∧ use op = .acquire

/-- Whoever waits for the lock waits for another thread, which gives it back on every path. -/
def Live (use : Op → LockUse) (threads : Threads Answer Result) : Prop :=
  ∀ thread, threads.Waits use thread → ∃ holder program, threads.holder = some holder ∧
    holder ≠ thread ∧ threads.programs[holder]? = some program ∧ program.Releases use

/-- A thread has something left to do, and no thread can do anything, although none is stuck in
undefined behaviour. -/
structure Deadlocked (use : Op → LockUse) (threads : Threads Answer Result) : Prop where
  unfinished : ∃ op rest, .perform op rest ∈ threads.programs
  sound : ∀ fault, .stop fault ∉ threads.programs
  stuck : ∀ action, next use threads action = none

/-- The lock is with the thread that has it. -/
structure Holds (use : Op → LockUse) (threads : Threads Answer Result) : Prop where
  balanced : ∀ (thread : Nat) program, threads.programs[thread]? = some program →
    program.Balanced use (decide (threads.holder = some thread))
  holder : ∀ thread, threads.holder = some thread → thread < threads.programs.length

variable {use : Op → LockUse} {Known : Program Answer Result → Prop}
  {threads after : Threads Answer Result} {action : Action Answer}

theorem Holds.start (balanced : ∀ program, Known program → program.Balanced use false)
    (start : (system use Known).Start threads) : threads.Holds use where
  balanced thread program listed := by
    rw [start.1]
    exact balanced program (start.2 program (List.mem_of_getElem? listed))
  holder thread same := by
    rw [start.1] at same
    cases same

/-- A thread that has taken a step, beside threads that have not. -/
theorem Holds.set (holds : threads.Holds use) {thread : Nat} {old program : Program Answer Result}
    {holder : Option Nat} (listed : threads.programs[thread]? = some old)
    (own : program.Balanced use (decide (holder = some thread)))
    (others : ∀ other, other ≠ thread → (holder = some other ↔ threads.holder = some other)) :
    (⟨threads.programs.set thread program, holder⟩ : Threads Answer Result).Holds use := by
  have inside : thread < threads.programs.length := (List.getElem?_eq_some_iff.mp listed).1
  refine ⟨fun other found at_ => ?_, fun other same => ?_⟩
  · change (threads.programs.set thread program)[other]? = some found at at_
    change found.Balanced use (decide (holder = some other))
    by_cases same : other = thread
    · subst same
      rw [List.getElem?_set_self inside] at at_
      obtain rfl := Option.some.inj at_
      exact own
    · rw [List.getElem?_set_ne fun equal => same equal.symm] at at_
      rw [decide_eq_decide.mpr (others other same)]
      exact holds.balanced other found at_
  · rw [List.length_set]
    by_cases equal : other = thread
    · rw [equal]
      exact inside
    · exact holds.holder other ((others other equal).mp same)

theorem Holds.next (holds : threads.Holds use) (step : next use threads action = some after) :
    after.Holds use := by
  obtain ⟨thread, answers⟩ := action
  unfold Threads.next at step
  dsimp only at step
  split at step
  · rename_i op rest listed
    have own := holds.balanced thread _ listed
    unfold Program.Balanced at own
    cases used : use op with
    | acquire =>
      rw [used] at own step
      dsimp only at own step
      split at step
      · rename_i free
        obtain rfl := Option.some.inj step
        refine holds.set listed ?_ fun other differs => ?_
        · rw [decide_eq_true rfl]
          exact own.2 _
        · rw [free]
          exact iff_of_false (fun same => differs (Option.some.inj same).symm) nofun
      · cases step
    | release =>
      rw [used] at own step
      dsimp only at own step
      obtain rfl := Option.some.inj step
      have mine : threads.holder = some thread := of_decide_eq_true own.1
      refine holds.set listed (own.2 _) fun other differs => ?_
      rw [mine]
      exact iff_of_false nofun fun same => differs (Option.some.inj same).symm
    | other =>
      rw [used] at own step
      dsimp only at own step
      obtain rfl := Option.some.inj step
      exact holds.set listed (own _) fun other _ => Iff.rfl
  · cases step

/-- The lock is with the thread that has it in every state that is reached. -/
theorem holds_of_reached (balanced : ∀ program, Known program → program.Balanced use false)
    (reached : (system use Known).Reachable System.Free threads) : threads.Holds use :=
  reached.invariant (Holds use) (fun _ start => .start balanced start)
    fun _ _ _ holds _ step => holds.next step

theorem Holds.program_of_holder (holds : threads.Holds use) {thread : Nat}
    (locked : threads.holder = some thread) :
    ∃ program, threads.programs[thread]? = some program ∧ program.Balanced use true := by
  have listed := List.getElem?_eq_getElem (holds.holder thread locked)
  have own := holds.balanced thread _ listed
  rw [locked, decide_eq_true rfl] at own
  exact ⟨_, listed, own⟩

/-- A program that has the lock does not ask for it. -/
theorem not_asking {op : Op} {rest : Answer op → Program Answer Result}
    (own : (Program.perform op rest).Balanced use true) : use op ≠ .acquire := by
  intro asks
  unfold Program.Balanced at own
  rw [asks] at own
  cases own.1

theorem Holds.live (holds : threads.Holds use) : threads.Live use := by
  rintro thread ⟨taken, op, rest, listed, asks⟩
  obtain ⟨holder, locked⟩ := Option.ne_none_iff_exists'.mp taken
  obtain ⟨program, there, own⟩ := holds.program_of_holder locked
  refine ⟨holder, program, locked, ?_, there, own.releases⟩
  rintro rfl
  rw [listed] at there
  obtain rfl := Option.some.inj there
  exact not_asking own asks

/-- A thread that does not have to wait goes on. -/
theorem next_of_free {thread : Nat} {op : Op} {rest : Answer op → Program Answer Result}
    (listed : threads.programs[thread]? = some (.perform op rest))
    (free : use op = .acquire → threads.holder = none) (answers : (op : Op) → Answer op) :
    next use threads ⟨thread, answers⟩ ≠ none := by
  unfold Threads.next
  rw [listed]
  dsimp only
  cases used : use op with
  | acquire =>
    dsimp only
    rw [if_pos (free used)]
    exact nofun
  | release => exact nofun
  | other => exact nofun

/-- The thread with the lock never waits for it, and if there is none, nobody has to. -/
theorem Holds.not_deadlocked (holds : threads.Holds use) (answers : (op : Op) → Answer op) :
    ¬threads.Deadlocked use := by
  rintro ⟨⟨op, rest, member⟩, sound, stuck⟩
  cases locked : threads.holder with
  | none =>
    obtain ⟨thread, listed⟩ := List.getElem?_of_mem member
    exact next_of_free listed (fun _ => locked) answers (stuck ⟨thread, answers⟩)
  | some thread =>
    obtain ⟨program, listed, own⟩ := holds.program_of_holder locked
    cases program with
    | done result => cases own
    | stop fault => exact sound fault (List.mem_of_getElem? listed)
    | perform op rest =>
      exact next_of_free listed (fun asks => absurd asks (not_asking own)) answers
        (stuck ⟨thread, answers⟩)

end Threads
end Livezure.Core
