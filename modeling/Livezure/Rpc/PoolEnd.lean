import Livezure.Rpc.PoolRuns

/-! That `rpc_tp_destroy` comes to its end: a rank that every step lowers which leads on. -/
namespace Livezure.Rpc
open Livezure.Core

/-- How many steps a thread may take before it looks at an empty queue. -/
def RoutinePhase.rank : RoutinePhase → Nat
  | .waiting | .exited => 0
  | .looking => 1
  | .released _ => 2
  | .completing _ => 3
  | .posted _ => 4
  | .complete _ => 5
  | .stored _ => 6
  | .returned _ _ => 7
  | .processing _ => 8
  | .busy _ => 9
  | .taken _ => 10

/-- The same for `rpc_tp_destroy`; its broadcast wakes every thread. -/
def DestroyPhase.rank (nthreads : Nat) : DestroyPhase → Nat
  | .uncalled | .polling => 2 * nthreads + 4
  | .aborting => 2 * nthreads + 3
  | .joining index => nthreads - index + 2
  | .draining => 1
  | .returned => 0

namespace RpcTp

def threadRank (threads : List RoutinePhase) : Nat := (threads.map RoutinePhase.rank).sum

def rank (pool : RpcTp) : Nat :=
  threadRank pool.thread + 10 * pool.workerQueue.length + pool.destroy.rank pool.thread.length

theorem threadRank_set {threads : List RoutinePhase} {index : Nat} {before : RoutinePhase}
    (found : threads[index]? = some before) (after : RoutinePhase) :
    threadRank (threads.set index after) + before.rank = threadRank threads + after.rank := by
  induction threads generalizing index with
  | nil => cases found
  | cons phase rest ih =>
    cases index with
    | zero =>
      obtain rfl := Option.some.inj found
      simp only [threadRank, List.set_cons_zero, List.map_cons, List.sum_cons]
      omega
    | succ index =>
      have later := ih found
      simp only [threadRank, List.set_cons_succ, List.map_cons, List.sum_cons] at later ⊢
      omega

theorem threadRank_broadcast (threads : List RoutinePhase) :
    threadRank (threads.map broadcast) ≤ threadRank threads + threads.length := by
  induction threads with
  | nil => exact Nat.le_refl _
  | cons phase rest ih =>
    have one : (broadcast phase).rank ≤ phase.rank + 1 := by
      unfold broadcast
      split
      · exact Nat.le_add_left _ _
      · exact Nat.le_succ _
    simp only [threadRank, List.map_cons, List.sum_cons, List.length_cons] at ih ⊢
    omega

/-- A step on the way to the end. -/
def Nearer (pool next : RpcTp) : Prop :=
  next.rank < pool.rank ∧ (pool.destroy ≠ .uncalled → next.destroy ≠ .uncalled)

private theorem nearer_goto {pool next : RpcTp} {index : Nat} {before after : RoutinePhase}
    (found : pool.thread[index]? = some before) (moved : next.thread = pool.thread.set index after)
    (queue : next.workerQueue = pool.workerQueue) (destroy : next.destroy = pool.destroy)
    (lower : after.rank < before.rank) : pool.Nearer next := by
  have set := threadRank_set found after
  constructor
  · rw [rank, rank, moved, queue, destroy, List.length_set]
    omega
  · rw [destroy]
    exact id

private theorem nearer_written {pool next : RpcTp} {index worker : Nat} {before after : RoutinePhase}
    {f : RpcTpWorker → RpcTpWorker} (found : pool.thread[index]? = some before)
    (lower : after.rank < before.rank)
    (stepped : (do
      let pool ← pool.write worker f
      return pool.goto index after) = .ok next) : pool.Nearer next := by
  obtain ⟨middle, written, done⟩ := bind_ok stepped
  obtain ⟨cell, _, wrote⟩ := bind_ok written
  obtain rfl := Except.ok.inj wrote
  obtain rfl := Except.ok.inj done
  exact nearer_goto found rfl rfl rfl lower

private theorem nearer_look {pool next : RpcTp} {index : Nat} (found : pool.thread[index]? = some .looking)
    (stepped : pool.rpcTpRoutineLook index = .ok next) : pool.Nearer next := by
  unfold rpcTpRoutineLook at stepped
  split at stepped
  · cases stepped
  · split at stepped
    · obtain rfl := Except.ok.inj stepped
      refine nearer_goto found rfl rfl rfl ?_
      split <;> exact Nat.lt_succ_self 0
    · rename_i worker rest queue
      obtain ⟨_, _, stepped⟩ := bind_ok stepped
      obtain ⟨_, _, stepped⟩ := bind_ok stepped
      obtain rfl := Except.ok.inj stepped
      have set := threadRank_set found (.taken worker)
      change threadRank (pool.thread.set index (.taken worker)) + 1 = threadRank pool.thread + 10 at set
      refine ⟨?_, id⟩
      rw [rank, rank, queue]
      change threadRank (pool.thread.set index (.taken worker)) + 10 * rest.length +
        pool.destroy.rank (pool.thread.set index (.taken worker)).length < _
      rw [List.length_set, List.length_cons]
      omega

private theorem nearer_routine {pool next : RpcTp} {index : Nat} {phase : RoutinePhase}
    (found : pool.thread[index]? = some phase)
    (stepped : pool.rpcTpRoutine index phase = some (.ok next)) : pool.Nearer next := by
  cases phase with
  | looking => exact nearer_look found (Option.some.inj stepped)
  | taken | returned | stored | complete =>
    exact nearer_written found (Nat.lt_succ_self _) (Option.some.inj stepped)
  | busy =>
    obtain ⟨_, _, done⟩ := bind_ok (Option.some.inj stepped)
    obtain rfl := Except.ok.inj done
    exact nearer_goto found rfl rfl rfl (Nat.lt_succ_self _)
  | posted =>
    obtain ⟨cell, _, done⟩ := bind_ok (Option.some.inj stepped)
    split at done
    · obtain rfl := Except.ok.inj done
      exact nearer_goto found rfl rfl rfl (Nat.lt_succ_self _)
    · obtain rfl := Except.ok.inj done
      exact nearer_goto found rfl rfl rfl (by decide : 1 < 4)
  | waiting | processing | completing | released | exited => cases stepped

private theorem nearer_destroyer {pool next : RpcTp} (working : ¬ pool.IsIdle .destroyer)
    (stepped : pool.rpcTpDestroy pool.destroy = some (.ok next)) : pool.Nearer next := by
  unfold rpcTpDestroy at stepped
  split at stepped
  · rename_i phase
    have empty : pool.workerQueue = [] := by
      by_contra queued
      exact working ⟨phase, queued⟩
    rw [if_pos empty] at stepped
    obtain rfl := Except.ok.inj (Option.some.inj stepped)
    refine ⟨?_, fun _ => by nofun⟩
    rw [rank, rank, phase]
    exact Nat.lt_succ_self _
  · rename_i phase
    obtain rfl := Except.ok.inj (Option.some.inj stepped)
    refine ⟨?_, fun _ => by nofun⟩
    have woken := threadRank_broadcast pool.thread
    rw [rank, rank, phase]
    change threadRank (pool.thread.map broadcast) + 10 * pool.workerQueue.length +
      ((pool.thread.map broadcast).length - 0 + 2) < _ + _ + (2 * pool.thread.length + 3)
    rw [List.length_map]
    omega
  · rename_i index phase
    split at stepped
    · obtain rfl := Except.ok.inj (Option.some.inj stepped)
      refine ⟨?_, fun _ => by nofun⟩
      rw [rank, rank, phase]
      exact Nat.add_lt_add_left (by simp [DestroyPhase.rank]) _
    · rename_i found
      have bound := (List.getElem?_eq_some_iff.mp found).1
      obtain rfl := Except.ok.inj (Option.some.inj stepped)
      refine ⟨?_, fun _ => by nofun⟩
      rw [rank, rank, phase]
      exact Nat.add_lt_add_left (by simp only [DestroyPhase.rank]; omega) _
    · cases stepped
  · rename_i phase
    split at stepped
    · obtain rfl := Except.ok.inj (Option.some.inj stepped)
      refine ⟨?_, fun _ => by nofun⟩
      rw [rank, rank, phase]
      exact Nat.lt_succ_self _
    · rename_i worker rest queue
      obtain ⟨_, _, stepped⟩ := bind_ok (Option.some.inj stepped)
      obtain ⟨_, _, stepped⟩ := bind_ok stepped
      obtain ⟨_, _, freed⟩ := bind_ok stepped
      obtain rfl := Except.ok.inj freed
      refine ⟨?_, id⟩
      rw [rank, rank, queue, List.length_cons]
      change threadRank pool.thread + 10 * rest.length + pool.destroy.rank pool.thread.length < _
      omega
  · cases stepped
  · cases stepped

/-- Behind the call of `rpc_tp_destroy` every step that leads on lowers the rank. -/
theorem nearer_next {pool next : RpcTp} (called : pool.destroy ≠ .uncalled) {action : Action}
    (working : ¬ pool.IsIdle action) (stepped : pool.next action = some (.ok next)) :
    pool.Nearer next := by
  cases action with
  | register | destroy => exact absurd ((if_neg called).symm.trans stepped) (by nofun)
  | routine index =>
    obtain ⟨phase, found, stepped⟩ := Option.bind_eq_some_iff.mp stepped
    exact nearer_routine found stepped
  | processed index result =>
    unfold RpcTp.next at stepped
    dsimp only at stepped
    split at stepped
    · rename_i found
      obtain rfl := Except.ok.inj (Option.some.inj stepped)
      exact nearer_goto found rfl rfl rfl (Nat.lt_succ_self _)
    · cases stepped
  | free index =>
    unfold RpcTp.next at stepped
    dsimp only at stepped
    split at stepped
    · rename_i found
      exact nearer_written found (Nat.lt_succ_self _) (Option.some.inj stepped)
    · cases stepped
  | completed index =>
    unfold RpcTp.next at stepped
    dsimp only at stepped
    split at stepped
    · rename_i found
      obtain rfl := Except.ok.inj (Option.some.inj stepped)
      exact nearer_goto found rfl rfl rfl (by decide : 1 < 3)
    · rename_i found
      obtain rfl := Except.ok.inj (Option.some.inj stepped)
      exact nearer_goto found rfl rfl rfl (by decide : 1 < 2)
    · cases stepped
  | wakeup => exact absurd trivial working
  | destroyer => exact nearer_destroyer working stepped

/-! ### Somebody can work -/

namespace Invariant
variable {pool : RpcTp}

private theorem goes_of_enabled (holds : pool.Invariant) (action : Action) (working : ¬ pool.IsIdle action)
    (enabled : pool.next action ≠ none) :
    ∃ action next, ¬ pool.IsIdle action ∧ pool.next action = some (.ok next) := by
  obtain ⟨result, stepped⟩ := Option.ne_none_iff_exists'.mp enabled
  obtain ⟨next, done, _⟩ := holds.next stepped
  exact ⟨action, next, working, done ▸ stepped⟩

/-- A thread that is awake has a step, or its callback returns. -/
theorem goes_of_awake (holds : pool.Invariant) {phase : RoutinePhase} (member : phase ∈ pool.thread)
    (awake : phase.IsAwake) :
    ∃ action next, ¬ pool.IsIdle action ∧ pool.next action = some (.ok next) := by
  obtain ⟨index, found⟩ := List.mem_iff_getElem?.mp member
  have routine : pool.next (.routine index) = pool.rpcTpRoutine index phase := by
    simp [RpcTp.next, found]
  cases phase with
  | looking | taken | busy | returned | stored | complete | posted =>
    refine holds.goes_of_enabled (.routine index) id ?_
    rw [routine]
    exact Option.some_ne_none _
  | processing =>
    refine holds.goes_of_enabled (.processed index 0) id ?_
    simp [RpcTp.next, found]
  | completing | released =>
    refine holds.goes_of_enabled (.completed index) id ?_
    simp [RpcTp.next, found]
  | waiting => exact absurd rfl awake.1
  | exited => exact absurd rfl awake.2

/-- If no thread can go on, `rpc_tp_destroy` can. -/
theorem goes (holds : pool.Invariant) (called : pool.destroy ≠ .uncalled)
    (unreturned : pool.destroy ≠ .returned) :
    ∃ action next, ¬ pool.IsIdle action ∧ pool.next action = some (.ok next) := by
  by_cases awake : ∃ phase ∈ pool.thread, phase.IsAwake
  · obtain ⟨phase, member, awake⟩ := awake
    exact holds.goes_of_awake member awake
  · have empty : pool.workerQueue = [] := by
      by_contra queued
      exact awake (holds.controlled.served queued)
    refine holds.goes_of_enabled .destroyer (fun idle => idle.2 empty) ?_
    change pool.rpcTpDestroy pool.destroy ≠ none
    cases phase : pool.destroy with
    | uncalled => exact absurd phase called
    | returned => exact absurd phase unreturned
    | polling | aborting => nofun
    | draining =>
      unfold rpcTpDestroy
      dsimp only
      split <;> nofun
    | joining index =>
      have set : pool.abort = true := by
        rw [holds.controlled.aborted, phase]
        rfl
      unfold rpcTpDestroy
      dsimp only
      cases found : pool.thread[index]? with
      | none => nofun
      | some other =>
        have member := List.mem_of_getElem? found
        have ended : other = .exited := by
          by_contra going
          exact awake ⟨other, member, fun waits => holds.controlled.awake set (waits ▸ member), going⟩
        rw [ended]
        nofun

/-- `rpc_tp_destroy` was called. -/
def Ending (state : Except Fault RpcTp) : Prop :=
  ∃ pool, state = .ok pool ∧ pool.Invariant ∧ pool.destroy ≠ .uncalled

def stateRank : Except Fault RpcTp → Nat
  | .error _ => 0
  | .ok pool => pool.rank

private theorem Ending.lowers {before after : Except Fault RpcTp} {action : Action}
    (ending : Ending before) (working : Works before action)
    (stepped : system.next before action = some after) :
    Ending after ∧ stateRank after < stateRank before := by
  obtain ⟨pool, rfl, holds, called⟩ := ending
  obtain ⟨next, rfl, kept⟩ := holds.next stepped
  obtain ⟨lower, still⟩ := nearer_next called (working pool rfl) stepped
  exact ⟨⟨next, rfl, kept, still called⟩, lower⟩

theorem finishes (holds : pool.Invariant) (called : pool.destroy ≠ .uncalled) : pool.Finishes := by
  have ending : Ending (.ok pool) := ⟨pool, rfl, holds, called⟩
  refine ⟨holds.goes called, pool.rank, fun actions after working done => ?_⟩
  exact System.run_length Ending (fun _ _ _ => Ending.lowers) ending working done

end Invariant

/-- Every run of a pool: the workers are served in order and once, undefined behaviour is never
reached, and `rpc_tp_destroy` comes to its end. -/
theorem reachable_serves {state : Except Fault RpcTp} (reached : system.Reachable System.Free state) :
    ∃ pool, state = .ok pool ∧ pool.Serves ∧ (pool.destroy ≠ .uncalled → pool.Finishes) := by
  obtain ⟨pool, defined, holds⟩ := reachable_invariant reached
  exact ⟨pool, defined, holds.serves, holds.finishes⟩

/-- One thread, one worker and `rpc_tp_destroy`. -/
private def oneWorker : List Action :=
  [.routine 0, .register 7 8 9 (some 0), .destroy .wait, .destroyer, .routine 0, .destroyer,
    .routine 0, .routine 0, .processed 0 5, .destroyer, .routine 0, .routine 0, .routine 0,
    .routine 0, .free 0, .completed 0, .routine 0, .destroyer, .destroyer, .destroyer]

/-- The pool behind this run. -/
private def oneServed : RpcTp where
  workers := [⟨7, 8, 9, 5, 2, .complete, true⟩]
  workerQueue := []
  thread := [.exited]
  abort := true
  destroy := .returned
  events := life 0 7 8 9 5

theorem oneWorker_serves : oneServed.Serves ∧ oneServed.Finishes := by
  have done : system.run (.ok (create 1)) oneWorker = some (.ok oneServed) := by decide
  have started : system.Start (.ok (create 1)) := ⟨1, Nat.one_pos, rfl⟩
  have reached : system.Reachable System.Free (.ok oneServed) :=
    (System.Reachable.start started).run (System.guarded_free _ _) done
  obtain ⟨pool, defined, serves, finishes⟩ := reachable_serves reached
  obtain rfl := Except.ok.inj defined
  exact ⟨serves, finishes (by decide)⟩

end RpcTp
end Livezure.Rpc
