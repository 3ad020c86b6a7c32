import Livezure.Rpc.PoolWorkers

/-! Runs of a thread pool: what each step keeps, and what has happened to the workers. -/
namespace Livezure.Rpc
open Livezure.Core

/-- `rpc_tp_destroy` has set `abort`. -/
def DestroyPhase.hasAborted : DestroyPhase → Bool
  | .uncalled | .polling | .aborting => false
  | .joining _ | .draining | .returned => true

/-- Behind the last `pthread_join`. -/
def DestroyPhase.hasJoined : DestroyPhase → Bool
  | .draining | .returned => true
  | _ => false

/-- A thread that will look at the queue again without being woken. -/
def RoutinePhase.IsAwake (phase : RoutinePhase) : Prop := phase ≠ .waiting ∧ phase ≠ .exited

namespace RpcTp

/-- How the queue, `abort`, the threads that sleep or have ended, and `rpc_tp_destroy` go together. -/
structure Controlled (pool : RpcTp) : Prop where
  threads : pool.thread ≠ []
  exiting : .exited ∈ pool.thread → pool.abort = true ∧ pool.workerQueue = []
  aborted : pool.abort = pool.destroy.hasAborted
  awake : pool.abort = true → .waiting ∉ pool.thread
  joined : ∀ index, pool.destroy = .joining index → ∀ place < index,
    pool.thread[place]? = some .exited
  ended : pool.destroy.hasJoined = true → ∀ phase ∈ pool.thread, phase = .exited
  /-- Nobody sleeps through a registration. -/
  served : pool.workerQueue ≠ [] → ∃ phase ∈ pool.thread, phase.IsAwake

structure Invariant (pool : RpcTp) : Prop where
  tracked : pool.Tracked
  controlled : pool.Controlled

namespace Controlled
variable {pool next : RpcTp} {index : Nat} {before after : RoutinePhase}

/-- A thread goes on. It sleeps or ends only at an empty queue. -/
theorem goto (controlled : pool.Controlled) (found : pool.thread[index]? = some before)
    (alive : before ≠ .exited) (moved : next.thread = pool.thread.set index after)
    (abort : next.abort = pool.abort) (destroy : next.destroy = pool.destroy)
    (shrinks : pool.workerQueue = [] → next.workerQueue = [])
    (sleeps : after = .waiting → pool.abort = false ∧ next.workerQueue = [])
    (ends : after = .exited → pool.abort = true ∧ next.workerQueue = []) : next.Controlled := by
  have place : index < pool.thread.length := (List.getElem?_eq_some_iff.mp found).1
  constructor
  case threads =>
    rw [moved, ne_eq, List.set_eq_nil_iff]
    exact controlled.threads
  case exiting =>
    intro member
    rw [moved] at member
    rw [abort]
    rcases List.mem_or_eq_of_mem_set member with old | same
    · exact ⟨(controlled.exiting old).1, shrinks (controlled.exiting old).2⟩
    · exact ends same.symm
  case aborted =>
    rw [abort, destroy]
    exact controlled.aborted
  case awake =>
    intro set member
    rw [abort] at set
    rw [moved] at member
    rcases List.mem_or_eq_of_mem_set member with old | same
    · exact controlled.awake set old
    · have unset := (sleeps same.symm).1
      rw [set] at unset
      cases unset
  case joined =>
    intro joining phase other earlier
    rw [destroy] at phase
    have exited := controlled.joined joining phase other earlier
    have different : index ≠ other := by
      rintro rfl
      exact alive (Option.some.inj (found.symm.trans exited))
    rw [moved, List.getElem?_set_ne different]
    exact exited
  case ended =>
    intro joined
    rw [destroy] at joined
    exact absurd (controlled.ended joined before (List.mem_of_getElem? found)) alive
  case served =>
    intro queued
    rw [moved]
    exact ⟨after, List.mem_set place _, fun waits => queued (sleeps waits).2, fun ended =>
      queued (ends ended).2⟩

private theorem not_exited (controlled : pool.Controlled) (running : pool.destroy.hasAborted = false) :
    pool.abort = false ∧ .exited ∉ pool.thread := by
  have unset : pool.abort = false := controlled.aborted.trans running
  refine ⟨unset, fun member => ?_⟩
  have set := (controlled.exiting member).1
  rw [unset] at set
  cases set

theorem of_running (running : next.destroy.hasAborted = false) (unset : next.abort = false)
    (threads : next.thread ≠ []) (alive : .exited ∉ next.thread)
    (served : next.workerQueue ≠ [] → ∃ phase ∈ next.thread, phase.IsAwake) : next.Controlled := by
  constructor
  case threads => exact threads
  case exiting => exact fun member => absurd member alive
  case aborted => exact unset.trans running.symm
  case awake =>
    intro set
    rw [unset] at set
    cases set
  case joined =>
    intro index joining
    rw [joining] at running
    cases running
  case ended =>
    intro joined
    cases phase : next.destroy <;> rw [phase] at joined running <;> first | cases joined; done | cases running
  case served => exact served

theorem abort (controlled : pool.Controlled) (aborting : pool.destroy = .aborting) :
    Controlled { pool with
      abort := true, thread := pool.thread.map broadcast, destroy := .joining 0 } := by
  have alive := (controlled.not_exited (by rw [aborting]; rfl)).2
  have woken : ∀ phase : RoutinePhase, broadcast phase ≠ .waiting := by
    intro phase
    unfold broadcast
    split
    · nofun
    · assumption
  have unended : ∀ phase : RoutinePhase, phase ≠ .exited → broadcast phase ≠ .exited := by
    intro phase going
    unfold broadcast
    split
    · nofun
    · exact going
  constructor
  case threads => exact fun empty => controlled.threads (List.map_eq_nil_iff.mp empty)
  case exiting =>
    intro member
    obtain ⟨phase, old, same⟩ := List.mem_map.mp member
    exact absurd same (unended phase fun ended => alive (ended ▸ old))
  case aborted => rfl
  case awake =>
    intro _ member
    obtain ⟨phase, _, same⟩ := List.mem_map.mp member
    exact woken phase same
  case joined =>
    intro index joining place earlier
    obtain rfl := DestroyPhase.joining.inj joining
    exact absurd earlier (Nat.not_lt_zero place)
  case ended => nofun
  case served =>
    intro queued
    obtain ⟨phase, member, awake⟩ := controlled.served queued
    exact ⟨broadcast phase, List.mem_map_of_mem member, woken phase, unended phase awake.2⟩

theorem join (controlled : pool.Controlled) {destroy : DestroyPhase}
    (aborted : pool.destroy.hasAborted = true) (now : destroy.hasAborted = true)
    (joined : ∀ index, destroy = .joining index → ∀ place < index,
      pool.thread[place]? = some .exited)
    (ended : destroy.hasJoined = true → ∀ phase ∈ pool.thread, phase = .exited) :
    Controlled { pool with destroy } where
  threads := controlled.threads
  exiting := controlled.exiting
  aborted := (controlled.aborted.trans aborted).trans now.symm
  awake := controlled.awake
  joined := joined
  ended := ended
  served := controlled.served

/-- The last `pthread_join` finds an empty queue. -/
theorem emptied (controlled : pool.Controlled) (joined : pool.destroy.hasJoined = true) :
    pool.workerQueue = [] := by
  obtain ⟨phase, member⟩ := List.exists_mem_of_ne_nil _ controlled.threads
  have ended := controlled.ended joined phase member
  exact (controlled.exiting (ended ▸ member)).2

end Controlled

theorem set_same {cells : List RpcTpWorker} {cell : RpcTpWorker} {worker : Nat}
    (stored : cells[worker]? = some cell) : cells.set worker cell = cells := by
  obtain ⟨bound, rfl⟩ := List.getElem?_eq_some_iff.mp stored
  exact List.set_getElem_self bound

namespace Invariant
variable {pool : RpcTp} {index worker : Nat} {phase : RoutinePhase}

theorem work (holds : pool.Invariant) (held : pool.Holds index phase worker)
    {cell : RpcTpWorker} (stored : pool.workers[worker]? = some cell) (changed : RpcTpWorker)
    (after : RoutinePhase) (added : List RpcTpEvent) (same : after.worker = some worker)
    (own : ∀ event ∈ added, event.worker = worker)
    (noTaking : takings added = []) (noRegistration : registrations added = [])
    (callback : changed.completeCb = cell.completeCb)
    (freed : changed.isFreed = true → after = .released worker)
    (goes : ((after.settle changed).life worker).take after.count =
      ((phase.settle cell).life worker).take phase.count ++ added) :
    Invariant { pool with
      workers := pool.workers.set worker changed
      thread := pool.thread.set index after
      events := pool.events ++ added } := by
  have busy : ∀ phase : RoutinePhase, phase.worker = some worker → phase ≠ .waiting ∧ phase ≠ .exited := by
    intro phase known
    constructor <;> (rintro rfl; cases known)
  constructor
  · exact holds.tracked.work held stored rfl rfl rfl rfl same own noTaking noRegistration callback freed goes
  · exact holds.controlled.goto held.1 (busy phase held.2).2 rfl rfl rfl id
      (fun waits => absurd waits (busy after same).1) (fun ended => absurd ended (busy after same).2)

theorem look (holds : pool.Invariant) (found : pool.thread[index]? = some .looking) :
    ∃ next, pool.rpcTpRoutineLook index = .ok next ∧ next.Invariant := by
  have working : pool.destroy ≠ .returned := by
    intro returned
    have ended := holds.controlled.ended (by rw [returned]; rfl) .looking (List.mem_of_getElem? found)
    cases ended
  rw [rpcTpRoutineLook, if_neg working]
  cases queue : pool.workerQueue with
  | nil =>
    refine ⟨_, rfl, ?_, ?_⟩
    · refine holds.tracked.idle found rfl rfl rfl rfl rfl ?_
      split <;> rfl
    · refine holds.controlled.goto found (by decide) rfl rfl rfl id ?_ ?_
      · intro waits
        split at waits
        · cases waits
        · exact ⟨Bool.eq_false_iff.mpr ‹_›, queue⟩
      · intro ended
        split at ended
        · exact ⟨‹_›, queue⟩
        · cases ended
  | cons worker rest =>
    obtain ⟨cell, _, read⟩ := holds.tracked.deref_queued (queue ▸ List.mem_cons_self : worker ∈ _)
    have linked : pool.link rest.head? = .ok () := holds.tracked.link_queued fun neighbour next =>
      queue ▸ List.mem_cons_of_mem _ (List.mem_of_mem_head? next)
    dsimp only
    rw [read, linked]
    refine ⟨_, rfl, ?_, ?_⟩
    · exact holds.tracked.take found rfl queue rfl rfl rfl rfl
    · refine holds.controlled.goto found (by decide) rfl rfl rfl (fun empty => ?_)
        (fun waits => by cases waits) (fun ended => by cases ended)
      rw [queue] at empty
      cases empty

theorem written (holds : pool.Invariant) (held : pool.Holds index phase worker)
    (early : phase ≠ .released worker) (f : RpcTpWorker → RpcTpWorker) (after : RoutinePhase)
    (same : after.worker = some worker) (callback : ∀ cell, (f cell).completeCb = cell.completeCb)
    (freed : ∀ cell, cell.isFreed = false → (f cell).isFreed = true → after = .released worker)
    (goes : ∀ cell, ((after.settle (f cell)).life worker).take after.count =
      ((phase.settle cell).life worker).take phase.count) :
    ∃ next, (do
      let pool ← pool.write worker f
      return pool.goto index after) = .ok next ∧ next.Invariant := by
  obtain ⟨cell, stored, alive, written⟩ := holds.tracked.write_held held early f
  rw [written]
  refine ⟨_, rfl, ?_⟩
  have kept := holds.work held stored (f cell) after [] same (by nofun) rfl rfl (callback cell)
    (freed cell alive) ((goes cell).trans (List.append_nil _).symm)
  rw [List.append_nil] at kept
  exact kept

theorem read (holds : pool.Invariant) (held : pool.Holds index phase worker)
    {cell : RpcTpWorker} (stored : pool.workers[worker]? = some cell)
    (early : phase ≠ .released worker) (after : RoutinePhase) (event : RpcTpEvent)
    (same : after.worker = some worker) (own : event.worker = worker)
    (noTaking : takings [event] = []) (noRegistration : registrations [event] = [])
    (goes : ((after.settle cell).life worker).take after.count =
      ((phase.settle cell).life worker).take phase.count ++ [event]) :
    ((pool.log event).goto index after).Invariant := by
  obtain ⟨cell_, stored_, alive, _⟩ := holds.tracked.deref_held held early
  obtain rfl := Option.some.inj (stored.symm.trans stored_)
  have kept := holds.work held stored cell after [event] same
    (fun other member => by rw [List.mem_singleton.mp member]; exact own) noTaking noRegistration
    rfl (fun freed => absurd (alive.symm.trans freed) Bool.false_ne_true) goes
  rw [set_same stored] at kept
  exact kept

theorem routine (holds : pool.Invariant) (found : pool.thread[index]? = some phase)
    {result : Except Fault RpcTp} (stepped : pool.rpcTpRoutine index phase = some result) :
    ∃ next, result = .ok next ∧ next.Invariant := by
  cases phase with
  | looking =>
    rw [← Option.some.inj stepped]
    exact holds.look found
  | taken worker =>
    rw [← Option.some.inj stepped]
    exact holds.written ⟨found, rfl⟩ (by nofun) _ (.busy worker) rfl (fun _ => rfl)
      (fun _ alive freed => absurd (alive.symm.trans freed) Bool.false_ne_true) fun _ => rfl
  | busy worker =>
    obtain ⟨cell, stored, _, read⟩ := holds.tracked.deref_held ⟨found, rfl⟩ (by nofun)
    refine ⟨_, (Option.some.inj stepped).symm.trans (by rw [read]; rfl), ?_⟩
    exact holds.read ⟨found, rfl⟩ stored (by nofun) (.processing worker)
      (.process worker cell.processCb cell.arg) rfl rfl rfl rfl rfl
  | returned worker result =>
    rw [← Option.some.inj stepped]
    exact holds.written ⟨found, rfl⟩ (by nofun) _ (.stored worker) rfl (fun _ => rfl)
      (fun _ alive freed => absurd (alive.symm.trans freed) Bool.false_ne_true) fun _ => rfl
  | stored worker =>
    rw [← Option.some.inj stepped]
    exact holds.written ⟨found, rfl⟩ (by nofun) _ (.complete worker) rfl (fun _ => rfl)
      (fun _ alive freed => absurd (alive.symm.trans freed) Bool.false_ne_true) fun _ => rfl
  | complete worker =>
    rw [← Option.some.inj stepped]
    exact holds.written ⟨found, rfl⟩ (by nofun) _ (.posted worker) rfl (fun _ => rfl)
      (fun _ alive freed => absurd (alive.symm.trans freed) Bool.false_ne_true) fun _ => rfl
  | posted worker =>
    obtain ⟨cell, stored, _, read⟩ := holds.tracked.deref_held ⟨found, rfl⟩ (by nofun)
    have callback := holds.tracked.callbacks cell (List.mem_of_getElem? stored)
    refine ⟨_, (Option.some.inj stepped).symm.trans (by
      rw [read]
      exact if_pos callback), ?_⟩
    exact holds.read ⟨found, rfl⟩ stored (by nofun) (.completing worker)
      (.complete worker cell.completeCb cell.result cell.arg) rfl rfl rfl rfl rfl
  | waiting | processing worker | completing worker | released worker | exited => cases stepped

theorem processed (holds : pool.Invariant) (found : pool.thread[index]? = some (.processing worker))
    (result : Nat) : ((pool.log (.processed worker result)).goto index (.returned worker result)).Invariant := by
  obtain ⟨cell, stored, _⟩ := holds.tracked.deref_held ⟨found, rfl⟩ (by nofun)
  exact holds.read ⟨found, rfl⟩ stored (by nofun) (.returned worker result) _ rfl rfl rfl rfl rfl

theorem completed (holds : pool.Invariant) (held : pool.Holds index phase worker)
    (last : phase = .completing worker ∨ phase = .released worker) :
    ((pool.log (.completed worker)).goto index .looking).Invariant := by
  have alive : phase ≠ .exited := by rcases last with rfl | rfl <;> nofun
  constructor
  · exact holds.tracked.complete held last rfl rfl rfl rfl
  · exact holds.controlled.goto held.1 alive rfl rfl rfl id (by nofun) (by nofun)

theorem woken (holds : pool.Invariant) (found : pool.thread[index]? = some .waiting) :
    (pool.goto index .looking).Invariant := by
  constructor
  · exact holds.tracked.idle found rfl rfl rfl rfl rfl rfl
  · exact holds.controlled.goto found (by nofun) rfl rfl rfl id (by nofun) (by nofun)

theorem register (holds : pool.Invariant) (early : pool.destroy = .uncalled)
    {processCb completeCb : Nat} (callbacks : ¬ (processCb = 0 ∨ completeCb = 0)) (arg : Nat) :
    ∃ next, pool.rpcTpWorkerRegister processCb completeCb arg = .ok (next, some pool.workers.length) ∧
      ∀ woken, pool.Signals woken → (next.wake woken).Invariant := by
  have running : pool.destroy.hasAborted = false := by
    rw [early]
    rfl
  obtain ⟨unset, alive⟩ := holds.controlled.not_exited running
  have accepted : ¬ (pool.abort = true ∨ processCb = 0 ∨ completeCb = 0) := by
    rw [unset]
    exact fun refused => callbacks (refused.resolve_left Bool.false_ne_true)
  have linked : pool.link pool.workerQueue.getLast? = .ok () :=
    holds.tracked.link_queued fun neighbour last => List.mem_of_getLast? last
  rw [rpcTpWorkerRegister, if_neg accepted, linked]
  refine ⟨_, rfl, fun woken signals => ?_⟩
  have queued : Tracked { pool.log (.registered pool.workers.length processCb completeCb arg) with
      workers := pool.workers ++ [⟨processCb, completeCb, arg, 0, 0, .idle, false⟩]
      workerQueue := pool.workerQueue ++ [pool.workers.length] } :=
    holds.tracked.register (fun none => callbacks (.inr none)) rfl rfl rfl rfl
  cases woken with
  | none =>
    refine ⟨queued, .of_running running unset holds.controlled.threads alive fun _ => ?_⟩
    obtain ⟨phase, member⟩ := List.exists_mem_of_ne_nil _ holds.controlled.threads
    exact ⟨phase, member, fun waits => signals (waits ▸ member), fun ended => alive (ended ▸ member)⟩
  | some index =>
    have found : pool.thread[index]? = some .waiting := signals
    have place := (List.getElem?_eq_some_iff.mp found).1
    refine ⟨queued.idle found rfl rfl rfl rfl rfl rfl, .of_running running unset ?_ ?_ fun _ => ?_⟩
    · exact fun empty => holds.controlled.threads ((List.set_eq_nil_iff _ _).mp empty)
    · intro member
      rcases List.mem_or_eq_of_mem_set member with old | same
      · exact alive old
      · cases same
    · exact ⟨.looking, List.mem_set place _, by nofun, by nofun⟩

theorem destroy (holds : pool.Invariant) (early : pool.destroy = .uncalled) {destroy : DestroyPhase}
    (running : destroy.hasAborted = false) : Invariant { pool with destroy } := by
  obtain ⟨unset, alive⟩ := holds.controlled.not_exited (by rw [early]; rfl)
  constructor
  · exact holds.tracked.same rfl rfl rfl rfl fun _ _ _ held => held
  · exact .of_running running unset holds.controlled.threads alive holds.controlled.served

theorem destroyer (holds : pool.Invariant) {result : Except Fault RpcTp}
    (stepped : pool.rpcTpDestroy pool.destroy = some result) :
    ∃ next, result = .ok next ∧ next.Invariant := by
  have same : ∀ destroy, Tracked { pool with destroy } := fun destroy =>
    holds.tracked.same rfl rfl rfl rfl fun _ _ _ held => held
  cases phase : pool.destroy with
  | uncalled | returned =>
    rw [phase] at stepped
    cases stepped
  | polling =>
    rw [phase] at stepped
    refine ⟨_, (Option.some.inj stepped).symm, ?_⟩
    split
    · obtain ⟨unset, alive⟩ := holds.controlled.not_exited (by rw [phase]; rfl)
      exact ⟨same _, .of_running rfl unset holds.controlled.threads alive holds.controlled.served⟩
    · exact holds
  | aborting =>
    rw [phase] at stepped
    refine ⟨_, (Option.some.inj stepped).symm, ?_, holds.controlled.abort phase⟩
    exact holds.tracked.broadcast rfl rfl rfl rfl
  | joining index =>
    rw [phase] at stepped
    have aborted : pool.destroy.hasAborted = true := by
      rw [phase]
      rfl
    have earlier := holds.controlled.joined index phase
    unfold rpcTpDestroy at stepped
    dsimp only at stepped
    cases thread : pool.thread[index]? with
    | none =>
      rw [thread] at stepped
      refine ⟨_, (Option.some.inj stepped).symm, same _, ?_⟩
      refine holds.controlled.join aborted rfl (by nofun) fun _ other member => ?_
      obtain ⟨place, found⟩ := List.mem_iff_getElem?.mp member
      have bound := (List.getElem?_eq_some_iff.mp found).1
      have whole := List.getElem?_eq_none_iff.mp thread
      exact Option.some.inj (found.symm.trans (earlier place (by omega)))
    | some other =>
      rw [thread] at stepped
      cases other with
      | exited =>
        refine ⟨_, (Option.some.inj stepped).symm, same _, ?_⟩
        refine holds.controlled.join aborted rfl ?_ (by nofun)
        intro next joining place before
        obtain rfl := DestroyPhase.joining.inj joining
        rcases Nat.lt_succ_iff_lt_or_eq.mp before with old | rfl
        · exact earlier place old
        · exact thread
      | _ => cases stepped
  | draining =>
    have joined : pool.destroy.hasJoined = true := by
      rw [phase]
      rfl
    rw [phase] at stepped
    unfold rpcTpDestroy at stepped
    dsimp only at stepped
    split at stepped
    · refine ⟨_, (Option.some.inj stepped).symm, same _, ?_⟩
      exact holds.controlled.join (by rw [phase]; rfl) rfl (by nofun) fun _ => holds.controlled.ended joined
    · rename_i queued
      rw [holds.controlled.emptied joined] at queued
      cases queued

/-- Every action keeps the invariant, and none is undefined. -/
theorem next (holds : pool.Invariant) {action : Action} {result : Except Fault RpcTp}
    (stepped : pool.next action = some result) : ∃ next, result = .ok next ∧ next.Invariant := by
  cases action with
  | register processCb completeCb arg woken =>
    unfold RpcTp.next at stepped
    dsimp only at stepped
    split at stepped
    · rename_i early
      by_cases refused : processCb = 0 ∨ completeCb = 0
      · rw [rpcTpWorkerRegister, if_pos (.inr refused)] at stepped
        dsimp only at stepped
        split at stepped
        · exact ⟨pool, (Option.some.inj stepped).symm, holds⟩
        · cases stepped
      · obtain ⟨after, done, kept⟩ := holds.register early refused arg
        rw [done] at stepped
        dsimp only at stepped
        split at stepped
        · rename_i signals
          exact ⟨_, (Option.some.inj stepped).symm, kept woken signals⟩
        · cases stepped
    · cases stepped
  | routine index =>
    obtain ⟨phase, found, stepped⟩ := Option.bind_eq_some_iff.mp stepped
    exact holds.routine found stepped
  | processed index result =>
    unfold RpcTp.next at stepped
    dsimp only at stepped
    split at stepped
    · rename_i found
      exact ⟨_, (Option.some.inj stepped).symm, holds.processed found result⟩
    · cases stepped
  | free index =>
    unfold RpcTp.next at stepped
    dsimp only at stepped
    split at stepped
    · rename_i worker found
      rw [← Option.some.inj stepped]
      exact holds.written ⟨found, rfl⟩ (by nofun) _ (.released worker) rfl (fun _ => rfl)
        (fun _ _ _ => rfl) fun _ => rfl
    · cases stepped
  | completed index =>
    unfold RpcTp.next at stepped
    dsimp only at stepped
    split at stepped
    · rename_i found
      exact ⟨_, (Option.some.inj stepped).symm, holds.completed ⟨found, rfl⟩ (.inl rfl)⟩
    · rename_i found
      exact ⟨_, (Option.some.inj stepped).symm, holds.completed ⟨found, rfl⟩ (.inr rfl)⟩
    · cases stepped
  | wakeup index =>
    unfold RpcTp.next at stepped
    dsimp only at stepped
    split at stepped
    · rename_i found
      exact ⟨_, (Option.some.inj stepped).symm, holds.woken found⟩
    · cases stepped
  | destroy kill =>
    unfold RpcTp.next at stepped
    dsimp only at stepped
    split at stepped
    · rename_i early
      refine ⟨_, (Option.some.inj stepped).symm, ?_⟩
      split
      · exact holds
      · exact holds.destroy early (by split <;> rfl)
    · cases stepped
  | destroyer => exact holds.destroyer stepped

end Invariant

private theorem create_invariant {nthreads : Nat} (some_ : 0 < nthreads) : (create nthreads).Invariant := by
  have looking : ∀ phase ∈ (create nthreads).thread, phase = .looking :=
    fun phase member => List.eq_of_mem_replicate member
  have unheld : ∀ index worker, (create nthreads).held index ≠ some worker := by
    intro index worker held
    obtain ⟨phase, found, known⟩ := holds_of_held held
    rw [looking phase (List.mem_of_getElem? found)] at known
    cases known
  constructor
  · constructor
    case order => rfl
    case known => rfl
    case fresh => nofun
    case callbacks => nofun
    case queued => nofun
    case working => exact fun index _ worker held => absurd held.held (unheld index worker)
    case apart => exact fun left _ worker held => absurd held (unheld left worker)
    case finished => nofun
  · refine .of_running rfl rfl ?_ ?_ (fun queued => absurd rfl queued)
    · exact fun empty => some_.ne' (List.replicate_eq_nil_iff _ |>.mp empty)
    · exact fun member => by cases looking _ member

/-- Every state of a run is defined and keeps the invariant. -/
theorem reachable_invariant {state : Except Fault RpcTp} (reached : system.Reachable System.Free state) :
    ∃ pool, state = .ok pool ∧ pool.Invariant := by
  refine reached.invariant (fun state => ∃ pool, state = .ok pool ∧ pool.Invariant) ?_ ?_
  · rintro state ⟨nthreads, some_, rfl⟩
    exact ⟨_, rfl, create_invariant some_⟩
  · rintro before action after ⟨pool, rfl, holds⟩ _ stepped
    exact holds.next stepped

/-! ### What has happened to the workers -/

namespace Invariant
variable {pool : RpcTp}

/-- What has happened to a worker is a beginning of its life. -/
theorem once (holds : pool.Invariant) {worker : Nat} (known : worker ∈ registrations pool.events) :
    ∃ processCb completeCb arg result,
      eventsOf worker pool.events <+: life worker processCb completeCb arg result := by
  rw [holds.tracked.known, List.mem_range] at known
  obtain ⟨cell, stored⟩ : ∃ cell, pool.workers[worker]? = some cell :=
    ⟨_, List.getElem?_eq_getElem known⟩
  by_cases queued : worker ∈ pool.workerQueue
  · obtain ⟨cell, _, _, one⟩ := holds.tracked.queued worker queued
    exact ⟨_, _, _, _, one ▸ List.take_prefix _ (cell.life worker)⟩
  · by_cases held : ∃ index, pool.held index = some worker
    · obtain ⟨index, held⟩ := held
      obtain ⟨phase, held⟩ := holds_of_held held
      obtain ⟨cell, _, _, more⟩ := holds.tracked.working index phase worker held
      exact ⟨_, _, _, _, more ▸ List.take_prefix _ ((phase.settle cell).life worker)⟩
    · have whole := holds.tracked.finished worker cell stored queued fun index known =>
        held ⟨index, known⟩
      exact ⟨_, _, _, _, by rw [whole]; exact List.prefix_refl (cell.life worker)⟩

/-- Behind the last `pthread_join` no worker is left. -/
theorem served (holds : pool.Invariant) (joined : pool.destroy.hasJoined = true) {worker : Nat}
    (known : worker ∈ registrations pool.events) : ∃ processCb completeCb arg result,
      eventsOf worker pool.events = life worker processCb completeCb arg result := by
  rw [holds.tracked.known, List.mem_range] at known
  obtain ⟨cell, stored⟩ : ∃ cell, pool.workers[worker]? = some cell :=
    ⟨_, List.getElem?_eq_getElem known⟩
  refine ⟨_, _, _, _, holds.tracked.finished worker cell stored ?_ ?_⟩
  · rw [holds.controlled.emptied joined]
    exact List.not_mem_nil
  · intro index held
    obtain ⟨phase, found, has⟩ := holds_of_held held
    rw [holds.controlled.ended joined phase (List.mem_of_getElem? found)] at has
    cases has

/-- Behind `rpc_tp_destroy` nothing is enabled. -/
theorem ended (holds : pool.Invariant) (returned : pool.destroy = .returned) (action : Action) :
    pool.next action = none := by
  have exited : ∀ index phase, pool.thread[index]? = some phase → phase = RoutinePhase.exited :=
    fun index phase found =>
      holds.controlled.ended (by rw [returned]; rfl) phase (List.mem_of_getElem? found)
  have called : pool.destroy ≠ .uncalled := by
    rw [returned]
    nofun
  cases action with
  | register => exact if_neg called
  | routine index =>
    cases found : pool.thread[index]? with
    | none => simp [RpcTp.next, found]
    | some phase => simp [RpcTp.next, found, exited index phase found, rpcTpRoutine]
  | processed index | free index | completed index =>
    cases found : pool.thread[index]? with
    | none => simp [RpcTp.next, found]
    | some phase => simp [RpcTp.next, found, exited index phase found]
  | wakeup index =>
    apply if_neg
    intro waits
    cases exited index _ waits
  | destroy => exact if_neg called
  | destroyer =>
    unfold RpcTp.next
    dsimp only
    rw [returned]
    rfl

theorem serves (holds : pool.Invariant) : pool.Serves where
  order := holds.tracked.order.trans holds.tracked.known.symm
  once _ known := holds.once known
  emptied returned := holds.controlled.emptied (by rw [returned]; rfl)
  exited returned := holds.controlled.ended (by rw [returned]; rfl)
  served returned _ known := holds.served (by rw [returned]; rfl) known
  ended returned := holds.ended returned

end Invariant

end RpcTp
end Livezure.Rpc
