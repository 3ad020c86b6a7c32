import Livezure.Rpc.Pool
import Mathlib.Data.List.Range

/-! Where the workers of a thread pool are, and what has happened to them there. -/
namespace Livezure.Rpc
open Livezure.Core

/-- The worker that a thread has taken. -/
def RoutinePhase.worker : RoutinePhase → Option Nat
  | .looking | .waiting | .exited => none
  | .taken worker | .busy worker | .processing worker | .returned worker _ | .stored worker
  | .complete worker | .posted worker | .completing worker | .released worker => some worker

/-- How many of its events the thread's worker has gone through. -/
def RoutinePhase.count : RoutinePhase → Nat
  | .looking | .waiting | .exited => 0
  | .taken _ | .busy _ => 2
  | .processing _ => 3
  | .returned _ _ | .stored _ | .complete _ | .posted _ => 4
  | .completing _ | .released _ => 5

/-- A result that the thread is about to store. -/
def RoutinePhase.settle : RoutinePhase → RpcTpWorker → RpcTpWorker
  | .returned _ result, cell => { cell with result }
  | _, cell => cell

def RpcTpWorker.life (cell : RpcTpWorker) (worker : Nat) : List RpcTpEvent :=
  RpcTp.life worker cell.processCb cell.completeCb cell.arg cell.result

namespace RpcTp

private theorem takings_append (front back : List RpcTpEvent) :
    takings (front ++ back) = takings front ++ takings back := List.filterMap_append

private theorem registrations_append (front back : List RpcTpEvent) :
    registrations (front ++ back) = registrations front ++ registrations back :=
  List.filterMap_append

private theorem eventsOf_append (worker : Nat) (front back : List RpcTpEvent) :
    eventsOf worker (front ++ back) = eventsOf worker front ++ eventsOf worker back :=
  List.filter_append _ _

private theorem eventsOf_own {worker : Nat} {events : List RpcTpEvent}
    (own : ∀ event ∈ events, event.worker = worker) : eventsOf worker events = events :=
  List.filter_eq_self.mpr fun event member => decide_eq_true (own event member)

private theorem eventsOf_other {worker other : Nat} {events : List RpcTpEvent}
    (own : ∀ event ∈ events, event.worker = worker) (apart : other ≠ worker) :
    eventsOf other events = [] :=
  List.filter_eq_nil_iff.mpr fun event member same =>
    apart ((of_decide_eq_true same).symm.trans (own event member))

private theorem eventsOf_append_other {worker other : Nat} {added : List RpcTpEvent}
    (events : List RpcTpEvent) (own : ∀ event ∈ added, event.worker = worker)
    (apart : other ≠ worker) : eventsOf other (events ++ added) = eventsOf other events := by
  rw [eventsOf_append, eventsOf_other own apart, List.append_nil]

private theorem eventsOf_append_own {worker : Nat} {added : List RpcTpEvent} (events : List RpcTpEvent)
    (own : ∀ event ∈ added, event.worker = worker) :
    eventsOf worker (events ++ added) = eventsOf worker events ++ added := by
  rw [eventsOf_append, eventsOf_own own]

private theorem fresh_append {events added : List RpcTpEvent} {worker bound : Nat}
    (fresh : ∀ event ∈ events, event.worker < bound)
    (own : ∀ event ∈ added, event.worker = worker) (known : worker < bound) :
    ∀ event ∈ events ++ added, event.worker < bound := by
  intro event member
  rcases List.mem_append.mp member with old | new
  · exact fresh event old
  · exact (own event new).symm ▸ known

/-- A thread at a phase, with its worker. -/
def Holds (pool : RpcTp) (index : Nat) (phase : RoutinePhase) (worker : Nat) : Prop :=
  pool.thread[index]? = some phase ∧ phase.worker = some worker

/-- The worker that a thread has. -/
def held (pool : RpcTp) (index : Nat) : Option Nat :=
  pool.thread[index]?.bind RoutinePhase.worker

/-- Every worker is in the queue, with one thread, or done, and its events say which. -/
structure Tracked (pool : RpcTp) : Prop where
  order : takings pool.events ++ pool.workerQueue = List.range pool.workers.length
  known : registrations pool.events = List.range pool.workers.length
  fresh : ∀ event ∈ pool.events, event.worker < pool.workers.length
  callbacks : ∀ cell ∈ pool.workers, cell.completeCb ≠ 0
  queued : ∀ worker ∈ pool.workerQueue, ∃ cell, pool.workers[worker]? = some cell ∧
    cell.isFreed = false ∧ eventsOf worker pool.events = (cell.life worker).take 1
  working : ∀ index phase worker, pool.Holds index phase worker →
    ∃ cell, pool.workers[worker]? = some cell ∧ (cell.isFreed = true → phase = .released worker) ∧
      eventsOf worker pool.events = ((phase.settle cell).life worker).take phase.count
  apart : ∀ left right worker, pool.held left = some worker → pool.held right = some worker →
    left = right
  finished : ∀ worker cell, pool.workers[worker]? = some cell → worker ∉ pool.workerQueue →
    (∀ index, pool.held index ≠ some worker) →
    eventsOf worker pool.events = cell.life worker

private theorem holds_set {pool next : RpcTp} {index other worker : Nat} {before after phase : RoutinePhase}
    (found : pool.thread[index]? = some before) (moved : next.thread = pool.thread.set index after) :
    next.Holds other phase worker ↔
      if other = index then phase = after ∧ phase.worker = some worker
      else pool.Holds other phase worker := by
  have place : index < pool.thread.length := (List.getElem?_eq_some_iff.mp found).1
  unfold Holds
  rw [moved, List.getElem?_set]
  by_cases same : other = index
  · rw [if_pos same.symm, if_pos place, if_pos same, Option.some.injEq]
    exact and_congr_left fun _ => eq_comm
  · rw [if_neg (Ne.symm same), if_neg same]

theorem Holds.held {pool : RpcTp} {index worker : Nat} {phase : RoutinePhase}
    (holds : pool.Holds index phase worker) : pool.held index = some worker := by
  rw [RpcTp.held, holds.1]
  exact holds.2

theorem held_set {pool next : RpcTp} {index : Nat} {before after : RoutinePhase}
    (found : pool.thread[index]? = some before) (moved : next.thread = pool.thread.set index after) :
    next.held = Function.update pool.held index after.worker := by
  have place : index < pool.thread.length := (List.getElem?_eq_some_iff.mp found).1
  funext other
  rw [held, moved, List.getElem?_set]
  by_cases same : other = index
  · rw [if_pos same.symm, if_pos place, same, Function.update_self]
    rfl
  · rw [if_neg (Ne.symm same), Function.update_of_ne same]
    rfl

theorem held_same {pool next : RpcTp} {index : Nat} {before after : RoutinePhase}
    (found : pool.thread[index]? = some before) (moved : next.thread = pool.thread.set index after)
    (same : after.worker = before.worker) : next.held = pool.held := by
  have now : pool.held index = before.worker := by
    rw [held, found]
    rfl
  rw [held_set found moved, same, ← now, Function.update_eq_self]

theorem holds_of_held {pool : RpcTp} {index worker : Nat} (held : pool.held index = some worker) :
    ∃ phase, pool.Holds index phase worker :=
  Option.bind_eq_some_iff.mp held

/-- One thread gets a worker that no other has, or gives its own away. -/
theorem apart_update {held : Nat → Option Nat} {index : Nat} {value : Option Nat}
    (apart : ∀ left right worker, held left = some worker → held right = some worker → left = right)
    (fresh : ∀ {worker}, value = some worker → ∀ other, other ≠ index → held other ≠ some worker) :
    ∀ left right worker, Function.update held index value left = some worker →
      Function.update held index value right = some worker → left = right := by
  intro left right worker atLeft atRight
  rw [Function.update_apply] at atLeft atRight
  split at atLeft
  · split at atRight
    · rename_i leftSame rightSame
      rw [leftSame, rightSame]
    · rename_i different
      exact absurd atRight (fresh atLeft right different)
  · split at atRight
    · rename_i different _
      exact absurd atLeft (fresh atRight left different)
    · exact apart left right worker atLeft atRight

private theorem two_le_count {phase : RoutinePhase} {worker : Nat} (held : phase.worker = some worker) :
    2 ≤ phase.count := by
  cases phase <;> first | cases held; done | exact Nat.le_of_ble_eq_true rfl

theorem life_length (cell : RpcTpWorker) (worker : Nat) : (cell.life worker).length = 6 := rfl

namespace Tracked
variable {pool next : RpcTp} {index worker : Nat} {phase after : RoutinePhase}

private theorem not_queued (tracked : pool.Tracked) (held : pool.Holds index phase worker) :
    worker ∉ pool.workerQueue := by
  intro member
  obtain ⟨_, _, _, one⟩ := tracked.queued worker member
  obtain ⟨_, _, _, more⟩ := tracked.working index phase worker held
  rw [one] at more
  have lengths := congrArg List.length more
  rw [List.length_take, List.length_take, life_length, life_length] at lengths
  have := two_le_count held.2
  omega

theorem work (tracked : pool.Tracked) (held : pool.Holds index phase worker)
    {cell changed : RpcTpWorker} {added : List RpcTpEvent}
    (stored : pool.workers[worker]? = some cell)
    (workers : next.workers = pool.workers.set worker changed)
    (queue : next.workerQueue = pool.workerQueue)
    (moved : next.thread = pool.thread.set index after)
    (events : next.events = pool.events ++ added)
    (same : after.worker = some worker) (own : ∀ event ∈ added, event.worker = worker)
    (noTaking : takings added = []) (noRegistration : registrations added = [])
    (callback : changed.completeCb = cell.completeCb)
    (freed : changed.isFreed = true → after = .released worker)
    (goes : ((after.settle changed).life worker).take after.count =
      ((phase.settle cell).life worker).take phase.count ++ added) : next.Tracked := by
  have others : ∀ other, other ≠ worker → next.workers[other]? = pool.workers[other]? :=
    fun other different => by rw [workers, List.getElem?_set_ne (Ne.symm different)]
  have place : worker < pool.workers.length := (List.getElem?_eq_some_iff.mp stored).1
  have unheard : ∀ other, other ≠ worker → eventsOf other next.events = eventsOf other pool.events :=
    fun other different => by rw [events, eventsOf_append_other _ own different]
  have kept : next.held = pool.held := held_same held.1 moved (same.trans held.2.symm)
  constructor
  case order =>
    rw [events, workers, queue, takings_append, noTaking, List.append_nil, List.length_set]
    exact tracked.order
  case known =>
    rw [events, workers, registrations_append, noRegistration, List.append_nil, List.length_set]
    exact tracked.known
  case fresh =>
    rw [events, workers, List.length_set]
    exact fresh_append tracked.fresh own place
  case callbacks =>
    intro other member
    rw [workers] at member
    rcases List.mem_or_eq_of_mem_set member with old | rfl
    · exact tracked.callbacks other old
    · rw [callback]
      exact tracked.callbacks cell (List.mem_of_getElem? stored)
  case queued =>
    intro other member
    rw [queue] at member
    have different : other ≠ worker := fun equal => tracked.not_queued held (equal ▸ member)
    rw [others other different, unheard other different]
    exact tracked.queued other member
  case working =>
    intro other phase_ other_ held_
    rw [holds_set held.1 moved] at held_
    split at held_
    · obtain ⟨rfl, known⟩ := held_
      obtain rfl := Option.some.inj (same.symm.trans known)
      refine ⟨changed, by rw [workers, List.getElem?_set_self place], freed, ?_⟩
      obtain ⟨cell_, stored_, _, before⟩ := tracked.working index phase worker held
      obtain rfl := Option.some.inj (stored.symm.trans stored_)
      rw [events, eventsOf_append_own _ own, before, goes]
    · rename_i elsewhere
      have different : other_ ≠ worker := fun equal =>
        elsewhere (tracked.apart _ _ worker (equal ▸ held_.held) held.held)
      rw [others other_ different, unheard other_ different]
      exact tracked.working other phase_ other_ held_
  case apart =>
    rw [kept]
    exact tracked.apart
  case finished =>
    intro other cell_ stored_ absent free
    rw [queue] at absent
    rw [kept] at free
    have different : other ≠ worker := fun equal => free index (equal ▸ held.held)
    rw [others other different] at stored_
    rw [unheard other different]
    exact tracked.finished other cell_ stored_ absent free

theorem same (tracked : pool.Tracked) (workers : next.workers = pool.workers)
    (queue : next.workerQueue = pool.workerQueue) (events : next.events = pool.events)
    (kept : next.held = pool.held)
    (holds : ∀ index phase worker, next.Holds index phase worker → pool.Holds index phase worker) :
    next.Tracked := by
  constructor
  case order =>
    rw [events, workers, queue]
    exact tracked.order
  case known =>
    rw [events, workers]
    exact tracked.known
  case fresh =>
    rw [events, workers]
    exact tracked.fresh
  case callbacks =>
    rw [workers]
    exact tracked.callbacks
  case queued =>
    rw [events, workers, queue]
    exact tracked.queued
  case working =>
    intro index phase worker held
    rw [events, workers]
    exact tracked.working index phase worker (holds index phase worker held)
  case apart =>
    rw [kept]
    exact tracked.apart
  case finished =>
    rw [events, workers, queue, kept]
    exact tracked.finished

theorem idle (tracked : pool.Tracked) (found : pool.thread[index]? = some phase)
    (workers : next.workers = pool.workers) (queue : next.workerQueue = pool.workerQueue)
    (moved : next.thread = pool.thread.set index after) (events : next.events = pool.events)
    (before : phase.worker = none) (none : after.worker = none) : next.Tracked := by
  apply tracked.same workers queue events (held_same found moved (none.trans before.symm))
  intro other phase_ worker held
  rw [holds_set found moved] at held
  split at held
  · obtain ⟨rfl, known⟩ := held
    rw [none] at known
    cases known
  · exact held

theorem take (tracked : pool.Tracked) (found : pool.thread[index]? = some phase)
    (before : phase.worker = none) {rest : List Nat} (queued : pool.workerQueue = worker :: rest)
    (workers : next.workers = pool.workers) (queue : next.workerQueue = rest)
    (moved : next.thread = pool.thread.set index (.taken worker))
    (events : next.events = pool.events ++ [.taken worker]) : next.Tracked := by
  have own : ∀ event ∈ [RpcTpEvent.taken worker], event.worker = worker :=
    fun event member => by rw [List.mem_singleton.mp member]; rfl
  have first : worker ∈ pool.workerQueue := queued ▸ List.mem_cons_self
  have unique : (takings pool.events ++ pool.workerQueue).Nodup := tracked.order ▸ List.nodup_range
  rw [queued] at unique
  have fresh : worker ∉ rest := (List.nodup_cons.mp (List.nodup_append.mp unique).2.1).1
  have unheld : ∀ other, pool.held other ≠ some worker := fun other held =>
    let ⟨_, holds⟩ := holds_of_held held
    tracked.not_queued holds first
  have changed := held_set found moved
  constructor
  case order =>
    rw [events, workers, queue, takings_append, List.append_assoc]
    rw [← tracked.order, queued]
    rfl
  case known =>
    rw [events, workers, registrations_append]
    exact (List.append_nil _).trans tracked.known
  case fresh =>
    obtain ⟨_, stored, _⟩ := tracked.queued worker first
    rw [events, workers]
    exact fresh_append tracked.fresh own (List.getElem?_eq_some_iff.mp stored).1
  case callbacks =>
    rw [workers]
    exact tracked.callbacks
  case queued =>
    intro other member
    rw [queue] at member
    have different : other ≠ worker := fun equal => fresh (equal ▸ member)
    rw [events, workers, eventsOf_append_other _ own different]
    exact tracked.queued other (queued ▸ List.mem_cons_of_mem _ member)
  case working =>
    intro other phase_ other_ held
    rw [holds_set found moved] at held
    split at held
    · obtain ⟨rfl, known⟩ := held
      obtain rfl := Option.some.inj known
      obtain ⟨cell, stored, alive, one⟩ := tracked.queued _ first
      refine ⟨cell, workers ▸ stored, fun freed => ?_, ?_⟩
      · rw [alive] at freed
        cases freed
      · rw [events, eventsOf_append_own _ own, one]
        rfl
    · have different : other_ ≠ worker := fun equal => unheld other (equal ▸ held.held)
      rw [events, workers, eventsOf_append_other _ own different]
      exact tracked.working other phase_ other_ held
  case apart =>
    rw [changed]
    exact apart_update tracked.apart fun known other _ => Option.some.inj known ▸ unheld other
  case finished =>
    intro other cell stored absent free
    rw [changed] at free
    have different : other ≠ worker := fun equal => free index (by rw [Function.update_self, equal]; rfl)
    rw [workers] at stored
    rw [events, eventsOf_append_other _ own different]
    apply tracked.finished other cell stored
    · rw [queued, List.mem_cons, ← queue, not_or]
      exact ⟨different, absent⟩
    · intro place held
      by_cases same : place = index
      · rw [same, RpcTp.held, found] at held
        exact absurd held (by rw [Option.bind_some, before]; exact Option.some_ne_none _ ∘ Eq.symm)
      · exact free place (by rw [Function.update_of_ne same]; exact held)

theorem complete (tracked : pool.Tracked) (held : pool.Holds index phase worker)
    (last : phase = .completing worker ∨ phase = .released worker)
    (workers : next.workers = pool.workers) (queue : next.workerQueue = pool.workerQueue)
    (moved : next.thread = pool.thread.set index .looking)
    (events : next.events = pool.events ++ [.completed worker]) : next.Tracked := by
  have own : ∀ event ∈ [RpcTpEvent.completed worker], event.worker = worker :=
    fun event member => by rw [List.mem_singleton.mp member]; rfl
  have changed := held_set held.1 moved
  have alone : ∀ other, other ≠ index → pool.held other ≠ some worker :=
    fun other different held_ => different (tracked.apart _ _ worker held_ held.held)
  constructor
  case order =>
    rw [events, workers, queue, takings_append]
    exact (congrArg (· ++ _) (List.append_nil _)).trans tracked.order
  case known =>
    rw [events, workers, registrations_append]
    exact (List.append_nil _).trans tracked.known
  case fresh =>
    obtain ⟨_, stored, _⟩ := tracked.working index phase worker held
    rw [events, workers]
    exact fresh_append tracked.fresh own (List.getElem?_eq_some_iff.mp stored).1
  case callbacks =>
    rw [workers]
    exact tracked.callbacks
  case queued =>
    intro other member
    rw [queue] at member
    have different : other ≠ worker := fun equal => tracked.not_queued held (equal ▸ member)
    rw [events, workers, eventsOf_append_other _ own different]
    exact tracked.queued other member
  case working =>
    intro other phase_ other_ held_
    rw [holds_set held.1 moved] at held_
    split at held_
    · obtain ⟨rfl, known⟩ := held_
      cases known
    · rename_i elsewhere
      have different : other_ ≠ worker := fun equal => alone other elsewhere (equal ▸ held_.held)
      rw [events, workers, eventsOf_append_other _ own different]
      exact tracked.working other phase_ other_ held_
  case apart =>
    rw [changed]
    exact apart_update tracked.apart fun known => by cases known
  case finished =>
    intro other cell stored absent free
    rw [workers] at stored
    by_cases same : other = worker
    · obtain ⟨cell_, stored_, _, before⟩ := tracked.working index phase worker held
      rw [same, stored_] at stored
      obtain rfl := Option.some.inj stored
      rw [same, events, eventsOf_append_own _ own, before]
      rcases last with rfl | rfl <;> rfl
    · rw [events, eventsOf_append_other _ own same]
      apply tracked.finished other cell stored (queue ▸ absent)
      intro place held_
      by_cases here : place = index
      · rw [here, held.held] at held_
        exact same (Option.some.inj held_).symm
      · apply free place
        rw [changed, Function.update_of_ne here]
        exact held_

theorem register (tracked : pool.Tracked) {processCb completeCb arg : Nat}
    (callback : completeCb ≠ 0)
    (workers : next.workers = pool.workers ++ [⟨processCb, completeCb, arg, 0, 0, .idle, false⟩])
    (queue : next.workerQueue = pool.workerQueue ++ [pool.workers.length])
    (unmoved : next.thread = pool.thread)
    (events : next.events =
      pool.events ++ [.registered pool.workers.length processCb completeCb arg]) :
    next.Tracked := by
  have kept : next.held = pool.held := by
    funext other
    rw [held, held, unmoved]
  have own : ∀ event ∈ [RpcTpEvent.registered pool.workers.length processCb completeCb arg],
      event.worker = pool.workers.length :=
    fun event member => by rw [List.mem_singleton.mp member]; rfl
  have old : ∀ {other cell}, pool.workers[other]? = some cell →
      next.workers[other]? = some cell ∧
        eventsOf other next.events = eventsOf other pool.events := by
    intro other cell stored
    have bound := (List.getElem?_eq_some_iff.mp stored).1
    rw [workers, events, List.getElem?_append_left bound, eventsOf_append_other _ own (by omega)]
    exact ⟨stored, rfl⟩
  have silent : eventsOf pool.workers.length pool.events = [] :=
    List.filter_eq_nil_iff.mpr fun event member same =>
      absurd (of_decide_eq_true same) (by have := tracked.fresh event member; omega)
  constructor
  case order =>
    have none : takings [.registered pool.workers.length processCb completeCb arg] = [] := rfl
    rw [events, workers, queue, takings_append, none, List.append_nil, List.length_append,
      List.length_singleton, List.range_succ, ← tracked.order, List.append_assoc]
  case known =>
    rw [events, workers, registrations_append, List.length_append, List.length_singleton,
      List.range_succ, tracked.known]
    rfl
  case fresh =>
    rw [events, workers, List.length_append, List.length_singleton]
    exact fresh_append (fun event member => (tracked.fresh event member).trans (Nat.lt_succ_self _))
      own (Nat.lt_succ_self _)
  case callbacks =>
    intro cell member
    rw [workers] at member
    rcases List.mem_append.mp member with before | now
    · exact tracked.callbacks cell before
    · rw [List.mem_singleton.mp now]
      exact callback
  case queued =>
    intro other member
    rw [queue] at member
    rcases List.mem_append.mp member with before | now
    · obtain ⟨cell, stored, alive, one⟩ := tracked.queued other before
      exact ⟨cell, (old stored).1, alive, (old stored).2.trans one⟩
    · rw [List.mem_singleton.mp now]
      refine ⟨_, by rw [workers, List.getElem?_concat_length], rfl, ?_⟩
      rw [events, eventsOf_append_own _ own, silent]
      rfl
  case working =>
    intro index phase worker holds
    have holds : pool.Holds index phase worker := ⟨unmoved ▸ holds.1, holds.2⟩
    obtain ⟨cell, stored, freed, more⟩ := tracked.working index phase worker holds
    exact ⟨cell, (old stored).1, freed, (old stored).2.trans more⟩
  case apart =>
    rw [kept]
    exact tracked.apart
  case finished =>
    intro other cell stored absent free
    rw [queue, List.mem_append, not_or, List.mem_singleton] at absent
    have bound : other < pool.workers.length := by
      have := (List.getElem?_eq_some_iff.mp stored).1
      rw [workers, List.length_append, List.length_singleton] at this
      have := absent.2
      omega
    have before : pool.workers[other]? = some cell := by
      rw [workers, List.getElem?_append_left bound] at stored
      exact stored
    rw [(old before).2]
    exact tracked.finished other cell before absent.1 (kept ▸ free)

theorem broadcast (tracked : pool.Tracked) (workers : next.workers = pool.workers)
    (queue : next.workerQueue = pool.workerQueue)
    (moved : next.thread = pool.thread.map RpcTp.broadcast) (events : next.events = pool.events) :
    next.Tracked := by
  have same : ∀ phase : RoutinePhase, (RpcTp.broadcast phase).worker = phase.worker := by
    intro phase
    unfold RpcTp.broadcast
    split
    · rename_i waits
      rw [waits]
      rfl
    · rfl
  have kept : next.held = pool.held := by
    funext other
    rw [held, held, moved, List.getElem?_map, Option.bind_map]
    exact congrArg _ (funext same)
  apply tracked.same workers queue events kept
  intro index phase worker holds
  obtain ⟨before, found, rfl⟩ : ∃ before, pool.thread[index]? = some before ∧
      RpcTp.broadcast before = phase := by
    have found := holds.1
    rw [moved, List.getElem?_map] at found
    exact Option.map_eq_some_iff.mp found
  have unwoken : RpcTp.broadcast before = before := by
    unfold RpcTp.broadcast
    split
    · rename_i waits
      have none := holds.2
      rw [waits] at none
      cases none
    · rfl
  rw [unwoken]
  exact ⟨found, (same before).symm.trans holds.2⟩

/-! ### Reading workers -/

/-- A worker in the queue is not freed. -/
theorem deref_queued (tracked : pool.Tracked) (member : worker ∈ pool.workerQueue) :
    ∃ cell, pool.workers[worker]? = some cell ∧ pool.deref worker = .ok cell := by
  obtain ⟨cell, stored, alive, _⟩ := tracked.queued worker member
  refine ⟨cell, stored, ?_⟩
  rw [deref, stored]
  exact if_neg (by rw [alive]; exact Bool.false_ne_true)

/-- Nor is one that a thread is at, up to `rpc_tp_worker_free`. -/
theorem deref_held (tracked : pool.Tracked) (held : pool.Holds index phase worker)
    (early : phase ≠ .released worker) :
    ∃ cell, pool.workers[worker]? = some cell ∧ cell.isFreed = false ∧
      pool.deref worker = .ok cell := by
  obtain ⟨cell, stored, freed, _⟩ := tracked.working index phase worker held
  have alive : ¬ cell.isFreed = true := fun gone => early (freed gone)
  refine ⟨cell, stored, Bool.eq_false_iff.mpr alive, ?_⟩
  rw [deref, stored]
  exact if_neg alive

theorem link_queued (tracked : pool.Tracked) {neighbour : Option Nat}
    (queued : ∀ worker ∈ neighbour, worker ∈ pool.workerQueue) : pool.link neighbour = .ok () := by
  cases neighbour with
  | none => rfl
  | some worker =>
    obtain ⟨cell, _, read⟩ := tracked.deref_queued (queued worker rfl)
    rw [link, read]
    rfl

theorem write_held (tracked : pool.Tracked) (held : pool.Holds index phase worker)
    (early : phase ≠ .released worker) (f : RpcTpWorker → RpcTpWorker) :
    ∃ cell, pool.workers[worker]? = some cell ∧ cell.isFreed = false ∧
      pool.write worker f = .ok { pool with workers := pool.workers.set worker (f cell) } := by
  obtain ⟨cell, stored, alive, read⟩ := tracked.deref_held held early
  refine ⟨cell, stored, alive, ?_⟩
  rw [write, read]
  rfl

end Tracked

end RpcTp
end Livezure.Rpc
