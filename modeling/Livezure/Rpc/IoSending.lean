import Livezure.Rpc.IoWakeup

/-! No packet is stranded: what waits in a send queue can still be sent, in its order, by the
threads that are at work already. -/
namespace Livezure.Rpc
open Livezure.Core

/-- The packet that the sender has taken off the child's queue and not sent yet. -/
def Sender.taken (child : Nat) : Sender β → List β
  | .sending io out => if io = child then [out] else []
  | _ => []

/-- How many steps are left of a round of the sender that finds no packets. -/
def Sender.left : Sender β → Nat
  | .head => 1
  | .getting _ _ => 2
  | .draining _ => 3
  | .sending _ _ => 4
  | .waiting | .exited => 0

/-- A step of the sender, of a worker or of a notification. -/
def IoLayer.Action.Own : IoLayer.Action β → Prop
  | .routine | .process _ _ | .nodifyNext _ => True
  | _ => False

namespace IoLayer
variable {β : Type}

def queued (layer : IoLayer β) (child : Nat) : List β :=
  (layer.heap[child]?).elim [] fun io => io.send.items

/-- The child's packets that were not sent yet, in their order. -/
def outgoing (layer : IoLayer β) (child : Nat) : List β := layer.sender.taken child ++ layer.queued child

/-- What was sent to the child's descriptor. -/
def sentTo (layer : IoLayer β) (fd : Option Int) : List β :=
  (layer.sent.filter fun sent => some sent.1 == fd).map Prod.snd

/-- Steps of the threads that are at work send the child's packets, in their order. -/
def Sendable (layer : IoLayer β) (child : Nat) : Prop :=
  ∃ actions last, (∀ action ∈ actions, action.Own) ∧
    (system β).run (.ok layer) actions = some (.ok last) ∧ last.outgoing child = [] ∧
    last.sentTo (layer.fdOf child) = layer.sentTo (layer.fdOf child) ++ layer.outgoing child

/-- No packet is stranded, and there is no NULL in the signal queue. -/
def NoneStranded : Except Fault (IoLayer β) → Prop
  | .error _ => False
  | .ok layer =>
    (∀ child ∈ layer.ioList, ∀ io, layer.heap[child]? = some io → io.send.items ≠ [] →
      layer.Pending child ∧ layer.Sendable child) ∧ none ∉ layer.signalQueue.items

/-- The packets in all send queues. -/
def packets (layer : IoLayer β) : Nat := (layer.heap.map fun io => io.send.items.length).sum

/-- What the sender has to do for the signals and packets that are there. -/
def todo (layer : IoLayer β) : Nat :=
  4 * layer.signalQueue.items.length + 3 * layer.packets + layer.sender.left

theorem queued_some {layer : IoLayer β} {child : Nat} {io : RpcChild β}
    (allocated : layer.heap[child]? = some io) : layer.queued child = io.send.items := by
  rw [queued, allocated]
  rfl

theorem queued_put {layer : IoLayer β} {child : Nat} {io : RpcChild β} (changed : RpcChild β)
    (allocated : layer.heap[child]? = some io) (other : Nat) :
    (layer.put child changed).queued other =
      if child = other then changed.send.items else layer.queued other := by
  split
  · rename_i same
    subst same
    exact queued_some (put_same changed allocated)
  · rename_i differ
    rw [queued, put_other changed differ]
    rfl

theorem packets_put {layer : IoLayer β} {child : Nat} {io : RpcChild β} (changed : RpcChild β)
    (allocated : layer.heap[child]? = some io) :
    (layer.put child changed).packets + io.send.items.length =
      layer.packets + changed.send.items.length := by
  obtain ⟨bound, rfl⟩ := List.getElem?_eq_some_iff.mp allocated
  have before := ((List.getElem_cons_eraseIdx_perm bound).map fun io => io.send.items.length).sum_nat
  have after := ((List.set_perm_cons_eraseIdx bound changed).map fun io => io.send.items.length).sum_nat
  rw [List.map_cons, List.sum_cons] at before after
  simp only [packets, put]
  omega

theorem sentTo_append (layer : IoLayer β) (sent : Int × β) (fd : Option Int) :
    sentTo { layer with sent := layer.sent ++ [sent] } fd =
      layer.sentTo fd ++ if some sent.1 = fd then [sent.2] else [] := by
  by_cases same : some sent.1 = fd
  · simp [sentTo, same]
  · simp [sentTo, same]

/-- Nothing waits for the child, its signal is queued, or the sender drains it. -/
def Coming (layer : IoLayer β) (child : Nat) : Prop :=
  layer.queued child = [] ∨ some child ∈ layer.signalQueue.items ∨ layer.sender.Drains child

/-! ### One step of the sender -/

namespace RoutineStep
variable {layer next : IoLayer β} (moved : layer.RoutineStep next)
include moved

theorem less : next.todo < layer.todo := by
  cases moved with
  | wait stage =>
    simp only [todo, packets, stage, Sender.left]
    omega
  | take stage queued =>
    simp only [todo, packets, stage, queued, Sender.left, List.length_cons]
    omega
  | find stage =>
    simp only [todo, packets, stage, Sender.left]
    omega
  | finish stage allocated empty =>
    simp only [todo, packets, stage, Sender.left]
    omega
  | @get io child out items stage allocated filled =>
    have packets := packets_put { child with send := { child.send with items } } allocated
    simp only [filled, List.length_cons] at packets
    simp only [todo, stage, Sender.left]
    change 4 * layer.signalQueue.items.length + 3 * (layer.put io _).packets + 4 < _
    omega
  | send stage allocated =>
    simp only [todo, packets, stage, Sender.left]
    omega

theorem fdOf : next.fdOf = layer.fdOf := by
  cases moved with
  | get stage allocated filled => exact put_fdOf allocated rfl
  | _ => rfl

theorem ioList : next.ioList = layer.ioList := by
  cases moved <;> rfl

/-- What was sent, and then what is to be sent, stays the same. -/
theorem conserves (awake : layer.Awake) {child : Nat} (listed : child ∈ layer.ioList) :
    next.sentTo (layer.fdOf child) ++ next.outgoing child =
      layer.sentTo (layer.fdOf child) ++ layer.outgoing child := by
  cases moved with
  | wait stage => simp only [sentTo, outgoing, queued, stage, Sender.taken]
  | take stage signalled => simp only [sentTo, outgoing, queued, stage, Sender.taken]
  | find stage => simp only [sentTo, outgoing, queued, stage, Sender.taken]
  | finish stage allocated empty => simp only [sentTo, outgoing, queued, stage, Sender.taken]
  | @get io held out items stage allocated filled =>
    have packets := queued_put { held with send := { held.send with items } } allocated child
    simp only [sentTo, outgoing, stage, Sender.taken, List.nil_append]
    change _ ++ (_ ++ (layer.put io _).queued child) = _
    rw [packets]
    split
    · rename_i same
      subst same
      rw [queued_some allocated, filled]
      rfl
    · rfl
  | @send io held out stage allocated =>
    have own := awake.sender io (by simp [stage, Sender.held])
    have fd : layer.fdOf io = some held.fd := by rw [IoLayer.fdOf, allocated, Option.map_some]
    have same : some held.fd = layer.fdOf child ↔ io = child := by
      rw [← fd]
      constructor
      · intro equal
        exact List.inj_on_of_nodup_map awake.distinct own listed equal
      · rintro rfl
        rfl
    have sent := sentTo_append layer (held.fd, out) (layer.fdOf child)
    simp only [sentTo, same] at sent
    simp only [sentTo, outgoing, queued, stage, Sender.taken, sent, List.nil_append, List.append_assoc]

theorem coming {child : Nat} (coming : layer.Coming child) : next.Coming child := by
  cases moved with
  | wait stage =>
    rcases coming with none | signal | drains
    · exact .inl none
    · exact .inr (.inl signal)
    · rw [stage] at drains
      exact drains.elim
  | take stage signalled =>
    rcases coming with none | signal | drains
    · exact .inl none
    · rw [signalled] at signal
      rcases List.mem_cons.mp signal with first | later
      · exact .inr (.inr first.symm)
      · exact .inr (.inl later)
    · rw [stage] at drains
      exact drains.elim
  | find stage =>
    rcases coming with none | signal | drains
    · exact .inl none
    · exact .inr (.inl signal)
    · rw [stage] at drains
      exact .inr (.inr (Option.some.inj drains))
  | finish stage allocated empty =>
    rcases coming with none | signal | drains
    · exact .inl none
    · exact .inr (.inl signal)
    · rw [stage] at drains
      obtain rfl := drains
      exact .inl ((queued_some allocated).trans empty)
  | @get io held out items stage allocated filled =>
    rcases coming with none | signal | drains
    · refine .inl ((queued_put _ allocated child).trans ?_)
      split
      · rename_i same
        subst same
        rw [queued_some allocated, filled] at none
        cases none
      · exact none
    · exact .inr (.inl signal)
    · rw [stage] at drains
      exact .inr (.inr drains)
  | send stage allocated =>
    rcases coming with none | signal | drains
    · exact .inl none
    · exact .inr (.inl signal)
    · rw [stage] at drains
      exact .inr (.inr (congrArg some drains))

end RoutineStep

/-! ### Until the sender waits -/

/-- A state that the sender comes to: the child's packets were sent or are still coming, in their
order. -/
structure Onward (start : IoLayer β) (child : Nat) (now : IoLayer β) : Prop where
  awake : now.Awake
  coming : now.Coming child
  list : now.ioList = start.ioList
  fds : now.fdOf = start.fdOf
  same : now.sentTo (start.fdOf child) ++ now.outgoing child =
    start.sentTo (start.fdOf child) ++ start.outgoing child

def OnwardAt (start : IoLayer β) (child : Nat) (state : Except Fault (IoLayer β)) : Prop :=
  ∃ now, state = .ok now ∧ Onward start child now

def stateTodo : Except Fault (IoLayer β) → Nat
  | .error _ => 0
  | .ok layer => layer.todo

private theorem OnwardAt.routine {start : IoLayer β} {child : Nat} (listed : child ∈ start.ioList)
    {before after : Except Fault (IoLayer β)} (onward : OnwardAt start child before)
    (step : (system β).next before .routine = some after) :
    OnwardAt start child after ∧ stateTodo after < stateTodo before := by
  obtain ⟨now, rfl, onward⟩ := onward
  obtain ⟨next, rfl, awake⟩ := onward.awake.routine_awake step
  obtain ⟨_, equal, moved⟩ := onward.awake.routine_cases step
  obtain rfl := Except.ok.inj equal
  have conserved := moved.conserves onward.awake (onward.list ▸ listed)
  rw [onward.fds, onward.same] at conserved
  refine ⟨⟨next, rfl, ?_⟩, moved.less⟩
  exact {
    awake
    coming := moved.coming onward.coming
    list := moved.ioList.trans onward.list
    fds := moved.fdOf.trans onward.fds
    same := conserved }

/-- A step of a thread after which the child's packets are still the same, and sendable. -/
theorem Sendable.step {layer after : IoLayer β} {action : Action β} {child : Nat}
    (step : layer.next action = some (.ok after)) (own : action.Own) (heap : after.heap = layer.heap)
    (sender : after.sender = layer.sender) (sent : after.sent = layer.sent)
    (sendable : after.Sendable child) : layer.Sendable child := by
  obtain ⟨actions, last, others, ran, nothing, same⟩ := sendable
  refine ⟨action :: actions, last, ?_, System.run_cons step ran, nothing, ?_⟩
  · intro other member
    rcases List.mem_cons.mp member with rfl | later
    · exact own
    · exact others other later
  · simpa only [sentTo, outgoing, queued, IoLayer.fdOf, heap, sender, sent] using same

namespace Awake
variable {layer : IoLayer β} (awake : layer.Awake)
include awake

private theorem idle_of_rest (rests : layer.rpcIoRoutine = none) :
    layer.sender = .waiting ∧ layer.signalQueue.items = [] := by
  cases stage : layer.sender with
  | waiting =>
    refine ⟨rfl, ?_⟩
    rcases rpcQueueGet_ok (awake.toSound.live awake.running) with ⟨nothing, _⟩ | ⟨io, items, _, got⟩
    · exact nothing
    · simp only [rpcIoRoutine, stage, got] at rests
      cases rests
  | draining io => cases io <;> simp [rpcIoRoutine, stage] at rests
  | exited => exact absurd stage awake.serving.2.2
  | _ => simp [rpcIoRoutine, stage] at rests

/-- The sender goes on until it waits, and has then sent what was coming. -/
theorem rests {child : Nat} (listed : child ∈ layer.ioList) (coming : layer.Coming child) :
    ∃ count last, (system β).run (.ok layer) (List.replicate count .routine) = some (.ok last) ∧
      last.outgoing child = [] ∧
      last.sentTo (layer.fdOf child) = layer.sentTo (layer.fdOf child) ++ layer.outgoing child := by
  have lowers : ∀ before action after, OnwardAt layer child before → action = Action.routine →
      (system β).next before action = some after →
      OnwardAt layer child after ∧ stateTodo after < stateTodo before := by
    rintro before _ after onward rfl step
    exact onward.routine listed step
  have start : OnwardAt layer child (.ok layer) := ⟨layer, rfl, awake, coming, rfl, rfl, rfl⟩
  obtain ⟨count, _, ran, ⟨last, rfl, after, came, _, _, same⟩, rests⟩ :=
    System.run_rest (OnwardAt layer child) lowers (fun _ _ => rfl) start
  obtain ⟨waiting, unsignalled⟩ := after.idle_of_rest rests
  have nothing : last.outgoing child = [] := by
    rcases came with none | signal | drains
    · rw [outgoing, waiting, none]
      rfl
    · rw [unsignalled] at signal
      cases signal
    · rw [waiting] at drains
      exact drains.elim
  rw [nothing, List.append_nil] at same
  exact ⟨count, last, ran, nothing, same⟩

private theorem sendable_coming {child : Nat} (listed : child ∈ layer.ioList) (coming : layer.Coming child) :
    layer.Sendable child := by
  obtain ⟨count, last, ran, nothing, same⟩ := awake.rests listed coming
  refine ⟨_, last, ?_, ran, nothing, same⟩
  intro action member
  rw [List.eq_of_mem_replicate member]
  trivial

/-- A worker that has pushed its answer pushes the signal for it. -/
theorem sendable_task {child : Nat} (listed : child ∈ layer.ioList) (answer : β) {task : PoolTask}
    (member : task ∈ layer.tasks) (phase : task.phase = .signalling) (same : task.child = child) :
    layer.Sendable child := by
  obtain ⟨index, found⟩ := List.getElem?_of_mem member
  obtain ⟨after, done, awakened⟩ := awake.process_awake found answer
  have ready : layer.CanWork index task := by
    intro queued
    rw [phase] at queued
    cases queued
  have step : layer.next (.process index answer) = some (.ok after) := by
    simp only [IoLayer.next, found, Option.bind_eq_bind, Option.bind_some, if_pos ready, done]
  have live := awake.toSound.live awake.running
  simp only [rpcIoProcessor, phase] at done
  rw [signal_ok (by exact live)] at done
  obtain rfl := Except.ok.inj done
  refine Sendable.step step trivial rfl rfl rfl (awakened.sendable_coming listed (.inr (.inl ?_)))
  rw [same]
  exact List.mem_append_right _ (List.mem_singleton_self _)

private theorem sendable_signal {child : Nat} (listed : child ∈ layer.ioList) {call : Nodify β}
    (member : call ∈ layer.nodifies) (phase : call.phase = .signal child (some child)) :
    layer.Sendable child := by
  obtain ⟨index, found⟩ := List.getElem?_of_mem member
  obtain ⟨after, done, awakened⟩ := awake.signalled_awake found phase
  have step : layer.next (.nodifyNext index) = some (.ok after) := by
    simp only [IoLayer.next, found, Option.map_some, done]
  have live := awake.toSound.live awake.running
  simp only [rpcIoNodifyFd, phase] at done
  rw [signal_ok (by exact live)] at done
  obtain rfl := Except.ok.inj done
  refine Sendable.step step trivial rfl rfl rfl (awakened.sendable_coming listed (.inr (.inl ?_)))
  exact List.mem_append_right _ (List.mem_singleton_self _)

/-- A notification that has pushed its packet finds the child, and signals it. -/
theorem sendable_call {child : Nat} (listed : child ∈ layer.ioList) {call : Nodify β}
    (member : call ∈ layer.nodifies) (wakes : layer.Wakes call child) : layer.Sendable child := by
  rcases wakes with ⟨phase, finds⟩ | phase
  · obtain ⟨index, found⟩ := List.getElem?_of_mem member
    have met : WakeupGuard (.ok layer) (.nodifyNext index) := by
      intro other same tmp _ pushes
      obtain rfl := Option.some.inj (found.symm.trans same)
      cases phase.symm.trans pushes
    obtain ⟨after, done, awakened⟩ := awake.nodifyNext_awake found met
    have step : layer.next (.nodifyNext index) = some (.ok after) := by
      simp only [IoLayer.next, found, Option.map_some, done]
    simp only [rpcIoNodifyFd, phase, finds] at done
    obtain rfl := Except.ok.inj done
    have entered := List.mem_set (List.getElem?_eq_some_iff.mp found).1
      { call with phase := NodifyPhase.signal child (some child) }
    exact Sendable.step step trivial rfl rfl rfl (awakened.sendable_signal listed entered rfl)
  · exact awake.sendable_signal listed member phase

private theorem sendable {child : Nat} (listed : child ∈ layer.ioList) {io : RpcChild β}
    (allocated : layer.heap[child]? = some io) (waiting : io.send.items ≠ []) :
    layer.Sendable child := by
  obtain ⟨out, _⟩ := List.exists_mem_of_ne_nil _ waiting
  rcases awake.awaited child io allocated waiting with signal | drains | task | call
  · exact awake.sendable_coming listed (.inr (.inl signal))
  · exact awake.sendable_coming listed (.inr (.inr drains))
  · obtain ⟨task, member, phase, same⟩ := task
    exact awake.sendable_task listed out member phase same
  · obtain ⟨call, member, wakes⟩ := call
    exact awake.sendable_call listed member wakes

end Awake

/-- In every interleaving whose notifications wake the sender for the children they
push to, no packet is stranded and no NULL is signalled. -/
theorem noneStranded_of_guard {state : Except Fault (IoLayer β)}
    (reached : (system β).Reachable WakeupGuard state) : NoneStranded state := by
  have awake : ∃ layer : IoLayer β, state = .ok layer ∧ layer.Awake := by
    refine reached.invariant (fun state => ∃ layer : IoLayer β, state = .ok layer ∧ layer.Awake) ?_ ?_
    · rintro _ ⟨processors, rfl⟩
      exact ⟨_, rfl, awake_init processors⟩
    · rintro _ action after ⟨layer, rfl, awake⟩ met step
      exact awake.next_awake met step
  obtain ⟨layer, rfl, awake⟩ := awake
  refine ⟨?_, awake.noNull⟩
  intro child listed io allocated waiting
  exact ⟨(awake.awaited child io allocated waiting).pending, awake.sendable listed allocated waiting⟩

/-- Two connections; one gets a notification and the answer to its request, and
packets wait at the end. -/
private def notifiedAnswered : List (Action Nat) :=
  ([.add 5, .add 6, .enqueue 5, .dispatch 0 false, .enqueued 0, .process 0 9, .process 0 9,
    .nodify 6 .just 4] : List (Action Nat)) ++ (List.replicate 3 (.nodifyNext 0) : List (Action Nat)) ++
  ([.routine, .process 0 9] : List (Action Nat)) ++
  (List.replicate 3 (.nodifyNext 0) : List (Action Nat)) ++ ([.routine, .routine] : List (Action Nat))

theorem noneStranded_notifiedAnswered :
    ∃ layer, (system Nat).run (.ok (init 2)) notifiedAnswered = some (.ok layer) ∧
      layer.heap.map (fun io => io.send.items) = [[9], [4]] ∧ NoneStranded (.ok layer) := by
  have met : (system Nat).Guarded WakeupGuard (.ok (init 2)) notifiedAnswered := by
    decide +kernel
  refine ⟨_, rfl, rfl, noneStranded_of_guard ?_⟩
  exact System.Reachable.run (.start ⟨2, rfl⟩) met rfl

/-- Two connections and a notification of all of them: the second connection's
packet stays in its queue, as both signals are for the first. With a descriptor
that is not in the list NULL is signalled, and the sender dies on it. -/
theorem notify_all_stranded :
    (∃ layer : IoLayer Nat, (system Nat).Reachable NoTeardown (.ok layer) ∧
      layer.signalQueue.items = [] ∧ layer.tasks = [] ∧ layer.nodifies = [] ∧
      ¬ NoneStranded (.ok layer)) ∧
    (system Nat).Reachable NoTeardown (.error .nullPointer) := by
  have stranded : (system Nat).run (.ok (init 2)) (
      ([.add 5, .add 6, .nodify 5 .all 4] : List (Action Nat)) ++
        (List.replicate 9 (.nodifyNext 0) : List (Action Nat)) ++
        (List.replicate 11 .routine : List (Action Nat))) = some (.ok
        { (init 2 : IoLayer Nat) with
          heap := [⟨5, rpcQueueNew, false⟩, ⟨6, { rpcQueueNew with items := [4] }, false⟩]
          ioList := [0, 1], sent := [(5, 4)] }) :=
    rfl
  have null : (system Nat).run (.ok (init 2)) (([.add 5, .nodify 9 .all 4] : List (Action Nat)) ++
      (List.replicate 4 (.nodifyNext 0) : List (Action Nat)) ++
      (List.replicate 3 .routine : List (Action Nat))) = some (.error .nullPointer) :=
    rfl
  refine ⟨⟨_, .run (.start ⟨2, rfl⟩) (by decide +kernel) stranded, rfl, rfl, rfl, ?_⟩,
    .run (.start ⟨2, rfl⟩) (by decide +kernel) null⟩
  rintro ⟨pending, _⟩
  rcases (pending 1 (by simp) _ rfl (by simp)).1 with signal | drains | ⟨task, member, _⟩ |
    ⟨call, member, _⟩
  · cases signal
  · exact drains
  · cases member
  · cases member

end IoLayer
end Livezure.Rpc
