import Livezure.Rpc.IoLifetime

/-! Whoever pushes a packet to a send queue sees to it that the sender thread is
woken for that child. -/
namespace Livezure.Rpc
open Livezure.Core

/-- The sender asks for packets of the child before it takes another signal. -/
def Sender.Drains (sender : Sender β) (child : Nat) : Prop :=
  match sender with
  | .draining io => io = some child
  | .getting io _ => io = child
  | .sending io _ => io = child
  | _ => False

/-- The child that has the packet of this call while its signal is to come. -/
def NodifyPhase.pushed : NodifyPhase → Option Nat
  | .find tmp | .signal tmp _ => some tmp
  | _ => none

namespace IoLayer
variable {β : Type}

/-- The child's packets are on their way: its signal is queued, the sender drains
it, or the thread that pushed a packet has not pushed its signal yet. -/
def Pending (layer : IoLayer β) (child : Nat) : Prop :=
  some child ∈ layer.signalQueue.items ∨ layer.sender.Drains child ∨
    (∃ task ∈ layer.tasks, task.phase = .signalling ∧ task.child = child) ∨
    ∃ call ∈ layer.nodifies, call.phase.pushed = some child

/-- Steps of the running layer: no child is deleted. -/
def NoTeardown : Except Fault (IoLayer β) → Action β → Prop
  | _, .del _ => False
  | _, .destroy => False
  | _, _ => True

/-- When a notification wakes the sender for the child it pushes to: that child has
`curfd`, or `curfd` is in the list and a signal for that child is queued already. The sender
itself is not woken for nothing. -/
def WakeupGuard : Except Fault (IoLayer β) → Action β → Prop
  | .error _, _ => False
  | .ok layer, .nodifyNext index =>
    ∀ call ∈ layer.nodifies[index]?, ∀ tmp ∈ layer.ioList, call.phase = .push tmp →
      layer.fdOf tmp = some call.curfd ∨
        (layer.rpcIoFind call.curfd ≠ none ∧ some tmp ∈ layer.signalQueue.items)
  | .ok layer, .wake => layer.signalQueue.items ≠ []
  | .ok _, .del _ => False
  | .ok _, .destroy => False
  | .ok _, _ => True

instance : (state : Except Fault (IoLayer β)) → (action : Action β) →
    Decidable (NoTeardown state action)
  | _, .del _ | _, .destroy => .isFalse id
  | _, .add _ | _, .enqueue _ | _, .dispatch _ _ | _, .enqueued _ | _, .process _ _
  | _, .nodify _ _ _ | _, .nodifyNext _ | _, .routine | _, .wake | _, .delNext _
  | _, .destroyNext => .isTrue trivial

instance : (state : Except Fault (IoLayer β)) → (action : Action β) →
    Decidable (WakeupGuard state action)
  | .error _, _ => .isFalse id
  | .ok layer, .nodifyNext index => inferInstanceAs (Decidable (
      ∀ call ∈ layer.nodifies[index]?, ∀ tmp ∈ layer.ioList, call.phase = .push tmp →
        layer.fdOf tmp = some call.curfd ∨
          (layer.rpcIoFind call.curfd ≠ none ∧ some tmp ∈ layer.signalQueue.items)))
  | .ok layer, .wake => inferInstanceAs (Decidable (layer.signalQueue.items ≠ []))
  | .ok _, .del _ | .ok _, .destroy => .isFalse id
  | .ok _, .add _ | .ok _, .enqueue _ | .ok _, .dispatch _ _ | .ok _, .enqueued _
  | .ok _, .process _ _ | .ok _, .nodify _ _ _ | .ok _, .routine | .ok _, .delNext _
  | .ok _, .destroyNext => .isTrue trivial

/-- A notification that has pushed its packet to the child will signal that child. -/
def Wakes (layer : IoLayer β) (call : Nodify β) (child : Nat) : Prop :=
  (call.phase = .find child ∧ layer.rpcIoFind call.curfd = some child) ∨
    call.phase = .signal child (some child)

/-- As `Pending`, for the signal of the child itself. -/
def Awaited (layer : IoLayer β) (child : Nat) : Prop :=
  some child ∈ layer.signalQueue.items ∨ layer.sender.Drains child ∨
    (∃ task ∈ layer.tasks, task.phase = .signalling ∧ task.child = child) ∨
    ∃ call ∈ layer.nodifies, layer.Wakes call child

/-- A notification will not signal NULL. -/
def Finds (layer : IoLayer β) (call : Nodify β) : Prop :=
  match call.phase with
  | .find _ => layer.rpcIoFind call.curfd ≠ none
  | .signal _ found => found ≠ none
  | _ => True

/-- Nobody has told the sender to stop, and it has not left. -/
def Serving (layer : IoLayer β) : Prop :=
  layer.abort = false ∧ layer.signalQueue.stopSign = false ∧ layer.sender ≠ .exited

/-- What steps that meet the condition keep. -/
structure Awake (layer : IoLayer β) : Prop extends Sound layer where
  running : layer.teardown = .running
  serving : layer.Serving
  noDels : layer.dels = []
  awaited : ∀ child io, layer.heap[child]? = some io → io.send.items ≠ [] → layer.Awaited child
  finds : ∀ call ∈ layer.nodifies, layer.Finds call
  noNull : none ∉ layer.signalQueue.items
  drains : layer.sender ≠ .draining none
  getting : ∀ io child, layer.sender = .getting io child → child = io

theorem Sound.find_self {layer : IoLayer β} (sound : layer.Sound) {child : Nat} {fd : Int}
    (listed : child ∈ layer.ioList) (has : layer.fdOf child = some fd) :
    layer.rpcIoFind fd = some child := by
  cases found : layer.rpcIoFind fd with
  | none => exact absurd has (rpcIoFind_none found listed)
  | some other =>
    obtain ⟨member, same⟩ := rpcIoFind_some found
    rw [List.inj_on_of_nodup_map sound.distinct member listed (same.trans has.symm)]

private theorem rpcIoFind_put {layer : IoLayer β} {child : Nat} {io changed : RpcChild β}
    (allocated : layer.heap[child]? = some io) (fd : changed.fd = io.fd) :
    (layer.put child changed).rpcIoFind = layer.rpcIoFind := by
  funext value
  unfold rpcIoFind
  rw [put_fdOf allocated fd]
  rfl

/-- What one task or call leaves behind does not concern the others. -/
theorem mem_set_of_ne {items : List α} {index : Nat} {item other : α} (changed : α)
    (found : items[index]? = some item) (member : other ∈ items) (differ : other ≠ item) :
    other ∈ items.set index changed := by
  obtain ⟨position, bound, rfl⟩ := List.getElem_of_mem member
  have apart : index ≠ position := by
    rintro rfl
    rw [List.getElem?_eq_getElem bound] at found
    exact differ (Option.some.inj found)
  have kept := List.getElem?_set_ne apart (a := changed) (l := items)
  rw [List.getElem?_eq_getElem bound] at kept
  exact List.mem_of_getElem? kept

private theorem mem_eraseIdx_of_ne {items : List α} {index : Nat} {item other : α}
    (found : items[index]? = some item) (member : other ∈ items) (differ : other ≠ item) :
    other ∈ items.eraseIdx index := by
  obtain ⟨bound, rfl⟩ := List.getElem?_eq_some_iff.mp found
  have split := List.getElem_cons_eraseIdx_perm bound
  exact (List.mem_cons.mp (split.symm.subset member)).resolve_left differ

theorem Wakes.pushed {layer : IoLayer β} {call : Nodify β} {child : Nat}
    (wakes : layer.Wakes call child) : call.phase.pushed = some child := by
  rcases wakes with ⟨phase, _⟩ | phase <;> simp [phase, NodifyPhase.pushed]

/-- A call without a packet to signal is not the one that wakes the sender. -/
theorem Wakes.ne {layer : IoLayer β} {call other : Nodify β} {child : Nat}
    (wakes : layer.Wakes other child) (unpushed : call.phase.pushed = none) : other ≠ call := by
  rintro rfl
  rw [wakes.pushed] at unpushed
  cases unpushed

/-- A call goes on to a phase in which it will not signal NULL. -/
theorem finds_set {layer : IoLayer β} {index : Nat} {call : Nodify β} (finds : layer.Finds call) :
    ∀ other ∈ layer.nodifies.set index call, other ∈ layer.nodifies ∨ layer.Finds other := by
  intro other present
  rcases List.mem_or_eq_of_mem_set present with old | rfl
  · exact .inl old
  · exact .inr finds

/-- What the sender does in a step, as long as it serves. -/
inductive RoutineStep (layer : IoLayer β) : IoLayer β → Prop
  | wait : layer.sender = .head → RoutineStep layer { layer with sender := .waiting }
  | take {io : Nat} {items : List (Option Nat)} :
      layer.sender = .waiting → layer.signalQueue.items = some io :: items →
      RoutineStep layer { layer with
        signalQueue := { layer.signalQueue with items }, sender := .draining (some io) }
  | find {io : Nat} : layer.sender = .draining (some io) →
      RoutineStep layer { layer with sender := .getting io io }
  | finish {io : Nat} {child : RpcChild β} :
      layer.sender = .getting io io → layer.heap[io]? = some child → child.send.items = [] →
      RoutineStep layer { layer with sender := .head }
  | get {io : Nat} {child : RpcChild β} {out : β} {items : List β} :
      layer.sender = .getting io io → layer.heap[io]? = some child → child.send.items = out :: items →
      RoutineStep layer { layer.put io { child with send := { child.send with items } } with
        sender := .sending io out }
  | send {io : Nat} {child : RpcChild β} {out : β} :
      layer.sender = .sending io out → layer.heap[io]? = some child →
      RoutineStep layer { layer with
        sender := .draining (some io), sent := layer.sent ++ [(child.fd, out)] }

namespace Awake
variable {layer : IoLayer β} (awake : layer.Awake)
include awake

/-- Nothing has been freed. -/
theorem guard (action : Action β) (met : WakeupGuard (.ok layer) action) :
    LifetimeGuard (.ok layer) action := by
  cases action with
  | del fd => exact met.elim
  | destroy => exact met.elim
  | add fd => exact awake.running
  | enqueue fd => exact awake.running
  | nodify curfd notifyType packet => exact awake.running
  | _ => trivial

private theorem add_awake (fd : Int) : (layer.rpcIoAdd fd).Awake := by
  have sound := add_kept awake.toSound awake.running fd
  unfold rpcIoAdd at sound ⊢
  split
  · rename_i absent
    rw [absent] at sound
    -- what is found before is found after
    have stays {value : Int} {child : Nat} (found : layer.rpcIoFind value = some child) :
        rpcIoFind { layer with
          heap := layer.heap ++ [⟨fd, rpcQueueNew, false⟩]
          ioList := layer.ioList ++ [layer.heap.length] } value = some child := by
      obtain ⟨listed, has⟩ := rpcIoFind_some found
      obtain ⟨io, allocated, _⟩ := awake.alive child listed
      refine sound.find_self (List.mem_append_left _ listed) ?_
      simp only [fdOf, List.getElem?_append_left (List.getElem?_eq_some_iff.mp allocated).1]
      exact has
    exact { sound with
      running := awake.running
      serving := awake.serving
      noDels := awake.noDels
      awaited := by
        intro child io allocated waiting
        rcases getElem?_grown allocated with before | ⟨_, rfl⟩
        · rcases awake.awaited child io before waiting with signal | drains | task | call
          · exact .inl signal
          · exact .inr (.inl drains)
          · exact .inr (.inr (.inl task))
          · obtain ⟨call, member, wakes⟩ := call
            refine .inr (.inr (.inr ⟨call, member, ?_⟩))
            rcases wakes with ⟨phase, found⟩ | phase
            · exact .inl ⟨phase, stays found⟩
            · exact .inr phase
        · -- the queue of the new child is empty
          exact absurd rfl waiting
      finds := by
        intro call member
        have finds := awake.finds call member
        unfold Finds at finds ⊢
        split at finds
        · obtain ⟨child, found⟩ := Option.ne_none_iff_exists'.mp finds
          rw [stays found]
          simp
        · exact finds
        · trivial
      noNull := awake.noNull
      drains := awake.drains
      getting := awake.getting }
  · exact awake

/-- A step of a producer: what it takes away from the tasks and calls that are to
signal, it gives to the signal queue, and new packets come with a signal to be pushed. -/
theorem produced {after : IoLayer β} (sound : after.Sound)
    (running : after.teardown = layer.teardown) (serving : after.Serving) (dels : after.dels = layer.dels)
    (sender : after.sender = layer.sender) (find : after.rpcIoFind = layer.rpcIoFind)
    (queued : ∀ child io, after.heap[child]? = some io → io.send.items ≠ [] →
      after.Awaited child ∨ ∃ old, layer.heap[child]? = some old ∧ old.send.items ≠ [])
    (signals : ∀ signal ∈ layer.signalQueue.items, signal ∈ after.signalQueue.items)
    (noNull : none ∉ after.signalQueue.items)
    (tasks : ∀ task ∈ layer.tasks, task.phase = .signalling →
      task ∈ after.tasks ∨ some task.child ∈ after.signalQueue.items)
    (calls : ∀ call ∈ layer.nodifies, ∀ child, layer.Wakes call child →
      call ∈ after.nodifies ∨ after.Awaited child)
    (finds : ∀ call ∈ after.nodifies, call ∈ layer.nodifies ∨ after.Finds call) :
    after.Awake :=
  { sound with
    running := running.trans awake.running
    serving := serving
    noDels := dels.trans awake.noDels
    awaited := by
      intro child io allocated waiting
      rcases queued child io allocated waiting with fresh | ⟨old, before, filled⟩
      · exact fresh
      rcases awake.awaited child old before filled with signal | drains | task | call
      · exact .inl (signals _ signal)
      · exact .inr (.inl (sender ▸ drains))
      · obtain ⟨task, member, phase, rfl⟩ := task
        rcases tasks task member phase with stays | signal
        · exact .inr (.inr (.inl ⟨task, stays, phase, rfl⟩))
        · exact .inl signal
      · obtain ⟨call, member, wakes⟩ := call
        rcases calls call member child wakes with stays | elsewhere
        · exact .inr (.inr (.inr ⟨call, stays, by simpa only [Wakes, find] using wakes⟩))
        · exact elsewhere
    finds := by
      intro call member
      rcases finds call member with old | new
      · have finds := awake.finds call old
        simpa only [Finds, find] using finds
      · exact new
    noNull := noNull
    drains := by
      rw [sender]
      exact awake.drains
    getting := by
      rw [sender]
      exact awake.getting }

private theorem retask_awake {tasks : List PoolTask} (sound : Sound { layer with tasks })
    (stay : ∀ task ∈ layer.tasks, task.phase = .signalling → task ∈ tasks) :
    Awake { layer with tasks } :=
  awake.produced sound rfl awake.serving rfl rfl rfl (fun _ io allocated waiting => .inr ⟨io, allocated, waiting⟩)
    (fun _ member => member) awake.noNull (fun task member phase => .inl (stay task member phase))
    (fun _ member _ _ => .inl member) (fun _ member => .inl member)

private theorem renodify_awake {nodifies : List (Nodify β)} (sound : Sound { layer with nodifies })
    (stay : ∀ call ∈ layer.nodifies, ∀ child, layer.Wakes call child →
      call ∈ nodifies ∨ Awaited { layer with nodifies } child)
    (finds : ∀ call ∈ nodifies, call ∈ layer.nodifies ∨ layer.Finds call) :
    Awake { layer with nodifies } :=
  awake.produced sound rfl awake.serving rfl rfl rfl (fun _ io allocated waiting => .inr ⟨io, allocated, waiting⟩)
    (fun _ member => member) awake.noNull (fun _ member _ => .inl member) stay finds

theorem process_awake {index : Nat} {task : PoolTask} (found : layer.tasks[index]? = some task)
    (answer : β) : ∃ after, layer.rpcIoProcessor index task answer = .ok after ∧ after.Awake := by
  have kept := awake.toSound.process_kept awake.running found answer
  have live := awake.toSound.live awake.running
  have listed := awake.tasks task (List.mem_of_getElem? found)
  obtain ⟨io, allocated, _, alive, queue⟩ := awake.toSound.listed listed
  let taken : IoLayer β := { layer with tasks := layer.tasks.eraseIdx index }
  let moved : IoLayer β :=
    { layer with tasks := layer.tasks.set index { task with phase := .signalling } }
  have signalled :
      ∃ after, taken.signal (some task.child) = .ok after ∧ (after.Sound → after.Awake) := by
    have done := signal_ok (show taken.signalQueue.destroyed = false from live) (some task.child)
    refine ⟨_, done, fun sound => ?_⟩
    refine awake.produced sound rfl awake.serving rfl rfl rfl
      (fun _ io allocated waiting => .inr ⟨io, allocated, waiting⟩)
      (fun _ member => List.mem_append_left _ member) ?_ ?_
      (fun _ member _ _ => .inl member) (fun _ member => .inl member)
    · simpa using awake.noNull
    · intro other member phase
      by_cases same : other = task
      · exact .inr (by simp [same])
      · exact .inl (mem_eraseIdx_of_ne found member same)
  unfold rpcIoProcessor at kept ⊢
  cases phase : task.phase with
  | queued =>
    simp only [phase] at kept ⊢
    refine ⟨_, rfl, awake.retask_awake kept ?_⟩
    intro other member signalling
    refine mem_set_of_ne _ found member ?_
    rintro rfl
    rw [phase] at signalling
    cases signalling
  | running =>
    simp only [phase] at kept ⊢
    split
    · rename_i post
      rw [if_pos post] at kept
      obtain ⟨after, done, rest⟩ := signalled
      rw [done] at kept
      exact ⟨after, done, rest kept⟩
    · rename_i post
      rw [if_neg post] at kept
      have pushed := pushSend_ok (show moved.heap[task.child]? = some io from allocated) alive queue
        answer
      simp only [moved] at pushed
      rw [pushed] at kept ⊢
      refine ⟨_, rfl, awake.produced kept rfl awake.serving rfl rfl (rpcIoFind_put allocated rfl) ?_
        (fun _ member => member) awake.noNull ?_ (fun _ member _ _ => .inl member)
        (fun _ member => .inl member)⟩
      · intro child changed there waiting
        by_cases same : task.child = child
        · refine .inl (.inr (.inr (.inl ⟨{ task with phase := .signalling }, ?_, rfl, same⟩)))
          exact List.mem_set (List.getElem?_eq_some_iff.mp found).1 _
        · exact .inr ⟨changed, (put_other _ same).symm.trans there, waiting⟩
      · intro other member signalling
        refine .inl (mem_set_of_ne _ found member ?_)
        rintro rfl
        rw [phase] at signalling
        cases signalling
  | signalling =>
    simp only [phase] at kept ⊢
    obtain ⟨after, done, rest⟩ := signalled
    rw [done] at kept
    exact ⟨after, done, rest kept⟩

private theorem nodify_awake (curfd : Int) (notifyType : NotifyType) (packet : β) :
    Awake { layer with
      nodifies := layer.nodifies ++ [⟨curfd, notifyType, packet, .next none⟩] } := by
  refine awake.renodify_awake (awake.toSound.nodify_kept awake.running _ _ _)
    (fun _ member _ _ => .inl (List.mem_append_left _ member)) ?_
  intro call member
  rcases List.mem_append.mp member with old | new
  · exact .inl old
  · rw [List.mem_singleton.mp new]
    exact .inr trivial

private theorem visit_awake {index : Nat} {call : Nodify β} (found : layer.nodifies[index]? = some call)
    {last : Option Nat} (phase : call.phase = .next last) :
    ∃ after, layer.rpcIoNodifyFd index call = .ok after ∧ after.Awake := by
  have kept := awake.toSound.nodifyNext_kept awake.running found
  have held := awake.nodifies call (List.mem_of_getElem? found)
  rw [phase] at held
  have unpushed : call.phase.pushed = none := by
    rw [phase]
    rfl
  have visited : ∀ child ∈ last, child ∈ layer.ioList :=
    fun child inside => held child (Option.mem_toList.mpr inside)
  obtain ⟨pos, next, listed⟩ := awake.toSound.listForEach_listed visited
  unfold rpcIoNodifyFd at kept ⊢
  simp only [phase, next, bind, Except.bind] at kept ⊢
  cases pos with
  | none =>
    exact ⟨_, rfl, awake.renodify_awake kept
      (fun other present child wakes => .inl (mem_eraseIdx_of_ne found present (wakes.ne unpushed)))
      (fun other present => .inl (List.mem_of_mem_eraseIdx present))⟩
  | some tmp =>
    obtain ⟨io, _, deref, _⟩ := awake.toSound.listed (listed tmp rfl)
    simp only [deref] at kept ⊢
    refine ⟨_, rfl, awake.renodify_awake kept
      (fun other present child wakes => .inl (mem_set_of_ne _ found present (wakes.ne unpushed)))
      (finds_set ?_)⟩
    split <;> trivial

private theorem push_awake {index : Nat} {call : Nodify β} (found : layer.nodifies[index]? = some call)
    {tmp : Nat} (phase : call.phase = .push tmp)
    (met : WakeupGuard (.ok layer) (.nodifyNext index)) :
    ∃ after, layer.rpcIoNodifyFd index call = .ok after ∧ after.Awake := by
  have kept := awake.toSound.nodifyNext_kept awake.running found
  have held := awake.nodifies call (List.mem_of_getElem? found)
  rw [phase] at held
  have listed := held tmp (List.mem_singleton_self tmp)
  have unpushed : call.phase.pushed = none := by
    rw [phase]
    rfl
  obtain ⟨io, allocated, _, alive, queue⟩ := awake.toSound.listed listed
  let moved : IoLayer β :=
    { layer with nodifies := layer.nodifies.set index { call with phase := .find tmp } }
  have pushed := pushSend_ok (show moved.heap[tmp]? = some io from allocated) alive queue
    call.packet
  have entered : { call with phase := .find tmp } ∈ moved.nodifies :=
    List.mem_set (List.getElem?_eq_some_iff.mp found).1 _
  unfold rpcIoNodifyFd at kept ⊢
  simp only [phase] at kept ⊢
  change Kept (moved.pushSend tmp call.packet) at kept
  change ∃ after, moved.pushSend tmp call.packet = .ok after ∧ after.Awake
  rw [pushed] at kept ⊢
  let filled : RpcChild β :=
    { io with send := { io.send with items := io.send.items ++ [call.packet] } }
  have find : (moved.put tmp filled).rpcIoFind = layer.rpcIoFind :=
    rpcIoFind_put (show moved.heap[tmp]? = some io from allocated) rfl
  have curfd : layer.rpcIoFind call.curfd ≠ none ∧
      (layer.rpcIoFind call.curfd = some tmp ∨ some tmp ∈ layer.signalQueue.items) := by
    rcases met call found tmp listed phase with own | ⟨present, signal⟩
    · have own := awake.toSound.find_self listed own
      exact ⟨by simp [own], .inl own⟩
    · exact ⟨present, .inr signal⟩
  refine ⟨_, rfl, awake.produced kept rfl awake.serving rfl rfl find ?_ (fun _ present => present) awake.noNull
    (fun _ present _ => .inl present)
    (fun other present child wakes => .inl (mem_set_of_ne _ found present (wakes.ne unpushed))) ?_⟩
  · intro child changed there waiting
    by_cases same : tmp = child
    · subst same
      rcases curfd.2 with own | signal
      · exact .inl (.inr (.inr (.inr ⟨_, entered, .inl ⟨rfl, (congrFun find _).trans own⟩⟩)))
      · exact .inl (.inl signal)
    · exact .inr ⟨changed, (put_other _ same).symm.trans there, waiting⟩
  · intro other present
    rcases List.mem_or_eq_of_mem_set present with old | rfl
    · exact .inl old
    · refine .inr ?_
      have finds : (moved.put tmp filled).rpcIoFind call.curfd ≠ none := by
        rw [find]
        exact curfd.1
      exact finds

/-- What `rpc_io_find` gives is signalled, and the next child is visited. -/
theorem signalled_awake {index : Nat} {call : Nodify β}
    (found : layer.nodifies[index]? = some call) {tmp : Nat} {value : Option Nat}
    (phase : call.phase = .signal tmp value) :
    ∃ after, layer.rpcIoNodifyFd index call = .ok after ∧ after.Awake := by
  have kept := awake.toSound.nodifyNext_kept awake.running found
  have finds := awake.finds call (List.mem_of_getElem? found)
  simp only [Finds, phase] at finds
  let moved : IoLayer β :=
    { layer with nodifies := layer.nodifies.set index { call with phase := .next (some tmp) } }
  have done := signal_ok (show moved.signalQueue.destroyed = false from
    awake.toSound.live awake.running) value
  unfold rpcIoNodifyFd at kept ⊢
  simp only [phase] at kept ⊢
  change Kept (moved.signal value) at kept
  change ∃ after, moved.signal value = .ok after ∧ after.Awake
  rw [done] at kept ⊢
  refine ⟨_, rfl, awake.produced kept rfl awake.serving rfl rfl rfl
    (fun _ io allocated waiting => .inr ⟨io, allocated, waiting⟩)
    (fun _ present => List.mem_append_left _ present) ?_ (fun _ present _ => .inl present) ?_
    (finds_set trivial)⟩
  · intro null
    rcases List.mem_append.mp null with old | new
    · exact awake.noNull old
    · exact finds (List.mem_singleton.mp new).symm
  · intro other present child wakes
    by_cases same : other = call
    · subst same
      rcases wakes with ⟨here, _⟩ | here
      · cases phase.symm.trans here
      · cases phase.symm.trans here
        exact .inr (.inl (List.mem_append_right _ (List.mem_singleton_self _)))
    · exact .inl (mem_set_of_ne _ found present same)

theorem nodifyNext_awake {index : Nat} {call : Nodify β}
    (found : layer.nodifies[index]? = some call)
    (met : WakeupGuard (.ok layer) (.nodifyNext index)) :
    ∃ after, layer.rpcIoNodifyFd index call = .ok after ∧ after.Awake := by
  cases phase : call.phase with
  | next last => exact awake.visit_awake found phase
  | push tmp => exact awake.push_awake found phase met
  | find tmp =>
    have kept := awake.toSound.nodifyNext_kept awake.running found
    have finds := awake.finds call (List.mem_of_getElem? found)
    simp only [Finds, phase] at finds
    unfold rpcIoNodifyFd at kept ⊢
    simp only [phase] at kept ⊢
    refine ⟨_, rfl, awake.renodify_awake kept ?_ (finds_set finds)⟩
    intro other present child wakes
    by_cases same : other = call
    · subst same
      rcases wakes with ⟨here, own⟩ | here
      · have bound := (List.getElem?_eq_some_iff.mp found).1
        refine .inr (.inr (.inr (.inr ⟨_, List.mem_set bound _, .inr ?_⟩)))
        cases phase.symm.trans here
        simp only [own]
      · cases phase.symm.trans here
    · exact .inl (mem_set_of_ne _ found present same)
  | signal tmp value => exact awake.signalled_awake found phase

/-- A step of the sender: it may only leave a child whose queue is empty. -/
theorem consumed {after : IoLayer β} (sound : after.Sound)
    (queued : ∀ (child : Nat) (io : RpcChild β), after.heap[child]? = some io → io.send.items ≠ [] →
      ∃ old : RpcChild β, layer.heap[child]? = some old ∧ old.send.items ≠ [])
    (find : after.rpcIoFind = layer.rpcIoFind) (running : after.teardown = layer.teardown)
    (serving : after.Serving) (dels : after.dels = layer.dels) (tasks : after.tasks = layer.tasks)
    (calls : after.nodifies = layer.nodifies)
    (signals : ∀ child, some child ∈ layer.signalQueue.items →
      some child ∈ after.signalQueue.items ∨ after.sender.Drains child)
    (noNull : none ∉ after.signalQueue.items)
    (drains : ∀ child, layer.sender.Drains child → after.sender.Drains child ∨
      ∀ io, layer.heap[child]? = some io → io.send.items = [])
    (known : after.sender ≠ .draining none)
    (getting : ∀ io child, after.sender = .getting io child → child = io) : after.Awake :=
  { sound with
    running := running.trans awake.running
    serving := serving
    noDels := dels.trans awake.noDels
    awaited := by
      intro child io allocated waiting
      obtain ⟨old, before, filled⟩ := queued child io allocated waiting
      rcases awake.awaited child old before filled with signal | draining | task | call
      · rcases signals child signal with stays | taken
        · exact .inl stays
        · exact .inr (.inl taken)
      · rcases drains child draining with goes_on | empty
        · exact .inr (.inl goes_on)
        · exact absurd (empty old before) filled
      · exact .inr (.inr (.inl (tasks ▸ task)))
      · refine .inr (.inr (.inr ?_))
        rw [calls]
        simpa only [Wakes, find] using call
    finds := by
      intro call member
      rw [calls] at member
      have finds := awake.finds call member
      simpa only [Finds, find] using finds
    noNull := noNull
    drains := known
    getting := getting }

private theorem resend_awake {signalQueue : RpcQueue (Option Nat)} {sender : Sender β}
    {sent : List (Int × β)} (sound : Sound { layer with signalQueue, sender, sent })
    (stays : signalQueue.stopSign = layer.signalQueue.stopSign ∧ sender ≠ .exited)
    (signals : ∀ child, some child ∈ layer.signalQueue.items →
      some child ∈ signalQueue.items ∨ sender.Drains child)
    (noNull : none ∉ signalQueue.items)
    (drains : ∀ child, layer.sender.Drains child → sender.Drains child ∨
      ∀ io, layer.heap[child]? = some io → io.send.items = [])
    (known : sender ≠ .draining none) (getting : ∀ io child, sender = .getting io child → child = io) :
    Awake { layer with signalQueue, sender, sent } :=
  awake.consumed sound (fun _ io allocated waiting => ⟨io, allocated, waiting⟩) rfl rfl
    ⟨awake.serving.1, stays.1.trans awake.serving.2.1, stays.2⟩ rfl rfl rfl signals noNull drains
    known getting

theorem routine_cases {after : Except Fault (IoLayer β)} (step : layer.rpcIoRoutine = some after) :
    ∃ next, after = .ok next ∧ layer.RoutineStep next := by
  cases stage : layer.sender with
  | head =>
    have goesOn : (if layer.abort then Sender.exited else .waiting : Sender β) = .waiting :=
      if_neg (by simp [awake.serving.1])
    simp only [rpcIoRoutine, stage, goesOn] at step
    exact ⟨_, (Option.some.inj step).symm, .wait stage⟩
  | waiting =>
    simp only [rpcIoRoutine, stage] at step
    rcases rpcQueueGet_ok (awake.toSound.live awake.running) with
      ⟨_, got⟩ | ⟨io, items, queued, got⟩
    · rw [got, awake.serving.2.1] at step
      cases step
    · rw [got] at step
      cases io with
      | none => exact absurd (queued ▸ List.mem_cons_self) awake.noNull
      | some io => exact ⟨_, (Option.some.inj step).symm, .take stage queued⟩
  | draining io =>
    cases io with
    | none => exact absurd stage awake.drains
    | some io =>
      have listed := awake.sender io (by simp [stage, Sender.held])
      obtain ⟨child, allocated, deref, _⟩ := awake.toSound.listed listed
      have self : layer.rpcIoFind child.fd = some io :=
        awake.toSound.find_self listed (by simp [fdOf, allocated])
      simp only [rpcIoRoutine, stage, deref, self, bind, Except.bind] at step
      exact ⟨_, (Option.some.inj step).symm, .find stage⟩
  | getting io found =>
    obtain rfl := awake.getting io found stage
    have listed := awake.sender found (by simp [stage, Sender.held])
    obtain ⟨child, allocated, deref, live, queue⟩ := awake.toSound.listed listed
    simp only [rpcIoRoutine, stage] at step
    rcases rpcQueueGet_ok queue with ⟨empty, got⟩ | ⟨out, items, filled, got⟩
    · simp only [deref, got, bind, Except.bind] at step
      exact ⟨_, (Option.some.inj step).symm, .finish stage allocated empty⟩
    · simp only [deref, got, bind, Except.bind] at step
      exact ⟨_, (Option.some.inj step).symm, .get stage allocated filled⟩
  | sending io out =>
    have listed := awake.sender io (by simp [stage, Sender.held])
    obtain ⟨child, allocated, deref, _⟩ := awake.toSound.listed listed
    simp only [rpcIoRoutine, stage, deref, bind, Except.bind] at step
    exact ⟨_, (Option.some.inj step).symm, .send stage allocated⟩
  | exited => exact absurd stage awake.serving.2.2

theorem routine_awake {after : Except Fault (IoLayer β)} (step : layer.rpcIoRoutine = some after) :
    ∃ next, after = .ok next ∧ next.Awake := by
  obtain ⟨next, rfl, moved⟩ := awake.routine_cases step
  have kept := routine_kept awake.toSound step
  refine ⟨next, rfl, ?_⟩
  cases moved with
  | wait stage =>
    refine awake.resend_awake kept ⟨rfl, nofun⟩ (fun _ queued => .inl queued) awake.noNull ?_ nofun nofun
    intro child draining
    rw [stage] at draining
    exact draining.elim
  | take stage queued =>
    have noNull := awake.noNull
    rw [queued, List.mem_cons, not_or] at noNull
    refine awake.resend_awake kept ⟨rfl, nofun⟩ ?_ noNull.2 ?_ nofun nofun
    · intro child signal
      rw [queued] at signal
      rcases List.mem_cons.mp signal with first | later
      · exact .inr first.symm
      · exact .inl later
    · intro child draining
      rw [stage] at draining
      exact draining.elim
  | find stage =>
    refine awake.resend_awake kept ⟨rfl, nofun⟩ (fun _ queued => .inl queued) awake.noNull ?_ nofun ?_
    · intro other draining
      rw [stage] at draining
      exact .inl (Option.some.inj draining)
    · rintro _ _ ⟨⟩
      rfl
  | @finish io child stage allocated empty =>
    refine awake.resend_awake kept ⟨rfl, nofun⟩ (fun _ queued => .inl queued) awake.noNull ?_ nofun nofun
    intro other draining
    rw [stage] at draining
    obtain rfl : io = other := draining
    refine .inr fun held there => ?_
    obtain rfl := Option.some.inj (allocated.symm.trans there)
    exact empty
  | @get io child out items stage allocated filled =>
    refine awake.consumed kept ?_ (rpcIoFind_put allocated rfl) rfl
      ⟨awake.serving.1, awake.serving.2.1, nofun⟩ rfl rfl rfl (fun _ queued => .inl queued)
      awake.noNull ?_ nofun nofun
    · intro other held there waiting
      by_cases here : io = other
      · subst here
        exact ⟨child, allocated, by simp [filled]⟩
      · exact ⟨held, (put_other _ here).symm.trans there, waiting⟩
    · intro other draining
      rw [stage] at draining
      exact .inl draining
  | send stage allocated =>
    refine awake.resend_awake kept ⟨rfl, nofun⟩ (fun _ queued => .inl queued) awake.noNull ?_ nofun nofun
    intro other draining
    rw [stage] at draining
    exact .inl (congrArg some draining)

private theorem not_woken (met : WakeupGuard (.ok layer) .wake) : layer.rpcIoRoutineWoken = none := by
  unfold rpcIoRoutineWoken
  split
  · apply if_neg
    rintro (stopped | nothing)
    · rw [awake.serving.2.1] at stopped
      cases stopped
    · exact met nothing
  · rfl

theorem next_awake {action : Action β} (met : WakeupGuard (.ok layer) action)
    {after : Except Fault (IoLayer β)} (step : layer.next action = some after) :
    ∃ next, after = .ok next ∧ next.Awake := by
  have sound := awake.toSound
  have running := awake.running
  cases action with
  | add fd =>
    obtain rfl := Option.some.inj step
    exact ⟨_, rfl, awake.add_awake fd⟩
  | enqueue fd =>
    obtain ⟨child, found, rfl⟩ := Option.map_eq_some_iff.mp step
    exact ⟨_, rfl, { awake with toSound := sound.enqueue_kept running found }⟩
  | dispatch index post =>
    obtain ⟨child, found, rfl⟩ := Option.map_eq_some_iff.mp step
    have listed := sound.enqueues child (List.mem_of_getElem? found)
    have kept := sound.dispatch_kept running listed post
    obtain ⟨io, _, deref, _⟩ := sound.listed listed
    simp only [rpcIoRequestDispatcher, deref, bind, Except.bind, pure, Except.pure] at kept ⊢
    refine ⟨_, rfl, ?_⟩
    split
    · exact awake
    · rename_i pool
      rw [if_neg pool] at kept
      exact awake.retask_awake kept fun task member _ => List.mem_append_left _ member
  | enqueued index =>
    obtain ⟨child, found, rfl⟩ := Option.map_eq_some_iff.mp step
    obtain ⟨io, _, deref, _⟩ := sound.listed (sound.enqueues child (List.mem_of_getElem? found))
    simp only [deref, bind, Except.bind]
    exact ⟨_, rfl, { awake with toSound := sound.enqueued_kept running index }⟩
  | process index answer =>
    obtain ⟨task, found, step⟩ := Option.bind_eq_some_iff.mp step
    split at step
    · obtain rfl := Option.some.inj step
      exact awake.process_awake found answer
    · cases step
  | nodify curfd notifyType packet =>
    obtain rfl := Option.some.inj step
    exact ⟨_, rfl, awake.nodify_awake curfd notifyType packet⟩
  | nodifyNext index =>
    obtain ⟨call, found, rfl⟩ := Option.map_eq_some_iff.mp step
    exact awake.nodifyNext_awake found met
  | routine => exact awake.routine_awake step
  | wake =>
    obtain ⟨next, woken, rfl⟩ := Option.map_eq_some_iff.mp step
    rw [awake.not_woken met] at woken
    cases woken
  | del fd => exact met.elim
  | delNext index => simp [IoLayer.next, awake.noDels] at step
  | destroy => exact met.elim
  | destroyNext => simp [IoLayer.next, rpcIoDestroyNext, running] at step

end Awake

theorem Awaited.pending {layer : IoLayer β} {child : Nat} (awaited : layer.Awaited child) :
    layer.Pending child := by
  rcases awaited with signal | drains | task | ⟨call, member, wakes⟩
  · exact .inl signal
  · exact .inr (.inl drains)
  · exact .inr (.inr (.inl task))
  · exact .inr (.inr (.inr ⟨call, member, wakes.pushed⟩))

theorem awake_init (processors : Nat) : (init processors : IoLayer β).Awake :=
  { sound_init processors with
    running := rfl
    serving := ⟨rfl, rfl, nofun⟩
    noDels := rfl
    awaited := by simp [init]
    finds := by simp [init]
    noNull := by simp [init, rpcQueueNew]
    drains := nofun
    getting := nofun }

end IoLayer
end Livezure.Rpc
