import Livezure.Rpc.IoLayer
import Mathlib.Data.List.Perm.Basic

/-! Who may use a child: while it is torn down, by `rpc_io_del` or by
`rpc_io_destroy`, no thread and no queue may hold it. -/
namespace Livezure.Rpc
open Livezure.Core

/-- The children that a thread uses. -/
def Sender.held : Sender β → List Nat
  | .draining io => io.toList
  | .getting io child => [io, child]
  | .sending io _ => [io]
  | _ => []

def NodifyPhase.held : NodifyPhase → List Nat
  | .next last => last.toList
  | .push tmp => [tmp]
  | .find tmp => [tmp]
  | .signal tmp found => tmp :: found.toList

def Teardown.joined : Teardown → Bool
  | .drain | .destroyQueue | .killPool | .joinPool | .done => true
  | _ => false

def Teardown.queueGone : Teardown → Bool
  | .killPool | .joinPool | .done => true
  | _ => false

namespace IoLayer
variable {β : Type}

/-- A task, an entry of the signal queue or a thread has the child. -/
def Held (layer : IoLayer β) (child : Nat) : Prop :=
  (∃ task ∈ layer.tasks, task.child = child) ∨ some child ∈ layer.signalQueue.items ∨
    child ∈ layer.sender.held ∨ child ∈ layer.enqueues ∨
    ∃ call ∈ layer.nodifies, child ∈ call.phase.held

/-- Nothing is under way: no task, no signal and no call, and the sender waits. -/
def Quiet (layer : IoLayer β) : Prop :=
  layer.tasks = [] ∧ layer.signalQueue.items = [] ∧ layer.sender.held = [] ∧
    layer.enqueues = [] ∧ layer.nodifies = [] ∧ layer.dels = []

instance (layer : IoLayer β) (child : Nat) : Decidable (layer.Held child) :=
  inferInstanceAs (Decidable (_ ∨ _))

instance (layer : IoLayer β) : Decidable layer.Quiet :=
  inferInstanceAs (Decidable (_ ∧ _))

/-- A child of a task or of the signal queue is in the list, and no step uses a
child or a queue after it was freed or destroyed. -/
def ChildrenListed : Except Fault (IoLayer β) → Prop
  | .error fault => fault ≠ .useAfterFree
  | .ok layer => (∀ task ∈ layer.tasks, task.child ∈ layer.ioList) ∧
      ∀ child, some child ∈ layer.signalQueue.items → child ∈ layer.ioList

/-- When teardown is safe: `rpc_io_del` only while nothing has its child,
`rpc_io_destroy` only while nothing is under way, and no call after it. -/
def LifetimeGuard : Except Fault (IoLayer β) → Action β → Prop
  | .error _, _ => False
  | .ok layer, .del fd =>
    layer.teardown = .running ∧ ∀ child ∈ layer.rpcIoFind fd, ¬ layer.Held child
  | .ok layer, .destroy => layer.Quiet
  | .ok layer, .add _ => layer.teardown = .running
  | .ok layer, .enqueue _ => layer.teardown = .running
  | .ok layer, .nodify _ _ _ => layer.teardown = .running
  | .ok _, _ => True

instance (state : Except Fault (IoLayer β)) (action : Action β) :
    Decidable (LifetimeGuard state action) := by
  cases state with
  | error fault => exact .isFalse id
  | ok layer => cases action <;> unfold LifetimeGuard <;> infer_instance

/-- A child that is still to be freed by the one who unlinked it. -/
def Open (layer : IoLayer β) (child : Nat) (closing : Closing) : Prop :=
  ∃ io, layer.heap[child]? = some io ∧ io.freed = false ∧
    (closing ≠ .free → io.send.destroyed = false)

/-- The walk over the list has its two positions at the list's head. -/
def WalkHeld (layer : IoLayer β) : Prop :=
  match layer.teardown with
  | .unlink pos next => ∃ rest, layer.ioList = pos :: rest ∧ next = rest.head?
  | .close pos next closing =>
    next = layer.ioList.head? ∧ pos ∉ layer.ioList ∧ layer.Open pos closing
  | _ => True

/-- Nothing moves while `rpc_io_destroy` runs, apart from the sender on its way out. -/
structure TeardownHeld (layer : IoLayer β) : Prop where
  quiet : layer.teardown ≠ .running → layer.Quiet
  live : layer.teardown.queueGone = false → layer.signalQueue.destroyed = false
  left : layer.teardown.joined = true → layer.sender = .exited
  walk : layer.WalkHeld

/-- The list is sound, and whatever is held is in it. -/
structure Linked (layer : IoLayer β) : Prop where
  alive : ∀ child ∈ layer.ioList, ∃ io, layer.heap[child]? = some io ∧ io.freed = false ∧
    io.send.destroyed = false
  distinct : (layer.ioList.map layer.fdOf).Nodup
  tasks : ∀ task ∈ layer.tasks, task.child ∈ layer.ioList
  signals : ∀ child, some child ∈ layer.signalQueue.items → child ∈ layer.ioList
  sender : ∀ child ∈ layer.sender.held, child ∈ layer.ioList
  enqueues : ∀ child ∈ layer.enqueues, child ∈ layer.ioList
  nodifies : ∀ call ∈ layer.nodifies, ∀ child ∈ call.phase.held, child ∈ layer.ioList
  unlinked : ∀ call ∈ layer.dels, call.child ∉ layer.ioList ∧ layer.Open call.child call.closing
  deleted : (layer.dels.map RpcIoDel.child).Nodup

/-- What guarded steps keep. -/
structure Sound (layer : IoLayer β) : Prop extends Linked layer where
  teardown : layer.TeardownHeld

/-- A step keeps the invariant, or the sender dies on a NULL signal. -/
def Kept : Except Fault (IoLayer β) → Prop
  | .ok layer => layer.Sound
  | .error fault => fault = .nullPointer

theorem TeardownHeld.of_running {layer : IoLayer β} (running : layer.teardown = .running)
    (live : layer.signalQueue.destroyed = false) : layer.TeardownHeld where
  quiet := fun started => absurd running started
  live := fun _ => live
  left := fun joined => by simp [running, Teardown.joined] at joined
  walk := by simp [WalkHeld, running]

namespace Sound
variable {layer : IoLayer β} (sound : layer.Sound)
include sound

theorem live (running : layer.teardown = .running) : layer.signalQueue.destroyed = false :=
  sound.teardown.live (by simp [running, Teardown.queueGone])

theorem nodup : layer.ioList.Nodup :=
  List.Pairwise.of_map layer.fdOf (fun _ _ differ same => differ (congrArg layer.fdOf same))
    sound.distinct

theorem listed {child : Nat} (listed : child ∈ layer.ioList) :
    ∃ io, layer.heap[child]? = some io ∧ layer.deref child = .ok io ∧ io.freed = false ∧
      io.send.destroyed = false := by
  obtain ⟨io, allocated, live, queue⟩ := sound.alive child listed
  exact ⟨io, allocated, deref_ok allocated live, live, queue⟩

private theorem signal_kept (running : layer.teardown = .running) (child : Option Nat)
    (listed : ∀ value ∈ child, value ∈ layer.ioList) : Kept (layer.signal child) := by
  rw [signal_ok (sound.live running)]
  exact { sound with
    signals := by
      intro value member
      rcases List.mem_append.mp member with old | new
      · exact sound.signals value old
      · exact listed value (List.mem_singleton.mp new).symm
    teardown := .of_running running (sound.live running) }

end Sound

theorem put_other {layer : IoLayer β} {child other : Nat} (io : RpcChild β)
    (differ : child ≠ other) : (layer.put child io).heap[other]? = layer.heap[other]? :=
  List.getElem?_set_ne differ

theorem put_same {layer : IoLayer β} {child : Nat} {io : RpcChild β} (changed : RpcChild β)
    (allocated : layer.heap[child]? = some io) :
    (layer.put child changed).heap[child]? = some changed :=
  List.getElem?_set_self (List.getElem?_eq_some_iff.mp allocated).1

theorem put_fdOf {layer : IoLayer β} {child : Nat} {io changed : RpcChild β}
    (allocated : layer.heap[child]? = some io) (fd : changed.fd = io.fd) :
    (layer.put child changed).fdOf = layer.fdOf := by
  funext other
  by_cases same : child = other
  · subst same
    simp only [fdOf, put_same changed allocated, allocated, Option.map_some, fd]
  · simp only [fdOf, put_other changed same]

namespace Sound
variable {layer : IoLayer β} (sound : layer.Sound)
include sound

private theorem put_sound {child : Nat} {io changed : RpcChild β} (listed : child ∈ layer.ioList)
    (allocated : layer.heap[child]? = some io) (fd : changed.fd = io.fd)
    (live : changed.freed = false) (queue : changed.send.destroyed = false)
    (running : layer.teardown = .running) : (layer.put child changed).Sound :=
  { sound with
    alive := by
      intro other member
      by_cases same : child = other
      · subst same
        exact ⟨changed, put_same changed allocated, live, queue⟩
      · obtain ⟨found, old, rest⟩ := sound.alive other member
        exact ⟨found, (put_other changed same).trans old, rest⟩
    distinct := by
      rw [put_fdOf allocated fd]
      exact sound.distinct
    unlinked := by
      intro call member
      obtain ⟨away, found, old, rest⟩ := sound.unlinked call member
      have differ : child ≠ call.child := fun same => away (same ▸ listed)
      exact ⟨away, found, (put_other changed differ).trans old, rest⟩
    teardown := .of_running running (sound.live running) }

private theorem pushSend_kept {child : Nat} (listed : child ∈ layer.ioList)
    (running : layer.teardown = .running) (body : β) : Kept (layer.pushSend child body) := by
  obtain ⟨io, allocated, _, live, queue⟩ := sound.listed listed
  rw [pushSend_ok allocated live queue]
  exact sound.put_sound listed allocated rfl live queue running

/-- `list_for_each` goes from children of the list to children of the list. -/
theorem listForEach_listed {last : Option Nat} (listed : ∀ child ∈ last, child ∈ layer.ioList) :
    ∃ pos, layer.listForEach last = .ok pos ∧ ∀ child ∈ pos, child ∈ layer.ioList := by
  cases last with
  | none => exact ⟨_, rfl, fun child first => List.mem_of_head? first⟩
  | some pos =>
    have member := listed pos rfl
    obtain ⟨io, _, deref, _⟩ := sound.listed member
    refine ⟨layer.listNext pos, ?_, fun child next => listNext_mem next⟩
    simp only [listForEach, deref, bind, Except.bind, if_pos member]

end Sound

theorem add_kept {layer : IoLayer β} (sound : layer.Sound) (running : layer.teardown = .running)
    (fd : Int) : (layer.rpcIoAdd fd).Sound := by
  unfold rpcIoAdd
  split
  · rename_i absent
    have allocated {child : Nat} {io : RpcChild β} (found : layer.heap[child]? = some io) :
        (layer.heap ++ [⟨fd, rpcQueueNew, false⟩])[child]? = some io := getElem?_stays found _
    have fresh : (layer.heap ++ [⟨fd, rpcQueueNew, false⟩])[layer.heap.length]? =
        some ⟨fd, rpcQueueNew, false⟩ := by
      simp
    have below {child : Nat} (listed : child ∈ layer.ioList) : child < layer.heap.length := by
      obtain ⟨io, found, _⟩ := sound.alive child listed
      exact (List.getElem?_eq_some_iff.mp found).1
    refine { sound with
      alive := ?_, distinct := ?_, tasks := ?_, signals := ?_, sender := ?_, enqueues := ?_,
      nodifies := ?_, unlinked := ?_, teardown := .of_running running (sound.live running) }
    · intro child member
      rcases List.mem_append.mp member with old | new
      · obtain ⟨io, found, rest⟩ := sound.alive child old
        exact ⟨io, allocated found, rest⟩
      · rw [List.mem_singleton.mp new]
        exact ⟨_, fresh, rfl, rfl⟩
    · have same : ∀ child ∈ layer.ioList,
          (layer.heap ++ [⟨fd, rpcQueueNew, false⟩])[child]?.map RpcChild.fd = layer.fdOf child := by
        intro child listed
        simp only [fdOf, List.getElem?_append_left (below listed)]
      have distinct : (layer.ioList.map fun child =>
          (layer.heap ++ [⟨fd, rpcQueueNew, false⟩])[child]?.map RpcChild.fd).Nodup := by
        rw [List.map_congr_left same]
        exact sound.distinct
      rw [List.map_append]
      refine List.Nodup.append distinct (List.nodup_singleton _) ?_
      intro value old new
      obtain ⟨child, listed, rfl⟩ := List.mem_map.mp old
      have new := (same child listed).symm.trans (List.mem_singleton.mp new)
      exact rpcIoFind_none absent listed (new.trans (congrArg (Option.map RpcChild.fd) fresh))
    · exact fun task member => List.mem_append_left _ (sound.tasks task member)
    · exact fun child member => List.mem_append_left _ (sound.signals child member)
    · exact fun child member => List.mem_append_left _ (sound.sender child member)
    · exact fun child member => List.mem_append_left _ (sound.enqueues child member)
    · exact fun call member child held =>
        List.mem_append_left _ (sound.nodifies call member child held)
    · intro call member
      obtain ⟨away, io, found, rest⟩ := sound.unlinked call member
      refine ⟨?_, io, allocated found, rest⟩
      intro listed
      rcases List.mem_append.mp listed with old | new
      · exact away old
      · have bound := (List.getElem?_eq_some_iff.mp found).1
        rw [List.mem_singleton.mp new] at bound
        exact bound.false
  · exact sound


namespace Sound
variable {layer : IoLayer β} (sound : layer.Sound) (running : layer.teardown = .running)
include sound running

theorem enqueue_kept {fd : Int} {child : Nat} (found : layer.rpcIoFind fd = some child) :
    Sound { layer with enqueues := layer.enqueues ++ [child] } :=
  { sound with
    enqueues := by
      intro other member
      rcases List.mem_append.mp member with old | new
      · exact sound.enqueues other old
      · rw [List.mem_singleton.mp new]
        exact (rpcIoFind_some found).1
    teardown := .of_running running (sound.live running) }

theorem enqueued_kept (index : Nat) :
    Sound { layer with enqueues := layer.enqueues.eraseIdx index } :=
  { sound with
    enqueues := fun child member => sound.enqueues child (List.mem_of_mem_eraseIdx member)
    teardown := .of_running running (sound.live running) }

private theorem retask {tasks : List PoolTask} (listed : ∀ task ∈ tasks, task.child ∈ layer.ioList) :
    Sound { layer with tasks } :=
  { sound with tasks := listed, teardown := .of_running running (sound.live running) }

theorem dispatch_kept {child : Nat} (listed : child ∈ layer.ioList) (post : Bool) :
    Kept (layer.rpcIoRequestDispatcher child post) := by
  obtain ⟨io, _, deref, _⟩ := sound.listed listed
  simp only [rpcIoRequestDispatcher, deref, bind, Except.bind, pure, Except.pure, Kept]
  split
  · exact sound
  · refine sound.retask running ?_
    intro task member
    rcases List.mem_append.mp member with old | new
    · exact sound.tasks task old
    · rw [List.mem_singleton.mp new]
      exact listed

theorem process_kept {index : Nat} {task : PoolTask} (found : layer.tasks[index]? = some task)
    (answer : β) : Kept (layer.rpcIoProcessor index task answer) := by
  have listed := sound.tasks task (List.mem_of_getElem? found)
  have moved (phase : TaskPhase) :
      Sound { layer with tasks := layer.tasks.set index { task with phase } } := by
    refine sound.retask running ?_
    intro other member
    rcases List.mem_or_eq_of_mem_set member with old | rfl
    · exact sound.tasks other old
    · exact listed
  have finished : Sound { layer with tasks := layer.tasks.eraseIdx index } :=
    sound.retask running fun other member => sound.tasks other (List.mem_of_mem_eraseIdx member)
  have signalled : ∀ value ∈ some task.child, value ∈ layer.ioList := by
    rintro _ ⟨⟩
    exact listed
  unfold rpcIoProcessor
  split
  · exact moved .running
  · split
    · exact finished.signal_kept running _ signalled
    · exact (moved .signalling).pushSend_kept listed running answer
  · exact finished.signal_kept running _ signalled

private theorem renodify {nodifies : List (Nodify β)}
    (listed : ∀ call ∈ nodifies, ∀ child ∈ call.phase.held, child ∈ layer.ioList) :
    Sound { layer with nodifies } :=
  { sound with nodifies := listed, teardown := .of_running running (sound.live running) }

theorem nodify_kept (curfd : Int) (notifyType : NotifyType) (packet : β) :
    Sound { layer with
      nodifies := layer.nodifies ++ [⟨curfd, notifyType, packet, .next none⟩] } := by
  refine sound.renodify running ?_
  intro call member child held
  rcases List.mem_append.mp member with old | new
  · exact sound.nodifies call old child held
  · rw [List.mem_singleton.mp new] at held
    cases held

theorem nodifyNext_kept {index : Nat} {call : Nodify β}
    (found : layer.nodifies[index]? = some call) : Kept (layer.rpcIoNodifyFd index call) := by
  have held := sound.nodifies call (List.mem_of_getElem? found)
  have moved (phase : NodifyPhase) (listed : ∀ child ∈ phase.held, child ∈ layer.ioList) :
      Sound { layer with nodifies := layer.nodifies.set index { call with phase } } := by
    refine sound.renodify running ?_
    intro other member
    rcases List.mem_or_eq_of_mem_set member with old | rfl
    · exact sound.nodifies other old
    · exact listed
  unfold rpcIoNodifyFd
  cases phase : call.phase with
  | next last =>
    rw [phase] at held
    have visited : ∀ child ∈ last, child ∈ layer.ioList :=
      fun child member => held child (Option.mem_toList.mpr member)
    obtain ⟨pos, next, listed⟩ := sound.listForEach_listed visited
    simp only [next, bind, Except.bind]
    cases pos with
    | none =>
      exact sound.renodify running fun other member =>
        sound.nodifies other (List.mem_of_mem_eraseIdx member)
    | some tmp =>
      obtain ⟨io, _, deref, _⟩ := sound.listed (listed tmp rfl)
      simp only [deref]
      refine moved _ ?_
      intro child member
      have same : child = tmp := by
        split at member <;> simpa [NodifyPhase.held] using member
      exact same ▸ listed tmp rfl
  | push tmp =>
    rw [phase] at held
    exact (moved (.find tmp) held).pushSend_kept (held tmp (List.mem_singleton_self tmp)) running _
  | find tmp =>
    rw [phase] at held
    refine moved _ ?_
    intro child member
    rcases List.mem_cons.mp member with rfl | member
    · exact held child (List.mem_singleton_self child)
    · exact (rpcIoFind_some (Option.mem_toList.mp member)).1
  | signal tmp found =>
    rw [phase] at held
    have listed : tmp ∈ layer.ioList := held tmp List.mem_cons_self
    refine (moved (.next (some tmp)) ?_).signal_kept running _ ?_
    · intro child member
      rw [List.mem_singleton.mp member]
      exact listed
    · exact fun child member =>
        held child (List.mem_cons_of_mem _ (Option.mem_toList.mpr member))

end Sound

section Routine
variable {layer : IoLayer β} (sound : layer.Sound)
include sound

theorem Sound.running_of_sender {child : Nat} (held : child ∈ layer.sender.held) :
    layer.teardown = .running := by
  by_contra started
  have quiet := (sound.teardown.quiet started).2.2.1
  rw [quiet] at held
  cases held

theorem Sound.running_of_signal {child : Option Nat} (queued : child ∈ layer.signalQueue.items) :
    layer.teardown = .running := by
  by_contra started
  rw [(sound.teardown.quiet started).2.1] at queued
  cases queued

theorem Sound.live_of_sender (present : layer.sender ≠ .exited) :
    layer.signalQueue.destroyed = false := by
  refine sound.teardown.live ?_
  by_contra gone
  refine present (sound.teardown.left ?_)
  cases stage : layer.teardown <;> simp_all [Teardown.queueGone, Teardown.joined]

/-- The sender goes where it holds no child. -/
theorem Sound.leave {sender : Sender β} (present : layer.sender ≠ .exited)
    (free : sender.held = []) : Sound { layer with sender } :=
  { sound with
    sender := by
      intro child member
      rw [free] at member
      cases member
    teardown :=
      { quiet := fun started =>
          have before := sound.teardown.quiet started
          ⟨before.1, before.2.1, free, before.2.2.2⟩
        live := sound.teardown.live
        left := fun joined => absurd (sound.teardown.left joined) present
        walk := sound.teardown.walk } }

theorem Sound.resend {sender : Sender β} (running : layer.teardown = .running)
    (listed : ∀ child ∈ sender.held, child ∈ layer.ioList) : Sound { layer with sender } :=
  { sound with sender := listed, teardown := .of_running running (sound.live running) }

theorem routine_kept {after : Except Fault (IoLayer β)} (step : layer.rpcIoRoutine = some after) :
    Kept after := by
  unfold rpcIoRoutine at step
  cases stage : layer.sender with
  | head =>
    rw [stage] at step
    obtain rfl := Option.some.inj step
    refine sound.leave (by simp [stage]) ?_
    split <;> rfl
  | waiting =>
    rw [stage] at step
    have present : layer.sender ≠ .exited := by simp [stage]
    rcases rpcQueueGet_ok (sound.live_of_sender present) with
      ⟨_, got⟩ | ⟨io, items, queued, got⟩
    · simp only [got] at step
      split at step
      · obtain rfl := Option.some.inj step
        exact sound.leave present rfl
      · cases step
    · simp only [got] at step
      obtain rfl := Option.some.inj step
      have first : io ∈ layer.signalQueue.items := by simp [queued]
      have running := sound.running_of_signal first
      exact { sound with
        signals := fun child member => sound.signals child (by simp [queued, member])
        sender := fun child member =>
          sound.signals child (by rwa [← Option.mem_toList.mp member])
        teardown := .of_running running (sound.live running) }
  | draining io =>
    rw [stage] at step
    cases io with
    | none =>
      obtain rfl := Option.some.inj step
      exact rfl
    | some io =>
      have held : io ∈ layer.sender.held := by simp [stage, Sender.held]
      have listed := sound.sender io held
      have running := sound.running_of_sender held
      obtain ⟨child, _, deref, _⟩ := sound.listed listed
      simp only [deref, bind, Except.bind] at step
      split at step
      · obtain rfl := Option.some.inj step
        exact sound.resend running (by simp [Sender.held])
      · rename_i found there
        obtain rfl := Option.some.inj step
        refine sound.resend running ?_
        intro other member
        rcases List.mem_cons.mp member with rfl | member
        · exact listed
        · rw [List.mem_singleton.mp member]
          exact (rpcIoFind_some there).1
  | getting io found =>
    rw [stage] at step
    have held : found ∈ layer.sender.held := by simp [stage, Sender.held]
    have listed := sound.sender found held
    have listedIo := sound.sender io (by simp [stage, Sender.held])
    have running := sound.running_of_sender held
    obtain ⟨child, allocated, deref, live, queue⟩ := sound.listed listed
    rcases rpcQueueGet_ok queue with ⟨_, got⟩ | ⟨out, items, _, got⟩
    · simp only [deref, got, bind, Except.bind, Option.some.injEq] at step
      obtain rfl := step
      exact sound.resend running (by simp [Sender.held])
    · simp only [deref, got, bind, Except.bind, Option.some.injEq] at step
      obtain rfl := step
      have changed : Sound (layer.put found { child with send := { child.send with items } }) :=
        sound.put_sound listed allocated rfl live queue running
      refine changed.resend running ?_
      intro other member
      rw [List.mem_singleton.mp member]
      exact listedIo
  | sending io out =>
    rw [stage] at step
    have held : io ∈ layer.sender.held := by simp [stage, Sender.held]
    have listed := sound.sender io held
    have running := sound.running_of_sender held
    obtain ⟨child, _, deref, _⟩ := sound.listed listed
    simp only [deref, bind, Except.bind, Option.some.injEq] at step
    obtain rfl := step
    have resent : Sound { layer with sender := Sender.draining (some io) } := by
      refine sound.resend running ?_
      intro other member
      rw [List.mem_singleton.mp member]
      exact listed
    exact { resent with teardown := .of_running running (sound.live running) }
  | exited =>
    rw [stage] at step
    cases step

private theorem wake_kept {after : IoLayer β} (step : layer.rpcIoRoutineWoken = some after) :
    after.Sound := by
  unfold rpcIoRoutineWoken at step
  split at step
  · rename_i stage
    split at step
    · obtain rfl := Option.some.inj step
      exact sound.leave (by simp [stage]) rfl
    · cases step
  · cases step

end Routine

/-- An operation on an unlinked child leaves it open for the next one. -/
theorem closeChild_open {layer : IoLayer β} {child : Nat} {closing : Closing}
    (unlinked : layer.Open child closing) :
    ∃ io changed next, layer.heap[child]? = some io ∧ changed.fd = io.fd ∧
      layer.closeChild child closing = .ok (layer.put child changed, next) ∧
      ∀ following ∈ next, (layer.put child changed).Open child following := by
  obtain ⟨io, allocated, live, queue⟩ := unlinked
  have deref := deref_ok allocated live
  cases closing with
  | stop =>
    have queue := queue (by simp)
    refine ⟨io, { io with send := { io.send with stopSign := true } }, some .drain, allocated, rfl,
      by simp [closeChild, deref, rpcQueueStop, queue, bind, Except.bind, pure, Except.pure], ?_⟩
    rintro _ ⟨⟩
    exact ⟨_, put_same _ allocated, live, fun _ => queue⟩
  | drain =>
    have queue := queue (by simp)
    rcases rpcQueueGet_ok queue with ⟨_, got⟩ | ⟨out, items, _, got⟩
    · refine ⟨io, io, some .destroy, allocated, rfl,
        by simp [closeChild, deref, got, bind, Except.bind, pure, Except.pure], ?_⟩
      rintro _ ⟨⟩
      exact ⟨_, put_same _ allocated, live, fun _ => queue⟩
    · refine ⟨io, { io with send := { io.send with items } }, some .drain, allocated, rfl,
        by simp [closeChild, deref, got, bind, Except.bind, pure, Except.pure], ?_⟩
      rintro _ ⟨⟩
      exact ⟨_, put_same _ allocated, live, fun _ => queue⟩
  | destroy =>
    have queue := queue (by simp)
    refine ⟨io, { io with send := { io.send with stopSign := true, destroyed := true } },
      some .free, allocated, rfl,
      by simp [closeChild, deref, rpcQueueDestroy, queue, bind, Except.bind, pure, Except.pure], ?_⟩
    rintro _ ⟨⟩
    exact ⟨_, put_same _ allocated, live, fun other => absurd rfl other⟩
  | free =>
    refine ⟨io, { io with freed := true }, none, allocated, rfl,
      by simp [closeChild, deref, bind, Except.bind, pure, Except.pure], ?_⟩
    rintro _ ⟨⟩

theorem Linked.of_quiet {layer : IoLayer β} (quiet : layer.Quiet)
    (alive : ∀ child ∈ layer.ioList, ∃ io, layer.heap[child]? = some io ∧ io.freed = false ∧
      io.send.destroyed = false)
    (distinct : (layer.ioList.map layer.fdOf).Nodup) : layer.Linked := by
  obtain ⟨tasks, signals, sender, enqueues, nodifies, dels⟩ := quiet
  constructor
  case alive => exact alive
  case distinct => exact distinct
  all_goals simp [*]

/-- The walk of `rpc_io_destroy` stands before an entry of the list or has come to its end. -/
theorem Linked.destroyLoop_kept {layer : IoLayer β} (linked : layer.Linked) (quiet : layer.Quiet)
    (live : layer.signalQueue.destroyed = false) :
    Kept (layer.destroyLoop layer.ioList.head?) := by
  cases list : layer.ioList with
  | nil =>
    exact { linked with
      teardown := ⟨fun _ => quiet, fun _ => live, nofun, trivial⟩ }
  | cons pos rest =>
    obtain ⟨io, allocated, alive, _⟩ := linked.alive pos (by simp [list])
    have next : layer.listNext pos = rest.head? := by simp [listNext, list]
    simp only [destroyLoop, List.head?_cons, deref_ok allocated alive, bind, Except.bind, next]
    exact { linked with
      teardown :=
        { quiet := fun _ => quiet
          live := fun _ => live
          left := nofun
          walk := ⟨rest, list, rfl⟩ } }

section Teardown
variable {layer : IoLayer β} (sound : layer.Sound)
include sound

theorem Sound.put_away {child : Nat} {io changed : RpcChild β} (away : child ∉ layer.ioList)
    (allocated : layer.heap[child]? = some io) (fd : changed.fd = io.fd) :
    (∀ other ∈ layer.ioList, ∃ io, (layer.put child changed).heap[other]? = some io ∧
      io.freed = false ∧ io.send.destroyed = false) ∧
    (layer.ioList.map (layer.put child changed).fdOf).Nodup := by
  constructor
  · intro other member
    obtain ⟨found, old, rest⟩ := sound.alive other member
    have differ : child ≠ other := fun same => away (same ▸ member)
    exact ⟨found, (put_other changed differ).trans old, rest⟩
  · rw [put_fdOf allocated fd]
    exact sound.distinct

theorem Sound.del_kept (running : layer.teardown = .running) {fd : Int}
    (free : ∀ child ∈ layer.rpcIoFind fd, ¬ layer.Held child) : (layer.rpcIoDel fd).Sound := by
  unfold rpcIoDel
  split
  · exact sound
  · rename_i child found
    have listed := (rpcIoFind_some found).1
    have free := free child found
    have stays {other : Nat} (member : other ∈ layer.ioList) (held : layer.Held other) :
        other ∈ layer.ioList.erase child :=
      (List.mem_erase_of_ne fun same => free (by rwa [← same])).mpr member
    exact {
      alive := fun other member => sound.alive other (List.mem_of_mem_erase member)
      distinct := sound.distinct.sublist ((List.erase_sublist).map _)
      tasks := fun task member => stays (sound.tasks task member) (.inl ⟨task, member, rfl⟩)
      signals := fun other member => stays (sound.signals other member) (.inr (.inl member))
      sender := fun other member => stays (sound.sender other member) (.inr (.inr (.inl member)))
      enqueues := fun other member =>
        stays (sound.enqueues other member) (.inr (.inr (.inr (.inl member))))
      nodifies := fun call member other held =>
        stays (sound.nodifies call member other held)
          (.inr (.inr (.inr (.inr ⟨call, member, held⟩))))
      unlinked := by
        intro call member
        rcases List.mem_append.mp member with old | new
        · obtain ⟨away, unlinked⟩ := sound.unlinked call old
          exact ⟨fun still => away (List.mem_of_mem_erase still), unlinked⟩
        · rw [List.mem_singleton.mp new]
          obtain ⟨io, allocated, live, queue⟩ := sound.alive child listed
          exact ⟨sound.nodup.not_mem_erase, io, allocated, live, fun _ => queue⟩
      deleted := by
        rw [List.map_append]
        refine List.Nodup.append sound.deleted (List.nodup_singleton _) ?_
        intro other old new
        obtain ⟨call, member, rfl⟩ := List.mem_map.mp old
        have new : call.child = child := List.mem_singleton.mp new
        exact (sound.unlinked call member).1 (new ▸ listed)
      teardown := .of_running running (sound.live running) }

theorem Sound.delNext_kept (running : layer.teardown = .running) {index : Nat} {call : RpcIoDel}
    (found : layer.dels[index]? = some call) : Kept (layer.rpcIoDelNext index call) := by
  have member := List.mem_of_getElem? found
  obtain ⟨away, unlinked⟩ := sound.unlinked call member
  obtain ⟨io, changed, next, allocated, fd, closed, following⟩ := closeChild_open unlinked
  obtain ⟨alive, distinct⟩ := sound.put_away away allocated fd
  -- the other calls have other children
  obtain ⟨bound, here⟩ := List.getElem?_eq_some_iff.mp found
  have split : (call :: layer.dels.eraseIdx index).Perm layer.dels :=
    here ▸ List.getElem_cons_eraseIdx_perm bound
  have apart : call.child ∉ (layer.dels.eraseIdx index).map RpcIoDel.child ∧
      ((layer.dels.eraseIdx index).map RpcIoDel.child).Nodup :=
    List.nodup_cons.mp ((split.map RpcIoDel.child).nodup_iff.mpr sound.deleted)
  have others : ∀ other ∈ layer.dels.eraseIdx index, other.child ∉ layer.ioList ∧
      (layer.put call.child changed).Open other.child other.closing := by
    intro other present
    obtain ⟨away, io, old, rest⟩ := sound.unlinked other (List.mem_of_mem_eraseIdx present)
    have differ : call.child ≠ other.child := fun same =>
      apart.1 (same ▸ List.mem_map_of_mem present)
    exact ⟨away, io, (put_other changed differ).trans old, rest⟩
  simp only [rpcIoDelNext, closed, bind, Except.bind]
  cases next with
  | some closing =>
    have moved : (layer.dels.set index { call with closing }).Perm
        ({ call with closing } :: layer.dels.eraseIdx index) :=
      List.set_perm_cons_eraseIdx bound _
    exact { sound with
      alive, distinct
      unlinked := by
        intro other present
        rcases List.mem_cons.mp (moved.subset present) with rfl | old
        · exact ⟨away, following closing rfl⟩
        · exact others other old
      deleted := (moved.map RpcIoDel.child).nodup_iff.mpr (List.nodup_cons.mpr apart)
      teardown := .of_running running (sound.live running) }
  | none =>
    exact { sound with
      alive, distinct
      unlinked := others
      deleted := apart.2
      teardown := .of_running running (sound.live running) }

theorem Sound.unlink_kept {after : Except Fault (IoLayer β)} {pos : Nat} {next : Option Nat}
    (stage : layer.teardown = .unlink pos next) (step : layer.rpcIoDestroyNext = some after) :
    Kept after := by
  have held := sound.teardown
  have quiet : layer.Quiet := held.quiet (by simp [stage])
  have live := held.live (by simp [stage, Teardown.queueGone])
  obtain ⟨rest, list, rfl⟩ : ∃ rest, layer.ioList = pos :: rest ∧ next = rest.head? := by
    simpa only [WalkHeld, stage] using held.walk
  have listed : pos ∈ layer.ioList := by simp [list]
  have erased : layer.ioList.erase pos = rest := by simp [list]
  obtain ⟨io, allocated, alive, queue⟩ := sound.alive pos listed
  simp only [rpcIoDestroyNext, stage, if_pos listed, Option.some.injEq] at step
  obtain rfl := step
  have shorter : Linked { layer with ioList := layer.ioList.erase pos } :=
    .of_quiet quiet (fun other member => sound.alive other (List.mem_of_mem_erase member))
      (sound.distinct.sublist (List.erase_sublist.map _))
  exact { shorter with
    teardown :=
      { quiet := fun _ => quiet
        live := fun _ => live
        left := nofun
        walk := ⟨by rw [← erased], sound.nodup.not_mem_erase, io, allocated, alive,
          fun _ => queue⟩ } }

theorem Sound.close_kept {after : Except Fault (IoLayer β)} {pos : Nat} {next : Option Nat}
    {closing : Closing} (stage : layer.teardown = .close pos next closing)
    (step : layer.rpcIoDestroyNext = some after) : Kept after := by
  have held := sound.teardown
  have quiet : layer.Quiet := held.quiet (by simp [stage])
  have live := held.live (by simp [stage, Teardown.queueGone])
  obtain ⟨rfl, away, unlinked⟩ : next = layer.ioList.head? ∧ pos ∉ layer.ioList ∧
      layer.Open pos closing := by
    simpa only [WalkHeld, stage] using held.walk
  obtain ⟨io, changed, rest, allocated, fd, closed, following⟩ := closeChild_open unlinked
  obtain ⟨alive, distinct⟩ := sound.put_away away allocated fd
  have changed : (layer.put pos changed).Linked := .of_quiet quiet alive distinct
  simp only [rpcIoDestroyNext, stage, closed, bind, Except.bind, Option.some.injEq] at step
  cases rest with
  | some closing =>
    obtain rfl := step
    exact { changed with
      teardown :=
        { quiet := fun _ => quiet
          live := fun _ => live
          left := nofun
          walk := ⟨rfl, away, following closing rfl⟩ } }
  | none =>
    obtain rfl := step
    exact changed.destroyLoop_kept quiet live

theorem Sound.destroyNext_kept {after : Except Fault (IoLayer β)}
    (step : layer.rpcIoDestroyNext = some after) : Kept after := by
  have held := sound.teardown
  have quiet (started : layer.teardown ≠ .running) : layer.Quiet := held.quiet started
  cases stage : layer.teardown with
  | unlink pos next => exact sound.unlink_kept stage step
  | close pos next closing => exact sound.close_kept stage step
  | running =>
    simp only [rpcIoDestroyNext, stage] at step
    cases step
  | abort =>
    have quiet := quiet (by simp [stage])
    have live := held.live (by simp [stage, Teardown.queueGone])
    simp only [rpcIoDestroyNext, stage, Option.some.injEq] at step
    obtain rfl := step
    exact { sound with
      teardown := ⟨fun _ => quiet, fun _ => live, (absurd · Bool.false_ne_true), trivial⟩ }
  | stop =>
    have quiet := quiet (by simp [stage])
    have live := held.live (by simp [stage, Teardown.queueGone])
    simp only [rpcIoDestroyNext, stage, rpcQueueStop, live, bind, Except.bind, Option.some.injEq] at step
    obtain rfl := step
    exact { sound with
      teardown := ⟨fun _ => quiet, fun _ => rfl, (absurd · Bool.false_ne_true), trivial⟩ }
  | join =>
    have quiet := quiet (by simp [stage])
    have live := held.live (by simp [stage, Teardown.queueGone])
    simp only [rpcIoDestroyNext, stage] at step
    split at step
    · rename_i left
      obtain rfl := Option.some.inj step
      exact { sound with
        teardown := ⟨fun _ => quiet, fun _ => live, fun _ => left, trivial⟩ }
    · cases step
  | drain =>
    have quiet := quiet (by simp [stage])
    have live := held.live (by simp [stage, Teardown.queueGone])
    have left := held.left (by simp [stage, Teardown.joined])
    simp only [rpcIoDestroyNext, stage, rpcQueueGet, live, quiet.2.1, bind, Except.bind, Option.some.injEq] at step
    obtain rfl := step
    exact { sound with
      teardown := ⟨fun _ => quiet, fun _ => live, fun _ => left, trivial⟩ }
  | destroyQueue =>
    have quiet := quiet (by simp [stage])
    have live := held.live (by simp [stage, Teardown.queueGone])
    have left := held.left (by simp [stage, Teardown.joined])
    simp only [rpcIoDestroyNext, stage, rpcQueueDestroy, live, bind, Except.bind, Option.some.injEq] at step
    obtain rfl := step
    exact { sound with
      teardown := ⟨fun _ => quiet, (absurd · Bool.false_ne_true.symm), fun _ => left, trivial⟩ }
  | killPool =>
    have quiet := quiet (by simp [stage])
    have left := held.left (by simp [stage, Teardown.joined])
    simp only [rpcIoDestroyNext, stage] at step
    split at step
    · obtain rfl := Option.some.inj step
      exact { sound with
        teardown := ⟨fun _ => quiet, (absurd · Bool.false_ne_true.symm), fun _ => left, trivial⟩ }
    · cases step
  | joinPool =>
    have quiet := quiet (by simp [stage])
    have left := held.left (by simp [stage, Teardown.joined])
    simp only [rpcIoDestroyNext, stage] at step
    split at step
    · obtain rfl := Option.some.inj step
      exact { sound with
        teardown := ⟨fun _ => quiet, (absurd · Bool.false_ne_true.symm), fun _ => left, trivial⟩ }
    · cases step
  | done =>
    simp only [rpcIoDestroyNext, stage] at step
    cases step

end Teardown

theorem Sound.next_kept {layer : IoLayer β} (sound : layer.Sound) {action : Action β}
    (met : LifetimeGuard (.ok layer) action) {after : Except Fault (IoLayer β)}
    (step : layer.next action = some after) : Kept after := by
  by_cases running : layer.teardown = .running
  · cases action with
    | add fd =>
      obtain rfl := Option.some.inj step
      exact add_kept sound running fd
    | enqueue fd =>
      obtain ⟨child, found, rfl⟩ := Option.map_eq_some_iff.mp step
      exact sound.enqueue_kept running found
    | dispatch index post =>
      obtain ⟨child, found, rfl⟩ := Option.map_eq_some_iff.mp step
      exact sound.dispatch_kept running (sound.enqueues child (List.mem_of_getElem? found)) post
    | enqueued index =>
      obtain ⟨child, found, rfl⟩ := Option.map_eq_some_iff.mp step
      obtain ⟨io, _, deref, _⟩ := sound.listed (sound.enqueues child (List.mem_of_getElem? found))
      simp only [deref, bind, Except.bind]
      exact sound.enqueued_kept running index
    | process index answer =>
      obtain ⟨task, found, step⟩ := Option.bind_eq_some_iff.mp step
      split at step
      · obtain rfl := Option.some.inj step
        exact sound.process_kept running found answer
      · cases step
    | nodify curfd notifyType packet =>
      obtain rfl := Option.some.inj step
      exact sound.nodify_kept running curfd notifyType packet
    | nodifyNext index =>
      obtain ⟨call, found, rfl⟩ := Option.map_eq_some_iff.mp step
      exact sound.nodifyNext_kept running found
    | routine => exact routine_kept sound step
    | wake =>
      obtain ⟨next, woken, rfl⟩ := Option.map_eq_some_iff.mp step
      exact wake_kept sound woken
    | del fd =>
      obtain rfl := Option.some.inj step
      exact sound.del_kept running met.2
    | delNext index =>
      obtain ⟨call, found, rfl⟩ := Option.map_eq_some_iff.mp step
      exact sound.delNext_kept running found
    | destroy =>
      rw [IoLayer.next, if_pos running] at step
      obtain rfl := Option.some.inj step
      exact sound.destroyLoop_kept met (sound.live running)
    | destroyNext => exact sound.destroyNext_kept step
  · obtain ⟨tasks, signals, sender, enqueues, nodifies, dels⟩ := sound.teardown.quiet running
    cases action with
    | routine => exact routine_kept sound step
    | wake =>
      obtain ⟨next, woken, rfl⟩ := Option.map_eq_some_iff.mp step
      exact wake_kept sound woken
    | destroyNext => exact sound.destroyNext_kept step
    | add fd => exact absurd met running
    | enqueue fd => exact absurd met running
    | nodify curfd notifyType packet => exact absurd met running
    | del fd => exact absurd met.1 running
    | destroy => simp [IoLayer.next, running] at step
    | dispatch index post => simp [IoLayer.next, enqueues] at step
    | enqueued index => simp [IoLayer.next, enqueues] at step
    | process index answer => simp [IoLayer.next, tasks] at step
    | nodifyNext index => simp [IoLayer.next, nodifies] at step
    | delNext index => simp [IoLayer.next, dels] at step

theorem sound_init (processors : Nat) : (init processors : IoLayer β).Sound where
  alive := by simp [init]
  distinct := by simp [init]
  tasks := by simp [init]
  signals := by simp [init, rpcQueueNew]
  sender := by simp [init, Sender.held]
  enqueues := by simp [init]
  nodifies := by simp [init]
  unlinked := by simp [init]
  deleted := by simp [init]
  teardown := .of_running rfl rfl

/-- In every interleaving that tears down only what nobody uses, the children of
tasks and signals are in the list, and nothing is used after it was freed. -/
theorem childrenListed_of_guard {state : Except Fault (IoLayer β)}
    (reached : (system β).Reachable LifetimeGuard state) : ChildrenListed state := by
  have kept : Kept state := by
    refine reached.invariant Kept ?_ ?_
    · rintro _ ⟨processors, rfl⟩
      exact sound_init processors
    · intro before action after kept met step
      cases before with
      | error fault => cases step
      | ok layer => exact Sound.next_kept kept met step
  cases state with
  | error fault =>
    rw [Kept] at kept
    simp [ChildrenListed, kept]
  | ok layer => exact ⟨kept.tasks, kept.signals⟩

/-- A connection with one get request: received, worked on, answered and closed,
and then the module is torn down with another connection left in the list. -/
private def servedClosed : List (Action Nat) :=
  ([.add 5, .add 6, .enqueue 5, .dispatch 0 false, .enqueued 0, .process 0 9, .process 0 9,
    .process 0 9] : List (Action Nat)) ++ (List.replicate 7 .routine : List (Action Nat)) ++
  ([.del 5] : List (Action Nat)) ++ (List.replicate 4 (.delNext 0) : List (Action Nat)) ++
  ([.destroy] : List (Action Nat)) ++ (List.replicate 7 .destroyNext : List (Action Nat)) ++
  ([.routine] : List (Action Nat)) ++ (List.replicate 5 .destroyNext : List (Action Nat))

theorem childrenListed_servedClosed :
    ∃ layer, (system Nat).run (.ok (init 2)) servedClosed = some (.ok layer) ∧
      layer.teardown = .done ∧ layer.sent = [(5, 9)] ∧ ChildrenListed (.ok layer) := by
  have met : (system Nat).Guarded LifetimeGuard (.ok (init 2)) servedClosed := by
    decide +kernel
  refine ⟨_, rfl, rfl, rfl, childrenListed_of_guard ?_⟩
  exact System.Reachable.run (.start ⟨2, rfl⟩) met rfl

/-- A connection is closed while its request waits in the pool: the task keeps a
child that is no longer in the list, and its worker uses the freed child. -/
theorem task_child_freed :
    ∃ layer : IoLayer Nat, (system Nat).Reachable System.Free (.ok layer) ∧
      ¬ ChildrenListed (.ok layer) ∧ (system Nat).Reachable System.Free (.error .useAfterFree) := by
  have closed : (system Nat).run (.ok (init 2))
      [.add 5, .enqueue 5, .dispatch 0 false, .enqueued 0, .del 5] = some (.ok
        { (init 2 : IoLayer Nat) with
          heap := [⟨5, rpcQueueNew, false⟩], tasks := [⟨0, false, .queued⟩], dels := [⟨0, .stop⟩] }) :=
    rfl
  have freed : (system Nat).run (.ok (init 2))
      [.add 5, .enqueue 5, .dispatch 0 false, .enqueued 0, .del 5, .delNext 0, .delNext 0, .delNext 0,
        .delNext 0, .process 0 9, .process 0 9] = some (.error .useAfterFree) :=
    rfl
  refine ⟨_, .run (.start ⟨2, rfl⟩) (System.guarded_free _ _) closed, ?_,
    .run (.start ⟨2, rfl⟩) (System.guarded_free _ _) freed⟩
  rintro ⟨tasks, _⟩
  cases tasks ⟨0, false, .queued⟩ (by simp)

end IoLayer
end Livezure.Rpc
