import Livezure.Rpc.IoLayer

/-! The sender thread of a client: `rpc_io_routine` with `rpc_io_client_send` behind it, where each
`send` accepts as many bytes as it likes. -/
namespace Livezure.Rpc
open Livezure.Core

/-- `send(fd, buffer, length, 0)` where so many bytes are accepted: its result, and what goes to
the peer. -/
def rpcIoClientSend (buffer : Bytes) (accepted : Nat) : Int × Bytes :=
  (accepted, buffer.take accepted)

inductive SendPhase where
  | waiting
  | getting
  | sending (out : Bytes)
  deriving DecidableEq

structure ClientSend where
  send : RpcQueue Bytes
  signalQueue : RpcQueue Unit
  phase : SendPhase
  queued : List Bytes
  stream : Bytes
  deriving DecidableEq

inductive ClientSendAction where
  | push (packet : Bytes)
  | signal
  | advance
  | send (accepted : Nat)
  deriving DecidableEq

namespace ClientSend

def new : ClientSend where
  send := rpcQueueNew
  signalQueue := rpcQueueNew
  phase := .waiting
  queued := []
  stream := []

/-- `rpc_io_routine` up to a send. -/
def advance (run : ClientSend) : Except Fault (Option ClientSend) :=
  match run.phase with
  | .waiting => do
    match ← rpcQueueGet run.signalQueue with
    | (none, _) => return none
    | (some (), signalQueue) => return some { run with signalQueue, phase := .getting }
  | .getting => do
    match ← rpcQueueGet run.send with
    | (none, send) => return some { run with send, phase := .waiting }
    | (some out, send) => return some { run with send, phase := .sending out }
  | .sending _ => return none

/-- The routine goes on whatever the result: `sendsize` is not read. -/
def sent (run : ClientSend) (out : Bytes) (accepted : Nat) : ClientSend :=
  let (_, bytes) := rpcIoClientSend out accepted
  { run with stream := run.stream ++ bytes, phase := .getting }

def next (run : ClientSend) : ClientSendAction → Option ClientSend
  | .push packet => (rpcQueuePush run.send packet).toOption.map fun send =>
    { run with send, queued := run.queued ++ [packet] }
  | .signal => (rpcQueuePush run.signalQueue ()).toOption.map fun signalQueue =>
    { run with signalQueue }
  | .advance => run.advance.toOption.bind id
  | .send accepted =>
    match run.phase with
    | .sending out =>
      if accepted ≤ out.length ∧ (accepted = 0 → out = []) then some (run.sent out accepted)
      else none
    | _ => none

def system : System ClientSend ClientSendAction where
  Start run := run = new
  next := next

def pending (run : ClientSend) : List Bytes :=
  match run.phase with
  | .sending out => out :: run.send.items
  | _ => run.send.items

/-- The peer has all that was queued, but what is still to be sent. -/
def Delivered (run : ClientSend) : Prop :=
  run.stream ++ run.pending.flatten = run.queued.flatten

/-- A send accepts all it is offered. -/
def Guard (run : ClientSend) : ClientSendAction → Prop
  | .send accepted =>
    match run.phase with
    | .sending out => accepted = out.length
    | _ => True
  | _ => True

instance (run : ClientSend) (action : ClientSendAction) : Decidable (run.Guard action) := by
  unfold Guard
  split
  · split <;> infer_instance
  · infer_instance

/-! ### The runs -/

variable {run after : ClientSend}

/-- The peer gets bytes in their order, with some missing perhaps. -/
structure Holds (run : ClientSend) : Prop where
  live : run.send.destroyed = false
  signals : run.signalQueue.destroyed = false
  order : (run.stream ++ run.pending.flatten).Sublist run.queued.flatten

/-- A step queues a packet, leaves all bytes where they are, or is a send. -/
theorem next_cases {action : ClientSendAction} (holds : run.Holds)
    (step : next run action = some after) :
    after.send.destroyed = false ∧ after.signalQueue.destroyed = false ∧
      ((∃ packet, action = .push packet ∧ after.stream = run.stream ∧
        after.pending = run.pending ++ [packet] ∧ after.queued = run.queued ++ [packet]) ∨
      ((∀ accepted, action ≠ .send accepted) ∧ after.stream = run.stream ∧
        after.pending = run.pending ∧ after.queued = run.queued) ∨
      ∃ out accepted, action = .send accepted ∧ run.phase = .sending out ∧
        accepted ≤ out.length ∧ after = run.sent out accepted) := by
  cases action with
  | push packet =>
    simp only [next, rpcQueuePush_ok holds.live, Except.toOption, Option.map_some,
      Option.some.injEq] at step
    subst step
    refine ⟨holds.live, holds.signals, .inl ⟨packet, rfl, rfl, ?_, rfl⟩⟩
    unfold pending
    dsimp only
    split <;> rfl
  | signal =>
    simp only [next, rpcQueuePush_ok holds.signals, Except.toOption, Option.map_some,
      Option.some.injEq] at step
    subst step
    exact ⟨holds.live, holds.signals, .inr (.inl ⟨nofun, rfl, rfl, rfl⟩)⟩
  | advance =>
    simp only [next, advance] at step
    cases phase : run.phase with
    | waiting =>
      rw [phase] at step
      rcases rpcQueueGet_ok holds.signals with ⟨_, got⟩ | ⟨body, items, _, got⟩
      · rw [got] at step
        cases step
      · rw [got] at step
        obtain rfl := Option.some.inj step
        refine ⟨holds.live, holds.signals, .inr (.inl ⟨nofun, rfl, ?_, rfl⟩)⟩
        rw [pending, pending, phase]
    | getting =>
      rw [phase] at step
      rcases rpcQueueGet_ok holds.live with ⟨empty, got⟩ | ⟨body, items, queued, got⟩
      · rw [got] at step
        obtain rfl := Option.some.inj step
        refine ⟨holds.live, holds.signals, .inr (.inl ⟨nofun, rfl, ?_, rfl⟩)⟩
        rw [pending, pending, phase]
      · rw [got] at step
        obtain rfl := Option.some.inj step
        refine ⟨holds.live, holds.signals, .inr (.inl ⟨nofun, rfl, ?_, rfl⟩)⟩
        rw [pending, pending, phase]
        exact queued.symm
    | sending out =>
      rw [phase] at step
      cases step
  | send accepted =>
    simp only [next] at step
    split at step
    · rename_i out phase
      split at step
      · rename_i offered
        obtain rfl := Option.some.inj step
        exact ⟨holds.live, holds.signals, .inr (.inr ⟨out, accepted, rfl, phase, offered.1, rfl⟩)⟩
      · cases step
    · cases step

theorem sent_bytes {out : Bytes} (phase : run.phase = .sending out) (accepted : Nat) :
    run.stream ++ run.pending.flatten =
        run.stream ++ (out.take accepted ++ out.drop accepted) ++ run.send.items.flatten ∧
      (run.sent out accepted).stream ++ (run.sent out accepted).pending.flatten =
        run.stream ++ out.take accepted ++ run.send.items.flatten := by
  constructor
  · rw [pending, phase, List.take_append_drop]
    simp
  · rfl

theorem sent_sublist {out : Bytes} (phase : run.phase = .sending out) (accepted : Nat) :
    ((run.sent out accepted).stream ++ (run.sent out accepted).pending.flatten).Sublist
      (run.stream ++ run.pending.flatten) := by
  obtain ⟨before, behind⟩ := sent_bytes phase accepted
  rw [before, behind]
  apply List.Sublist.append _ (List.Sublist.refl _)
  apply List.Sublist.append (List.Sublist.refl _)
  exact List.sublist_append_left _ _

theorem Holds.step {action : ClientSendAction} (holds : run.Holds)
    (step : next run action = some after) : after.Holds := by
  obtain ⟨live, signals, moves⟩ := next_cases holds step
  refine ⟨live, signals, ?_⟩
  have order := holds.order
  rcases moves with ⟨packet, _, stream, pending, queued⟩ | ⟨_, stream, pending, queued⟩ |
    ⟨out, accepted, _, phase, _, rfl⟩
  · rw [stream, pending, queued, List.flatten_append, List.flatten_append, ← List.append_assoc]
    exact List.Sublist.append order (List.Sublist.refl _)
  · rw [stream, pending, queued]
    exact order
  · exact (sent_sublist phase accepted).trans order

/-- A send that leaves a tail of its packet leaves it for good. -/
theorem Holds.delivered_step {action : ClientSendAction} (holds : run.Holds)
    (delivered : run.Delivered) (step : next run action = some after) :
    after.Delivered ↔ run.Guard action := by
  unfold Delivered at delivered ⊢
  obtain ⟨_, _, moves⟩ := next_cases holds step
  rcases moves with ⟨packet, rfl, stream, pending, queued⟩ | ⟨other, stream, pending, queued⟩ |
    ⟨out, accepted, rfl, phase, within, rfl⟩
  · rw [stream, pending, queued, List.flatten_append, List.flatten_append, ← List.append_assoc,
      delivered]
    exact iff_of_true rfl trivial
  · rw [stream, pending, queued, delivered]
    refine iff_of_true rfl ?_
    cases action with
    | send accepted => exact absurd rfl (other accepted)
    | push packet => trivial
    | signal => trivial
    | advance => trivial
  · obtain ⟨before, behind⟩ := sent_bytes phase accepted
    have same : (run.sent out accepted).queued = run.queued := rfl
    rw [behind, same, ← delivered, before, List.append_left_inj, List.append_right_inj]
    dsimp only [Guard]
    rw [phase]
    constructor
    · intro whole
      have sizes := congrArg List.length whole
      rw [List.length_append, List.length_take, List.length_drop] at sizes
      dsimp only
      omega
    · rintro rfl
      simp

theorem Holds.delivered_back {action : ClientSendAction} (holds : run.Holds)
    (step : next run action = some after) (delivered : after.Delivered) : run.Delivered := by
  unfold Delivered at delivered ⊢
  obtain ⟨_, _, moves⟩ := next_cases holds step
  rcases moves with ⟨packet, _, stream, pending, queued⟩ | ⟨_, stream, pending, queued⟩ |
    ⟨out, accepted, _, phase, _, rfl⟩
  · rw [stream, pending, queued, List.flatten_append, List.flatten_append, ← List.append_assoc]
      at delivered
    exact (List.append_left_inj _).mp delivered
  · rwa [stream, pending, queued] at delivered
  · apply holds.order.antisymm
    have same : (run.sent out accepted).queued = run.queued := rfl
    rw [← same, ← delivered]
    exact sent_sublist phase accepted

/-- The peer gets all bytes in the order of the queue exactly where no send accepts less than it is
offered. -/
theorem delivered_iff_guarded (actions : List ClientSendAction) (run : ClientSend)
    (done : system.run new actions = some run) :
    run.Delivered ↔ system.Guarded Guard new actions := by
  have start : new.Holds := ⟨rfl, rfl, List.Sublist.refl _⟩
  exact System.run_iff (fun _ _ _ holds step => holds.step step)
    (fun _ _ _ holds delivered step => holds.delivered_step delivered step)
    (fun _ _ _ holds step late => holds.delivered_back step late) start rfl done

private def bothWhole : List ClientSendAction :=
  [.push [1, 2], .push [3], .signal, .advance, .advance, .send 2, .advance, .send 1, .advance]

private def bothSent : ClientSend :=
  { new with
    queued := [[1, 2], [3]]
    stream := [1, 2, 3] }

theorem delivered_bothSent : bothSent.Delivered :=
  (delivered_iff_guarded bothWhole bothSent (by decide)).mpr (by decide)

private def shortWrite : List ClientSendAction :=
  [.push [1, 2], .push [3], .signal, .advance, .advance, .send 1, .advance, .send 1, .advance]

theorem not_delivered : ∃ run, system.run new shortWrite = some run ∧ run.queued = [[1, 2], [3]] ∧
    run.pending = [] ∧ run.stream = [1, 3] ∧ ¬run.Delivered := by
  refine ⟨{ bothSent with stream := [1, 3] }, by decide, rfl, rfl, rfl, ?_⟩
  unfold Delivered
  decide

end ClientSend
end Livezure.Rpc
