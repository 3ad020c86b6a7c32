import Livezure.Core.Memory
import Livezure.Core.Transition

/-! The writes of the server: the sender thread gives a packet to `uv_write` and goes on, the loop
writes its bytes when it can and calls `write_cb` behind them. -/
namespace Livezure.Rpc
open Livezure.Core

/-- What `write_cb` is told: its status, and with an error the last one of the loop. -/
inductive UvStatus where
  | ok
  | canceled
  | failed
  deriving DecidableEq

/-- A request of `fd_write`. -/
structure WriteReq where
  packet : Bytes
  /-- What `buf.base` points at, none once it is freed. -/
  base : Option Bytes
  written : Bytes
  done : Option UvStatus
  deriving DecidableEq

inductive WriterPhase where
  | getting
  | sending (out : Bytes)
  /-- Before `rpc_buffer_free(&out)`, with the request that `uv_write` has. -/
  | freeing (index : Nat)
  deriving DecidableEq

structure ServerWrites where
  send : List Bytes
  phase : WriterPhase
  requests : List WriteReq
  queued : List Bytes
  fault : Option Fault
  deriving DecidableEq

inductive ServerWritesAction where
  | push (packet : Bytes)
  | get
  | fdWrite
  | bufferFree
  | drain (index size : Nat)
  | writeCb (index : Nat) (status : UvStatus)
  deriving DecidableEq

def fdWrite (buffer : Bytes) : WriteReq where
  packet := buffer
  base := some buffer
  written := []
  done := none

/-- The request is freed first, and then asked for its handle where there is something to close. -/
def writeCb : UvStatus → Except Fault Unit
  | .ok | .canceled => .ok ()
  | .failed => .error .useAfterFree

namespace ServerWrites

def new : ServerWrites where
  send := []
  phase := .getting
  requests := []
  queued := []
  fault := none

/-- The loop reads from the buffer. -/
def drained (run : ServerWrites) (index : Nat) (req : WriteReq) (size : Nat) : ServerWrites :=
  match req.base with
  | none => { run with fault := some .useAfterFree }
  | some base =>
    match slice base req.written.length size with
    | .error fault => { run with fault := some fault }
    | .ok bytes =>
      { run with
        requests := run.requests.modify index fun req => { req with written := req.written ++ bytes } }

def called (run : ServerWrites) (index : Nat) (status : UvStatus) : ServerWrites :=
  match writeCb status with
  | .error fault => { run with fault := some fault }
  | .ok () =>
    { run with requests := run.requests.modify index fun req => { req with done := some status } }

/-- The loop writes no more than it was given, and is done without an error when it has written
all of it. -/
def next (run : ServerWrites) (action : ServerWritesAction) : Option ServerWrites :=
  if run.fault.isSome then none
  else
    match action with
    | .push packet => some { run with send := run.send ++ [packet], queued := run.queued ++ [packet] }
    | .get =>
      match run.phase, run.send with
      | .getting, out :: send => some { run with send, phase := .sending out }
      | _, _ => none
    | .fdWrite =>
      match run.phase with
      | .sending out => some { run with
          phase := .freeing run.requests.length, requests := run.requests ++ [fdWrite out] }
      | _ => none
    | .bufferFree =>
      match run.phase with
      | .freeing index => some { run with
          phase := .getting
          requests := run.requests.modify index fun req => { req with base := none } }
      | _ => none
    | .drain index size =>
      match run.requests[index]? with
      | some req =>
        if req.done = none ∧ req.written.length + size ≤ req.packet.length then
          some (run.drained index req size)
        else none
      | none => none
    | .writeCb index status =>
      match run.requests[index]? with
      | some req =>
        if req.done = none ∧ (status = .ok → req.written.length = req.packet.length) then
          some (run.called index status)
        else none
      | none => none

def system : System ServerWrites ServerWritesAction where
  Start run := run = new
  next := next

def pending (run : ServerWrites) : List Bytes :=
  match run.phase with
  | .sending out => out :: run.send
  | _ => run.send

end ServerWrites

/-- The bytes of a request are those of its packet, in a buffer that stays until `write_cb`. -/
structure WriteReq.Right (req : WriteReq) : Prop where
  held : req.done = none → req.base = some req.packet
  bytes : req.written <+: req.packet
  whole : req.done = some .ok → req.written = req.packet

namespace ServerWrites

structure Sound (run : ServerWrites) : Prop where
  safe : run.fault = none
  requests : ∀ req ∈ run.requests, req.Right
  order : run.requests.map WriteReq.packet ++ run.pending = run.queued

/-- A packet is freed when its `write_cb` has run, and there is nothing to close behind a write. -/
def Guard (run : ServerWrites) : ServerWritesAction → Prop
  | .bufferFree =>
    match run.phase with
    | .freeing index => ∀ req ∈ run.requests[index]?, req.done.isSome
    | _ => True
  | .writeCb _ status => status ≠ .failed
  | _ => True

instance (run : ServerWrites) (action : ServerWritesAction) : Decidable (run.Guard action) := by
  unfold Guard
  split
  · split <;> infer_instance
  · infer_instance
  · infer_instance

/-! ### The runs -/

variable {run after : ServerWrites}

private theorem right_fdWrite (out : Bytes) : (fdWrite out).Right where
  held _ := rfl
  bytes := List.nil_prefix
  whole := nofun

/-- A request changes, and its packet does not. -/
theorem Sound.modify (sound : run.Sound) {index : Nat} {change : WriteReq → WriteReq}
    (same : ∀ req, (change req).packet = req.packet)
    (right : ∀ req ∈ run.requests[index]?, req.Right → (change req).Right) :
    ({ run with requests := run.requests.modify index change } : ServerWrites).Sound := by
  by_cases bound : index < run.requests.length
  · obtain ⟨front, req, back, requests, rfl, changed⟩ := List.exists_of_modify change bound
    have found : run.requests[front.length]? = some req := by
      rw [requests]
      simp
    refine ⟨sound.safe, fun other member => ?_, ?_⟩
    · rw [changed] at member
      rcases List.mem_append.mp member with before | behind
      · exact sound.requests other (requests ▸ List.mem_append_left _ before)
      · rcases List.mem_cons.mp behind with rfl | behind
        · exact right req found (sound.requests req (List.mem_of_getElem? found))
        · exact sound.requests other
            (requests ▸ List.mem_append_right _ (List.mem_cons_of_mem _ behind))
    · have packets : (run.requests.modify front.length change).map WriteReq.packet =
          run.requests.map WriteReq.packet := by
        rw [changed, requests, List.map_append, List.map_append, List.map_cons, List.map_cons, same]
      change (run.requests.modify front.length change).map _ ++ run.pending = _
      rw [packets]
      exact sound.order
  · rw [List.modify_eq_self (Nat.not_lt.mp bound)]
    exact sound

theorem Sound.drained (sound : run.Sound) {index size : Nat} {req : WriteReq}
    (found : run.requests[index]? = some req) (running : req.done = none)
    (within : req.written.length + size ≤ req.packet.length) : (run.drained index req size).Sound := by
  have before := sound.requests req (List.mem_of_getElem? found)
  rw [ServerWrites.drained, before.held running]
  dsimp only
  rw [slice_ok within]
  refine sound.modify (fun _ => rfl) fun other same right => ?_
  obtain rfl := Option.some.inj (found.symm.trans same)
  refine ⟨right.held, ?_, fun done => ?_⟩
  · have front := List.prefix_iff_eq_take.mp right.bytes
    have whole := List.take_add (l := req.packet) (i := req.written.length) (j := size)
    dsimp only
    rw [← front] at whole
    rw [← whole]
    exact List.take_prefix _ _
  · dsimp only at done
    rw [running] at done
    cases done

theorem Sound.called (sound : run.Sound) {index : Nat} {req : WriteReq} {status : UvStatus}
    (found : run.requests[index]? = some req) (goes : status ≠ .failed)
    (all : status = .ok → req.written.length = req.packet.length) :
    (run.called index status).Sound := by
  have passes : writeCb status = .ok () := by
    cases status with
    | ok => rfl
    | canceled => rfl
    | failed => exact absurd rfl goes
  rw [ServerWrites.called, passes]
  refine sound.modify (fun _ => rfl) fun other same right => ?_
  obtain rfl := Option.some.inj (found.symm.trans same)
  exact ⟨nofun, right.bytes, fun done => right.bytes.eq_of_length (all (Option.some.inj done))⟩

/-- What is freed behind its `write_cb` is not missed. -/
theorem Sound.freed (sound : run.Sound) {index : Nat} (phase : run.phase = .freeing index)
    (done : ∀ req ∈ run.requests[index]?, req.done.isSome = true) :
    ({ run with
      phase := .getting
      requests := run.requests.modify index fun req => { req with base := none } } :
        ServerWrites).Sound := by
  have order := sound.order
  rw [pending, phase] at order
  have moved : ({ run with phase := .getting } : ServerWrites).Sound :=
    ⟨sound.safe, sound.requests, order⟩
  refine moved.modify (fun _ => rfl) fun req found right => ?_
  have ended := Option.isSome_iff_ne_none.mp (done req found)
  exact ⟨fun running => absurd running ended, right.bytes, right.whole⟩

theorem Sound.step {action : ServerWritesAction} (sound : run.Sound) (met : run.Guard action)
    (step : next run action = some after) : after.Sound := by
  have safe : ¬run.fault.isSome = true := by
    rw [sound.safe]
    exact Bool.false_ne_true
  unfold next at step
  rw [if_neg safe] at step
  have order := sound.order
  cases action with
  | push packet =>
    obtain rfl := Option.some.inj step
    refine ⟨sound.safe, sound.requests, ?_⟩
    dsimp only
    rw [← order, List.append_assoc]
    unfold pending
    cases run.phase <;> rfl
  | get =>
    dsimp only at step
    split at step
    · rename_i out send phase queued
      obtain rfl := Option.some.inj step
      refine ⟨sound.safe, sound.requests, ?_⟩
      rw [pending, phase, queued] at order
      exact order
    · cases step
  | fdWrite =>
    dsimp only at step
    split at step
    · rename_i out phase
      obtain rfl := Option.some.inj step
      refine ⟨sound.safe, fun req member => ?_, ?_⟩
      · rcases List.mem_append.mp member with old | fresh
        · exact sound.requests req old
        · exact List.mem_singleton.mp fresh ▸ right_fdWrite out
      · rw [pending, phase] at order
        rw [← order]
        simp [pending, fdWrite]
    · cases step
  | bufferFree =>
    dsimp only at step
    split at step
    · rename_i index phase
      obtain rfl := Option.some.inj step
      dsimp only [Guard] at met
      rw [phase] at met
      exact sound.freed phase met
    · cases step
  | drain index size =>
    dsimp only at step
    split at step
    · rename_i req found
      split at step
      · rename_i runs
        obtain rfl := Option.some.inj step
        exact sound.drained found runs.1 runs.2
      · cases step
    · cases step
  | writeCb index status =>
    dsimp only at step
    split at step
    · rename_i req found
      split at step
      · rename_i runs
        obtain rfl := Option.some.inj step
        exact sound.called found met runs.2
      · cases step
    · cases step

/-- In a run whose steps all meet the condition each request has its packet until `write_cb`, and
writes its bytes and no others. -/
theorem written_of_guard (run : ServerWrites) (reached : system.Reachable Guard run) : run.Sound := by
  refine reached.invariant Sound ?_ fun _ _ _ sound => sound.step
  rintro _ rfl
  exact ⟨rfl, nofun, rfl⟩

private def oneWritten : ServerWrites :=
  { new with
    requests := [⟨[1, 2], none, [1, 2], some .ok⟩]
    queued := [[1, 2]] }

private theorem oneWritten_run : system.run new [.push [1, 2], .get, .fdWrite, .drain 0 1, .drain 0 1,
    .writeCb 0 .ok, .bufferFree] = some oneWritten := by
  decide

theorem written_oneWritten : oneWritten.Sound :=
  written_of_guard oneWritten ((System.Reachable.start rfl).run (by decide) oneWritten_run)

/-- The socket takes a byte, the sender frees the packet, and the socket takes the next. -/
private def backPressure : List ServerWritesAction :=
  [.push [1, 2], .get, .fdWrite, .drain 0 1, .bufferFree, .drain 0 1]

private def brokenPipe : List ServerWritesAction := [.push [1, 2], .get, .fdWrite, .writeCb 0 .failed]

theorem not_written :
    (∃ run, system.run new backPressure = some run ∧ run.fault = some .useAfterFree ∧ ¬run.Sound) ∧
    ∃ run, system.run new brokenPipe = some run ∧ run.fault = some .useAfterFree ∧ ¬run.Sound := by
  refine ⟨⟨_, rfl, rfl, fun sound => ?_⟩, ⟨_, rfl, rfl, fun sound => ?_⟩⟩
  · cases sound.safe
  · cases sound.safe

end ServerWrites
end Livezure.Rpc
