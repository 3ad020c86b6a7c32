import Livezure.Core.CursorList
import Livezure.Core.Memory
import Livezure.Core.Signed
import Livezure.Core.Transition

/-! The timer thread beside the threads that create and delete timers. -/
namespace Livezure.Common
open Livezure.Core

/-- A record of the list; times are in microseconds. -/
structure Timer where
  id : Nat
  milliseconds : Int
  remaining : Int
  bAutoDelete : Bool
  bSignAsDeleted : Bool
  since : Nat
  /-- The steps that have counted it down since then. -/
  rounds : Nat
  deriving DecidableEq

def myTimerSub (now last : Nat) : Int :=
  let usec : Int := (now % 10 ^ 6 : Nat) - (last % 10 ^ 6 : Nat)
  let borrow : Int := if usec < 0 then 1 else 0
  let sec : Int := (now / 10 ^ 6 : Nat) - borrow - (last / 10 ^ 6 : Nat)
  narrow 32 (sec * 1000 + (usec + borrow * 1000000) / 1000)

namespace Timer

/-- The countdown of `timer_synchronize`. -/
def synchronize (timer : Timer) (elapsed : Int) : Timer :=
  { timer with
    remaining :=
      if timer.remaining = 0 then 0
      else if narrow 32 (timer.remaining - elapsed) < 0 then 0
      else narrow 32 (timer.remaining - elapsed)
    rounds := timer.rounds + 1 }

def mark (timer : Timer) (id : Nat) : Timer :=
  if timer.id = id then { timer with bSignAsDeleted := true } else timer

section Mark
variable (timer : Timer) (id : Nat)

@[simp] theorem mark_id : (timer.mark id).id = timer.id := by
  unfold mark
  split <;> rfl

@[simp] theorem mark_remaining : (timer.mark id).remaining = timer.remaining := by
  unfold mark
  split <;> rfl

@[simp] theorem mark_bAutoDelete : (timer.mark id).bAutoDelete = timer.bAutoDelete := by
  unfold mark
  split <;> rfl

@[simp] theorem mark_signed :
    (timer.mark id).bSignAsDeleted = true ↔ timer.bSignAsDeleted = true ∨ timer.id = id := by
  unfold mark
  split
  · rename_i same
    simp [same]
  · rename_i other
    simp [other]

@[simp] theorem mark_since : (timer.mark id).since = timer.since := by
  unfold mark
  split <;> rfl

@[simp] theorem mark_rounds : (timer.mark id).rounds = timer.rounds := by
  unfold mark
  split <;> rfl

@[simp] theorem mark_milliseconds : (timer.mark id).milliseconds = timer.milliseconds := by
  unfold mark
  split <;> rfl

end Mark
end Timer

/-- A call of `timer_del` that stands before a record, or has come to the end. -/
structure TimerWalk where
  timer : Nat
  pos : Option Nat
  deriving DecidableEq

inductive TimerPhase where
  | idle
  | waiting (now : Nat)
  | syncing (elapsed : Int)
  | firing
  | calling
  | ended
  | aborted
  deriving DecidableEq

inductive TimerEvent where
  | deleted (id : Nat)
  | aborted (id : Nat)
  | fired (timer : Timer) (clock : Nat)
  deriving DecidableEq

structure TimerRun where
  timers : CursorList Timer
  created : Nat
  clock : Nat
  timerStopSign : Bool
  phase : TimerPhase
  walks : List TimerWalk
  freed : List Nat
  events : List TimerEvent
  /-- The records that were marked when the last wait ended. -/
  doomed : List Nat
  woken : Nat
  fault : Option Fault
  deriving DecidableEq

inductive TimerAction where
  | pass (micros : Nat)
  | create (milliseconds : Int) (bAutoDelete : Bool)
  | del (timer : Nat)
  | walk (index : Nat)
  /-- `timer_destroy` sets `timer_stop_sign`. -/
  | stop
  | tick
  | wake
  /-- A round of the loop in `timer_synchronize`, or its end. -/
  | sync
  | fire
  | ret (bAbortClock : Bool)
  deriving DecidableEq

namespace TimerRun

def new (clock : Nat) : TimerRun where
  timers := .empty
  created := 0
  clock := clock
  timerStopSign := false
  phase := .idle
  walks := []
  freed := []
  events := []
  doomed := []
  woken := clock
  fault := none

def ids (run : TimerRun) : List Nat := run.timers.all.map Timer.id

/-- `list_for_each_safe` has the next record already, and misses one that is appended when this
was the head. -/
def seen (run : TimerRun) : Nat :=
  match run.phase with
  | .syncing _ => 1
  | _ => 0

def create (run : TimerRun) (milliseconds : Int) (bAutoDelete : Bool) : TimerRun :=
  { run with
    timers := run.timers.append run.seen
      { id := run.created
        milliseconds
        remaining := milliseconds
        bAutoDelete
        bSignAsDeleted := false
        since := run.clock
        rounds := 0 }
    created := run.created + 1 }

def nextOf : List Nat → Nat → Option Nat
  | [], _ => none
  | id :: rest, pos => if id = pos then rest.head? else nextOf rest pos

def walked (run : TimerRun) (index : Nat) (walk : TimerWalk) : TimerRun :=
  match walk.pos with
  | none => { run with walks := run.walks.eraseIdx index }
  | some pos =>
    if pos ∉ run.ids then { run with fault := some .useAfterFree }
    else if pos = walk.timer then { run with
      timers := run.timers.map (Timer.mark · pos)
      walks := run.walks.eraseIdx index
      events := run.events ++ [.deleted pos] }
    else { run with walks := run.walks.set index ⟨walk.timer, nextOf run.ids pos⟩ }

def woke (run : TimerRun) (last : Nat) : TimerRun :=
  { run with
    timers := run.timers.rewind
    phase := .syncing (myTimerSub run.clock last)
    doomed := (run.timers.all.filter Timer.bSignAsDeleted).map Timer.id
    woken := run.clock }

def synced (run : TimerRun) (elapsed : Int) : TimerRun :=
  match run.timers.ahead with
  | [] =>
    if run.timerStopSign then
      { run with phase := if run.timers.all = [] then .ended else .aborted }
    else { run with timers := run.timers.rewind, phase := .firing }
  | timer :: _ =>
    if timer.bSignAsDeleted || run.timerStopSign then
      { run with timers := run.timers.drop, freed := run.freed ++ [timer.id] }
    else { run with timers := run.timers.pass (timer.synchronize elapsed) }

def fired (run : TimerRun) : TimerRun :=
  match run.timers.ahead with
  | [] => { run with timers := run.timers.rewind, phase := .idle }
  | timer :: rest =>
    if timer.remaining = 0 then { run with
      timers.ahead := { timer with since := run.clock, rounds := 0 } :: rest
      phase := .calling
      events := run.events ++ [.fired timer run.clock] }
    else { run with timers := run.timers.pass timer }

def returned (run : TimerRun) (timer : Timer) (bAbortClock : Bool) : TimerRun :=
  if bAbortClock then { run with
    timers := run.timers.pass { timer with bSignAsDeleted := true }
    phase := .firing
    events := run.events ++ [.aborted timer.id] }
  else { run with
    timers := run.timers.pass { timer with remaining := timer.milliseconds }
    phase := .firing }

/-- Only the timer thread takes records off the list, and only those that it stands at: it never
meets a record that was freed. -/
def step (run : TimerRun) : TimerAction → Option TimerRun
  | .pass micros => some { run with clock := run.clock + micros }
  | .create milliseconds bAutoDelete =>
    if Fits 32 milliseconds then some (run.create milliseconds bAutoDelete) else none
  | .del timer => some { run with walks := run.walks ++ [⟨timer, run.ids.head?⟩] }
  | .walk index => run.walks[index]?.map (run.walked index)
  | .stop => some { run with timerStopSign := true }
  | .tick =>
    match run.phase with
    | .idle => some { run with phase := .waiting run.clock }
    | _ => none
  | .wake =>
    match run.phase with
    | .waiting now => some (run.woke now)
    | _ => none
  | .sync =>
    match run.phase with
    | .syncing elapsed => some (run.synced elapsed)
    | _ => none
  | .fire =>
    match run.phase with
    | .firing => some run.fired
    | _ => none
  | .ret bAbortClock =>
    match run.phase, run.timers.ahead with
    | .calling, timer :: _ => some (run.returned timer bAbortClock)
    | _, _ => none

def next (run : TimerRun) (action : TimerAction) : Option TimerRun :=
  if run.fault = none then run.step action else none

def system : System TimerRun TimerAction where
  Start run := ∃ clock, run = new clock
  next := next

end TimerRun
end Livezure.Common
