import Livezure.Common.Timer

/-! When the callback of a timer is invoked no more, and its record is freed. -/
namespace Livezure.Common
open Livezure.Core

/-- An event after which the callback of a timer is not to be invoked. -/
def TimerEvent.Ends : TimerEvent → Nat → Prop
  | .deleted id, other | .aborted id, other => id = other
  | .fired timer _, other => timer.bAutoDelete = true ∧ timer.id = other

namespace TimerRun

def current (run : TimerRun) : Option Nat :=
  match run.phase with
  | .calling => run.timers.ahead.head?.map Timer.id
  | _ => none

/-- The records that the loop of `timer_synchronize` still comes to. -/
def pending (run : TimerRun) : List Timer :=
  match run.phase with
  | .syncing _ => run.timers.ahead
  | _ => []

/-- The records that the loop of `timer_step` comes to before that of `timer_synchronize`. -/
def awaiting (run : TimerRun) : List Timer :=
  match run.phase with
  | .syncing _ => run.timers.passed ++ run.timers.late
  | .firing => run.timers.ahead
  | .calling => run.timers.ahead.tail
  | _ => []

structure Disposed (run : TimerRun) : Prop where
  safe : run.fault = none
  quiet : run.events.Pairwise fun before after =>
    ∀ timer clock, after = .fired timer clock → ¬before.Ends timer.id
  once : run.freed.Nodup ∧ ∀ id < run.created, (id ∈ run.freed ↔ id ∉ run.ids)
  /-- A timer that is at its end is freed already or signed, up to the end of its callback. -/
  signed : ∀ event ∈ run.events, ∀ id, event.Ends id → id ∈ run.freed ∨
    ∃ timer ∈ run.timers.all, timer.id = id ∧ (timer.bSignAsDeleted = true ∨ run.current = some id)
  /-- What was signed when a step began is freed before its callbacks. -/
  gone : run.pending = [] → ∀ id ∈ run.doomed, id ∈ run.freed

/-- The callback of a timer with `b_auto_delete` aborts it or has deleted it, `timer_del` does not
come between the two loops to a timer that is to fire, and no call of it stands at a record
that is freed. -/
def Guard (run : TimerRun) : TimerAction → Prop
  | .ret bAbortClock => ∀ timer ∈ run.timers.ahead.head?, timer.bAutoDelete = true →
      bAbortClock = true ∨ timer.bSignAsDeleted = true
  | .walk index => ∀ walk ∈ run.walks[index]?, walk.pos = some walk.timer →
      ∀ timer ∈ run.awaiting, timer.id = walk.timer → timer.remaining ≠ 0
  | .sync => ∀ timer ∈ run.pending.head?, timer.bSignAsDeleted = true ∨ run.timerStopSign = true →
      ∀ walk ∈ run.walks, walk.pos ≠ some timer.id
  | _ => True

instance (run : TimerRun) (action : TimerAction) : Decidable (run.Guard action) := by
  unfold Guard
  split <;> infer_instance

structure Holds (run : TimerRun) : Prop where
  safe : run.fault = none
  perm : (run.freed ++ run.ids).Perm (List.range run.created)
  walks : ∀ walk ∈ run.walks, ∀ pos ∈ walk.pos, pos ∈ run.ids
  known : ∀ event ∈ run.events, ∀ id, event.Ends id → id < run.created
  signed : ∀ event ∈ run.events, ∀ timer ∈ run.timers.all, event.Ends timer.id →
    timer.bSignAsDeleted = true ∨ timer.bAutoDelete = true ∧ run.current = some timer.id
  quiet : run.events.Pairwise fun before after =>
    ∀ timer clock, after = .fired timer clock → ¬before.Ends timer.id
  still : ∀ timer ∈ run.awaiting, timer.bSignAsDeleted = true → timer.remaining ≠ 0
  gone : ∀ id ∈ run.doomed, id ∈ run.freed ∨
    ∃ timer ∈ run.pending, timer.id = id ∧ timer.bSignAsDeleted = true

section Ids
variable {run : TimerRun} {timer : Timer} {rest : List Timer}

theorem Holds.nodup (holds : run.Holds) : (run.freed ++ run.ids).Nodup :=
  holds.perm.nodup_iff.mpr List.nodup_range

theorem Holds.mem_iff (holds : run.Holds) (id : Nat) :
    id ∈ run.freed ∨ id ∈ run.ids ↔ id < run.created := by
  rw [← List.mem_append, holds.perm.mem_iff, List.mem_range]

/-- Once the loop of `timer_synchronize` has nothing left to come to, what was signed is freed. -/
theorem Holds.freed_of (holds : run.Holds) (nothing : run.pending = []) :
    ∀ id ∈ run.doomed, id ∈ run.freed := by
  intro id doomed
  rcases holds.gone id doomed with freed | ⟨timer, member, _⟩
  · exact freed
  · rw [nothing] at member
    cases member

theorem Holds.disposed (holds : run.Holds) : run.Disposed where
  safe := holds.safe
  quiet := holds.quiet
  once := by
    refine ⟨(List.nodup_append.mp holds.nodup).1, fun id old => ⟨fun freed listed => ?_, fun off => ?_⟩⟩
    · exact (List.nodup_append.mp holds.nodup).2.2 id freed id listed rfl
    · exact ((holds.mem_iff id).mpr old).resolve_right off
  signed event member id ends := by
    rcases (holds.mem_iff id).mpr (holds.known event member id ends) with freed | listed
    · exact .inl freed
    · obtain ⟨timer, on, rfl⟩ := List.mem_map.mp listed
      refine .inr ⟨timer, on, rfl, ?_⟩
      exact (holds.signed event member timer on ends).imp_right And.right
  gone := holds.freed_of

/-- Outside of callbacks every timer at its end is signed. -/
theorem Holds.marked (holds : run.Holds) (none_ : run.current = none) {event : TimerEvent}
    (member : event ∈ run.events) (on : timer ∈ run.timers.all) (ends : event.Ends timer.id) :
    timer.bSignAsDeleted = true := by
  refine (holds.signed event member timer on ends).resolve_right fun both => ?_
  rw [none_] at both
  cases both.2

/-- No other record has the address of the one that the loop stands at. -/
theorem Holds.alone (holds : run.Holds) (ahead : run.timers.ahead = timer :: rest) {other : Timer}
    (member : other ∈ run.timers.passed ++ rest ++ run.timers.late) : other.id ≠ timer.id := by
  have nodup := (List.nodup_append.mp holds.nodup).2.1
  rw [ids, CursorList.all_of_ahead ahead] at nodup
  have moved : (timer :: (run.timers.passed ++ rest ++ run.timers.late)).Perm
      (run.timers.passed ++ timer :: rest ++ run.timers.late) := by
    rw [List.append_assoc, List.append_assoc, List.cons_append]
    exact List.perm_middle.symm
  rw [← (moved.map Timer.id).nodup_iff, List.map_cons, List.nodup_cons] at nodup
  intro same
  exact nodup.1 (List.mem_map.mpr ⟨other, member, same⟩)

end Ids

/-! ### The steps -/

section Steps
variable {run : TimerRun}

private theorem ids_create (run : TimerRun) (milliseconds : Int) (bAutoDelete : Bool) :
    (run.create milliseconds bAutoDelete).ids = run.ids ++ [run.created] := by
  simp [create, ids]

def newest (run : TimerRun) (milliseconds : Int) (bAutoDelete : Bool) : Timer :=
  ⟨run.created, milliseconds, milliseconds, bAutoDelete, false, run.clock, 0⟩

section Create
variable {milliseconds : Int} {bAutoDelete : Bool} {timer : Timer}

theorem mem_awaiting_create (member : timer ∈ (run.create milliseconds bAutoDelete).awaiting) :
    timer ∈ run.awaiting ∨ timer = run.newest milliseconds bAutoDelete := by
  unfold awaiting at member ⊢
  cases phase : run.phase with
  | syncing elapsed =>
    simp only [create, phase] at member ⊢
    exact CursorList.mem_append_behind member
  | firing =>
    simp only [create, phase] at member ⊢
    exact (CursorList.mem_append_ahead member).imp_right And.left
  | calling =>
    simp only [create, phase] at member ⊢
    exact CursorList.mem_append_tail member
  | idle => simp [create, phase] at member
  | waiting now => simp [create, phase] at member
  | ended => simp [create, phase] at member
  | aborted => simp [create, phase] at member

/-- The loop of `timer_synchronize` comes to a new record only if it had not seen the end of the
list. -/
theorem mem_pending_create (member : timer ∈ (run.create milliseconds bAutoDelete).pending) :
    timer ∈ run.pending ∨ timer = run.newest milliseconds bAutoDelete ∧ 1 < run.timers.ahead.length := by
  unfold pending at member ⊢
  cases phase : run.phase with
  | syncing elapsed =>
    simp only [create, seen, phase] at member ⊢
    exact CursorList.mem_append_ahead member
  | _ => simp [create, phase] at member

private theorem mem_pending_of_create (member : timer ∈ run.pending) :
    timer ∈ (run.create milliseconds bAutoDelete).pending := by
  unfold pending at member ⊢
  simp only [create]
  cases phase : run.phase with
  | syncing elapsed =>
    rw [phase] at member
    exact CursorList.mem_ahead_append _ _ member
  | _ =>
    rw [phase] at member
    cases member

end Create

theorem Holds.create (holds : run.Holds) (milliseconds : Int) (bAutoDelete : Bool) :
    (run.create milliseconds bAutoDelete).Holds := by
  have current : (run.create milliseconds bAutoDelete).current = run.current := by
    unfold TimerRun.current
    simp only [TimerRun.create, CursorList.head_append]
  refine ⟨holds.safe, ?_, fun walk member pos stands => ?_, fun event member id ends => ?_, ?_,
    holds.quiet, fun timer member signed => ?_, fun id member => ?_⟩
  · rw [ids_create]
    change (run.freed ++ (run.ids ++ [run.created])).Perm (List.range (run.created + 1))
    rw [List.range_succ, ← List.append_assoc]
    exact holds.perm.append_right _
  · rw [ids_create]
    exact List.mem_append_left _ (holds.walks walk member pos stands)
  · exact Nat.lt_succ_of_lt (holds.known event member id ends)
  · intro event member timer on ends
    simp only [TimerRun.create, CursorList.all_append, List.mem_append, List.mem_singleton] at on
    rcases on with old | rfl
    · rw [current]
      exact holds.signed event member timer old ends
    · exact absurd (holds.known event member _ ends) (Nat.lt_irrefl _)
  · rcases mem_awaiting_create member with old | rfl
    · exact holds.still timer old signed
    · cases signed
  · refine (holds.gone id member).imp_right fun found => ?_
    obtain ⟨timer, on, same⟩ := found
    exact ⟨timer, mem_pending_of_create on, same⟩

private theorem nextOf_mem {list : List Nat} {pos id : Nat} (next : nextOf list pos = some id) : id ∈ list := by
  induction list with
  | nil => cases next
  | cons head rest ih =>
    rw [nextOf] at next
    split at next
    · exact List.mem_cons_of_mem _ (List.mem_of_mem_head? next)
    · exact List.mem_cons_of_mem _ (ih next)

/-- `timer_del` has found the record. -/
def deleted (run : TimerRun) (id index : Nat) : TimerRun :=
  { run with
    timers := run.timers.map (Timer.mark · id)
    walks := run.walks.eraseIdx index
    events := run.events ++ [.deleted id] }

section Deleted
variable (run : TimerRun) (id index : Nat)

private theorem ids_deleted : (run.deleted id index).ids = run.ids := by
  simp [deleted, ids, Function.comp_def]

theorem awaiting_deleted : (run.deleted id index).awaiting = run.awaiting.map (Timer.mark · id) := by
  unfold awaiting
  simp only [deleted]
  cases run.phase <;> simp [CursorList.map]

theorem pending_deleted : (run.deleted id index).pending = run.pending.map (Timer.mark · id) := by
  unfold pending
  simp only [deleted]
  cases run.phase <;> simp [CursorList.map]

theorem current_deleted : (run.deleted id index).current = run.current := by
  unfold current
  simp only [deleted]
  cases run.phase with
  | calling => cases ahead : run.timers.ahead <;> simp [CursorList.map, ahead]
  | _ => rfl

end Deleted

theorem Holds.signs (holds : run.Holds) {id : Nat} (index : Nat) (listed : id ∈ run.ids)
    (early : ∀ timer ∈ run.awaiting, timer.id = id → timer.remaining ≠ 0) :
    (run.deleted id index).Holds := by
  refine ⟨holds.safe, ?_, fun walk member pos stands => ?_, fun event member other ends => ?_,
    fun event member timer on ends => ?_, ?_, fun timer member is => ?_, fun other member => ?_⟩
  · rw [ids_deleted]
    exact holds.perm
  · rw [ids_deleted]
    exact holds.walks walk (List.mem_of_mem_eraseIdx member) pos stands
  · rcases List.mem_append.mp member with old | new
    · exact holds.known event old other ends
    · rw [List.mem_singleton.mp new] at ends
      have same : id = other := ends
      exact (holds.mem_iff other).mp (.inr (same ▸ listed))
  · rw [current_deleted]
    simp only [deleted, CursorList.all_map] at on
    obtain ⟨before, was, rfl⟩ := List.mem_map.mp on
    rw [Timer.mark_signed, Timer.mark_bAutoDelete, Timer.mark_id]
    rcases List.mem_append.mp member with old | new
    · rw [Timer.mark_id] at ends
      exact (holds.signed event old before was ends).imp_left .inl
    · rw [List.mem_singleton.mp new, Timer.mark_id] at ends
      have same : id = before.id := ends
      exact .inl (.inr same.symm)
  · simp only [deleted, List.pairwise_append]
    exact ⟨holds.quiet, List.pairwise_singleton _ _, by simp⟩
  · rw [awaiting_deleted] at member
    obtain ⟨before, was, rfl⟩ := List.mem_map.mp member
    rw [Timer.mark_remaining]
    rcases (Timer.mark_signed before id).mp is with already | same
    · exact holds.still before was already
    · exact early before was same
  · rw [pending_deleted]
    refine (holds.gone other member).imp_right fun found => ?_
    obtain ⟨timer, on, same, is⟩ := found
    exact ⟨timer.mark id, List.mem_map_of_mem on, by rw [Timer.mark_id, same],
      (timer.mark_signed id).mpr (.inl is)⟩

theorem Holds.walked (holds : run.Holds) {index : Nat} {walk : TimerWalk}
    (found : run.walks[index]? = some walk) (met : run.Guard (.walk index)) :
    (run.walked index walk).Holds := by
  have member := List.mem_of_getElem? found
  unfold TimerRun.walked
  cases stands : walk.pos with
  | none =>
    exact { holds with
      walks := fun other listed => holds.walks other (List.mem_of_mem_eraseIdx listed) }
  | some pos =>
    have listed := holds.walks walk member pos (by rw [stands]; rfl)
    dsimp only
    rw [if_neg (not_not_intro listed)]
    split
    · rename_i same
      apply holds.signs index listed
      rw [same]
      exact met walk found (same ▸ stands)
    · refine { holds with walks := fun other among next is => ?_ }
      rcases List.mem_or_eq_of_mem_set among with old | rfl
      · exact holds.walks other old next is
      · exact nextOf_mem is

theorem Holds.del (holds : run.Holds) (timer : Nat) :
    ({ run with walks := run.walks ++ [⟨timer, run.ids.head?⟩] } : TimerRun).Holds := by
  refine { holds with walks := fun walk member pos stands => ?_ }
  rcases List.mem_append.mp member with old | new
  · exact holds.walks walk old pos stands
  · rw [List.mem_singleton.mp new] at stands
    exact List.mem_of_mem_head? stands

theorem Holds.tick (holds : run.Holds) (idle : run.phase = .idle) :
    ({ run with phase := .waiting run.clock } : TimerRun).Holds := by
  have none_ : run.current = none := by rw [current, idle]
  have nothing : run.pending = [] := by rw [pending, idle]
  exact { holds with
    signed := fun event member timer on ends => .inl (holds.marked none_ member on ends)
    still := nofun
    gone := fun id member => .inl (holds.freed_of nothing id member) }

theorem Holds.woke (holds : run.Holds) {last : Nat} (waiting : run.phase = .waiting last) :
    (run.woke last).Holds := by
  have none_ : run.current = none := by rw [current, waiting]
  have same : (run.woke last).ids = run.ids := by simp [TimerRun.woke, ids]
  refine ⟨holds.safe, same.symm ▸ holds.perm, fun walk member pos stands => ?_, holds.known,
    fun event member timer on ends => ?_, holds.quiet, nofun, fun id member => ?_⟩
  · rw [same]
    exact holds.walks walk member pos stands
  · rw [TimerRun.woke, CursorList.all_rewind] at on
    exact .inl (holds.marked none_ member on ends)
  · obtain ⟨timer, is, rfl⟩ := List.mem_map.mp member
    obtain ⟨on, signed⟩ := List.mem_filter.mp is
    exact .inr ⟨timer, on, rfl, signed⟩

/-- The loop of `timer_synchronize` ends where it has come to every record. -/
theorem Holds.synced_end (holds : run.Holds) {elapsed : Int} (syncing : run.phase = .syncing elapsed)
    (done : run.timers.ahead = []) : (run.synced elapsed).Holds := by
  have none_ : run.current = none := by rw [current, syncing]
  have nothing : run.pending = [] := by
    rw [pending, syncing]
    exact done
  have freed := holds.freed_of nothing
  unfold TimerRun.synced
  rw [done]
  dsimp only
  split
  · exact { holds with
      signed := fun event member timer on ends => .inl (holds.marked none_ member on ends)
      still := by
        intro timer member
        split at member <;> cases member
      gone := fun id member => .inl (freed id member) }
  · have same : run.timers.rewind.all = run.timers.all := CursorList.all_rewind _
    refine ⟨holds.safe, ?_, ?_, holds.known, fun event member timer on ends => ?_, holds.quiet,
      fun timer on is => ?_, fun id member => .inl (freed id member)⟩
    · simpa only [ids, same] using holds.perm
    · simpa only [ids, same] using holds.walks
    · rw [same] at on
      exact .inl (holds.marked none_ member on ends)
    · apply holds.still timer _ is
      simp only [awaiting, syncing]
      change timer ∈ run.timers.all at on
      rw [CursorList.all, done, List.append_nil] at on
      exact on

theorem Holds.synced_drop (holds : run.Holds) {elapsed : Int} (syncing : run.phase = .syncing elapsed)
    {timer : Timer} {rest : List Timer} (ahead : run.timers.ahead = timer :: rest)
    (apart : ∀ walk ∈ run.walks, walk.pos ≠ some timer.id) :
    ({ run with timers := run.timers.drop, freed := run.freed ++ [timer.id] } : TimerRun).Holds := by
  have none_ : run.current = none := by rw [current, syncing]
  have around := CursorList.all_of_ahead ahead
  have after := CursorList.all_drop ahead
  refine ⟨holds.safe, ?_, fun walk member pos stands => ?_, holds.known,
    fun event member other on ends => ?_, holds.quiet, fun other member is => ?_, fun id member => ?_⟩
  · refine List.Perm.trans ?_ holds.perm
    simp only [ids, after, around, List.map_append, List.map_cons, List.append_assoc,
      List.cons_append, List.nil_append]
    apply List.Perm.append_left
    exact List.perm_middle.symm
  · have listed := holds.walks walk member pos stands
    simp only [ids, around] at listed
    obtain ⟨other, on, rfl⟩ := List.mem_map.mp listed
    rcases CursorList.mem_around.mp on with rfl | beside
    · exact absurd stands (apart walk member)
    · simp only [ids, after]
      exact List.mem_map_of_mem beside
  · simp only [after] at on
    exact .inl (holds.marked none_ member (CursorList.mem_beside ahead on) ends)
  · apply holds.still other _ is
    simp only [awaiting, syncing] at member ⊢
    exact member
  · rcases holds.gone id member with freed | ⟨other, on, same, is⟩
    · exact .inl (List.mem_append_left _ freed)
    · simp only [pending, syncing, ahead] at on ⊢
      rcases List.mem_cons.mp on with rfl | later
      · exact .inl (List.mem_append_right _ (List.mem_singleton.mpr same.symm))
      · refine .inr ⟨other, ?_, same, is⟩
        rw [CursorList.drop, ahead]
        exact later

/-- The loops leave their record behind, signed where it is at its end. -/
theorem Holds.pass (holds : run.Holds) {timer left : Timer} {rest : List Timer} {phase : TimerPhase}
    {events : List TimerEvent} (ahead : run.timers.ahead = timer :: rest) (same : left.id = timer.id)
    (more : events = run.events ∨ events = run.events ++ [.aborted timer.id])
    (atEnd : ∀ event ∈ events, event.Ends timer.id → left.bSignAsDeleted = true)
    (still : ∀ other ∈ ({ run with timers := run.timers.pass left, phase } : TimerRun).awaiting,
      other.bSignAsDeleted = true → other.remaining ≠ 0)
    (gone : ∀ id ∈ run.doomed, id ∈ run.freed ∨
      ∃ other ∈ ({ run with timers := run.timers.pass left, phase } : TimerRun).pending,
        other.id = id ∧ other.bSignAsDeleted = true) :
    ({ run with timers := run.timers.pass left, phase, events } : TimerRun).Holds := by
  have ids_ : (run.timers.pass left).all.map Timer.id = run.ids := by
    rw [CursorList.all_pass ahead, ids, CursorList.all_of_ahead ahead]
    simp [same]
  have old : ∀ event ∈ events, event ∈ run.events ∨ event = .aborted timer.id := by
    intro event member
    rcases more with rfl | rfl
    · exact .inl member
    · exact (List.mem_append.mp member).imp_right List.mem_singleton.mp
  refine ⟨holds.safe, ?_, fun walk member pos stands => ?_, fun event member id ends => ?_,
    fun event member other on ends => .inl ?_, ?_, still, gone⟩
  · simpa only [ids, ids_] using holds.perm
  · simp only [ids, ids_]
    exact holds.walks walk member pos stands
  · rcases old event member with was | rfl
    · exact holds.known event was id ends
    · rw [← (ends : timer.id = id)]
      exact (holds.mem_iff timer.id).mp
        (.inr (List.mem_map_of_mem (CursorList.head_mem_all ahead)))
  · rcases (CursorList.mem_all_pass ahead).mp on with rfl | beside
    · rw [same] at ends
      exact atEnd event member ends
    · have other_ := holds.alone ahead beside
      rcases old event member with was | rfl
      · refine (holds.signed event was other (CursorList.mem_beside ahead beside) ends).resolve_right
          fun both => other_ ?_
        have stands := both.2
        unfold current at stands
        split at stands
        · rw [ahead] at stands
          exact (Option.some.inj stands).symm
        · cases stands
      · exact absurd (ends : timer.id = other.id).symm other_
  · rcases more with rfl | rfl
    · exact holds.quiet
    · rw [List.pairwise_append]
      exact ⟨holds.quiet, List.pairwise_singleton _ _, by simp⟩

theorem Holds.synced (holds : run.Holds) {elapsed : Int} (syncing : run.phase = .syncing elapsed)
    (met : run.Guard .sync) : (run.synced elapsed).Holds := by
  have none_ : run.current = none := by rw [current, syncing]
  cases ahead : run.timers.ahead with
  | nil => exact holds.synced_end syncing ahead
  | cons timer rest =>
    have first : run.pending.head? = some timer := by
      rw [pending, syncing]
      exact ahead ▸ rfl
    unfold TimerRun.synced
    rw [ahead]
    dsimp only
    split
    · rename_i frees
      apply holds.synced_drop syncing ahead
      exact met timer (by rw [first]; rfl) (by simpa using frees)
    · rename_i stays
      rw [Bool.or_eq_true, not_or] at stays
      refine holds.pass ahead rfl (.inl rfl) (fun event member ends => ?_) (fun other on is => ?_)
        fun id member => ?_
      · exact absurd (holds.marked none_ member (CursorList.head_mem_all ahead) ends) stays.1
      · simp only [awaiting, syncing, CursorList.pass, List.append_assoc, List.mem_append,
          List.mem_singleton] at on
        rcases on with before | rfl | after
        · apply holds.still other _ is
          simp only [awaiting, syncing]
          exact List.mem_append_left _ before
        · exact absurd is stays.1
        · apply holds.still other _ is
          simp only [awaiting, syncing]
          exact List.mem_append_right _ after
      · refine (holds.gone id member).imp_right fun found => ?_
        obtain ⟨other, on, same, is⟩ := found
        simp only [pending, syncing, ahead] at on ⊢
        rcases List.mem_cons.mp on with rfl | later
        · exact absurd is stays.1
        · refine ⟨other, ?_, same, is⟩
          rw [CursorList.pass, ahead]
          exact later

/-- A callback is invoked only on a timer that is not at its end. -/
theorem Holds.fires (holds : run.Holds) (firing : run.phase = .firing) {timer : Timer}
    {rest : List Timer} (ahead : run.timers.ahead = timer :: rest) (due : timer.remaining = 0) :
    ({ run with
      timers.ahead := { timer with since := run.clock, rounds := 0 } :: rest
      phase := .calling
      events := run.events ++ [.fired timer run.clock] } : TimerRun).Holds := by
  have none_ : run.current = none := by rw [current, firing]
  have unmarked : timer.bSignAsDeleted ≠ true := by
    intro is
    apply holds.still timer _ is due
    rw [awaiting, firing, ahead]
    exact List.mem_cons_self
  let called : Timer := { timer with since := run.clock, rounds := 0 }
  have whole : ({ run.timers with ahead := called :: rest } : CursorList Timer).all =
      run.timers.passed ++ called :: rest ++ run.timers.late := CursorList.all_of_ahead rfl
  have ids_ : ({ run.timers with ahead := called :: rest } : CursorList Timer).all.map Timer.id =
      run.ids := by
    rw [whole, ids, CursorList.all_of_ahead ahead]
    simp [called]
  refine ⟨holds.safe, ?_, fun walk member pos stands => ?_, fun event member id ends => ?_,
    fun event member other on ends => ?_, ?_, fun other on is => ?_, fun id member => ?_⟩
  · exact (congrArg (run.freed ++ ·) ids_).symm ▸ holds.perm
  · have listed := holds.walks walk member pos stands
    rw [← ids_] at listed
    exact listed
  · rcases List.mem_append.mp member with old | new
    · exact holds.known event old id ends
    · rw [List.mem_singleton.mp new] at ends
      rw [← ends.2]
      exact (holds.mem_iff timer.id).mp
        (.inr (List.mem_map_of_mem (CursorList.head_mem_all ahead)))
  · rw [whole] at on
    rcases CursorList.mem_around.mp on with rfl | beside
    · rcases List.mem_append.mp member with old | new
      · have is := holds.marked none_ old (CursorList.head_mem_all ahead) ends
        exact .inl is
      · rw [List.mem_singleton.mp new] at ends
        exact .inr ⟨ends.1, rfl⟩
    · rcases List.mem_append.mp member with old | new
      · exact .inl (holds.marked none_ old (CursorList.mem_beside ahead beside) ends)
      · rw [List.mem_singleton.mp new] at ends
        exact absurd ends.2.symm (holds.alone ahead beside)
  · rw [List.pairwise_append]
    refine ⟨holds.quiet, List.pairwise_singleton _ _, fun before old after new => ?_⟩
    rintro other clock rfl ends
    obtain ⟨rfl, _⟩ := TimerEvent.fired.inj (List.mem_singleton.mp new)
    exact unmarked (holds.marked none_ old (CursorList.head_mem_all ahead) ends)
  · apply holds.still other _ is
    rw [awaiting, firing, ahead]
    exact List.mem_cons_of_mem _ on
  · exact .inl (holds.freed_of (by rw [pending, firing]) id member)

theorem Holds.fired (holds : run.Holds) (firing : run.phase = .firing) : run.fired.Holds := by
  have none_ : run.current = none := by rw [current, firing]
  have freed := holds.freed_of (by rw [pending, firing])
  unfold TimerRun.fired
  cases ahead : run.timers.ahead with
  | nil =>
    have same : run.timers.rewind.all = run.timers.all := CursorList.all_rewind _
    refine ⟨holds.safe, ?_, ?_, holds.known, fun event member timer on ends => ?_, holds.quiet,
      nofun, fun id member => .inl (freed id member)⟩
    · simpa only [ids, same] using holds.perm
    · simpa only [ids, same] using holds.walks
    · dsimp only at on
      rw [same] at on
      exact .inl (holds.marked none_ member on ends)
  | cons timer rest =>
    dsimp only
    split
    · rename_i due
      exact holds.fires firing ahead due
    · refine holds.pass ahead rfl (.inl rfl) (fun event member ends => ?_) (fun other on is => ?_)
        fun id member => .inl (freed id member)
      · exact holds.marked none_ member (CursorList.head_mem_all ahead) ends
      · apply holds.still other _ is
        simp only [awaiting, firing, CursorList.pass, ahead, List.tail_cons] at on ⊢
        exact List.mem_cons_of_mem _ on

theorem Holds.returned (holds : run.Holds) (calling : run.phase = .calling) {timer : Timer}
    {rest : List Timer} (ahead : run.timers.ahead = timer :: rest) {bAbortClock : Bool}
    (met : run.Guard (.ret bAbortClock)) : (run.returned timer bAbortClock).Holds := by
  have freed := holds.freed_of (by rw [pending, calling])
  have still : ∀ other ∈ rest, other.bSignAsDeleted = true → other.remaining ≠ 0 := by
    intro other on is
    apply holds.still other _ is
    rw [awaiting, calling, ahead]
    exact on
  have behind (left : Timer) : (run.timers.pass left).ahead = rest := by
    rw [CursorList.pass, ahead]
    rfl
  unfold TimerRun.returned
  cases bAbortClock with
  | true =>
    refine holds.pass ahead rfl (.inr rfl) (fun _ _ _ => rfl) (fun other on is => ?_)
      fun id member => .inl (freed id member)
    exact still other (behind _ ▸ on) is
  | false =>
    refine holds.pass ahead rfl (.inl rfl) (fun event member ends => ?_) (fun other on is => ?_)
      fun id member => .inl (freed id member)
    · rcases holds.signed event member timer (CursorList.head_mem_all ahead) ends with is | ⟨one, _⟩
      · exact is
      · exact (met timer (by rw [ahead]; rfl) one).resolve_left Bool.false_ne_true
    · exact still other (behind _ ▸ on) is

theorem Holds.next {after : TimerRun} {action : TimerAction} (holds : run.Holds)
    (met : run.Guard action) (next : run.next action = some after) : after.Holds := by
  rw [TimerRun.next, if_pos holds.safe] at next
  cases action with
  | pass micros =>
    obtain rfl := Option.some.inj next
    exact { holds with }
  | create milliseconds bAutoDelete =>
    rw [step] at next
    split at next
    · obtain rfl := Option.some.inj next
      exact holds.create milliseconds bAutoDelete
    · cases next
  | del timer =>
    obtain rfl := Option.some.inj next
    exact holds.del timer
  | walk index =>
    obtain ⟨walk, found, rfl⟩ := Option.map_eq_some_iff.mp next
    exact holds.walked found met
  | stop =>
    obtain rfl := Option.some.inj next
    exact { holds with }
  | tick =>
    rw [step] at next
    split at next
    · rename_i idle
      obtain rfl := Option.some.inj next
      exact holds.tick idle
    · cases next
  | wake =>
    rw [step] at next
    split at next
    · rename_i last waiting
      obtain rfl := Option.some.inj next
      exact holds.woke waiting
    · cases next
  | sync =>
    rw [step] at next
    split at next
    · rename_i elapsed syncing
      obtain rfl := Option.some.inj next
      exact holds.synced syncing met
    · cases next
  | fire =>
    rw [step] at next
    split at next
    · rename_i firing
      obtain rfl := Option.some.inj next
      exact holds.fired firing
    · cases next
  | ret bAbortClock =>
    rw [step] at next
    split at next
    · rename_i timer rest calling ahead
      obtain rfl := Option.some.inj next
      exact holds.returned calling ahead met
    · cases next

end Steps

theorem new_holds (clock : Nat) : (new clock).Holds where
  safe := rfl
  perm := .refl _
  walks := nofun
  known := nofun
  signed := nofun
  quiet := .nil
  still := nofun
  gone := nofun

/-- In a run whose steps meet the condition no callback is invoked after the end of its timer, and
every record is freed once and not used afterwards. -/
theorem disposed_of_guard (run : TimerRun) (reached : system.Reachable Guard run) : run.Disposed := by
  have holds : run.Holds := by
    refine reached.invariant Holds ?_ fun before action after holds met next => holds.next met next
    rintro _ ⟨clock, rfl⟩
    exact new_holds clock
  exact holds.disposed

private theorem start_new : system.Start (new 0) := ⟨0, rfl⟩

/-- A timer is deleted and freed in the next step. -/
private def soon : List TimerAction :=
  [.create 1 false, .del 0, .walk 0, .tick, .wake, .sync, .sync, .fire]

theorem disposed_soon : ∃ run, system.run (new 0) soon = some run ∧ run.freed = [0] ∧ run.Disposed := by
  obtain ⟨run, ran⟩ : ∃ run, system.run (new 0) soon = some run := ⟨_, rfl⟩
  have freed : (system.run (new 0) soon).map TimerRun.freed = some [0] := by decide
  rw [ran] at freed
  refine ⟨run, ran, Option.some.inj freed, ?_⟩
  exact disposed_of_guard run ((System.Reachable.start start_new).run (by decide) ran)

/-- A timer with `b_auto_delete` fires in each of two steps. -/
private def twice : List TimerAction :=
  [.create 1 true, .tick, .pass 1000, .wake, .sync, .sync, .fire, .ret false, .fire,
    .tick, .pass 1000, .wake, .sync, .sync, .fire]

/-- The callback of the first timer deletes the second one, which fires all the same. -/
private def late : List TimerAction :=
  [.create 1 false, .create 1 false, .tick, .pass 1000, .wake, .sync, .sync, .sync, .fire,
    .del 1, .walk 0, .walk 0, .ret false, .fire]

/-- A second call of `timer_del` still stands at the record when the timer thread frees it. -/
private def stale : List TimerAction :=
  [.create 1 false, .del 0, .walk 0, .del 0, .tick, .wake, .sync, .walk 0]

theorem not_disposed : (∃ run, system.run (new 0) twice = some run ∧ ¬run.Disposed) ∧
    (∃ run, system.run (new 0) late = some run ∧ ¬run.Disposed) ∧
    ∃ run, system.run (new 0) stale = some run ∧ run.fault = some .useAfterFree ∧ ¬run.Disposed := by
  refine ⟨⟨_, rfl, fun disposed => ?_⟩, ⟨_, rfl, fun disposed => ?_⟩, ⟨_, rfl, rfl, fun disposed => ?_⟩⟩
  · have quiet := List.rel_of_pairwise_cons disposed.quiet (List.mem_singleton_self _)
    exact quiet _ _ rfl ⟨rfl, rfl⟩
  · have later := List.Pairwise.of_cons disposed.quiet
    have quiet := List.rel_of_pairwise_cons later (List.mem_singleton_self _)
    exact quiet _ _ rfl rfl
  · cases disposed.safe

end TimerRun
end Livezure.Common
