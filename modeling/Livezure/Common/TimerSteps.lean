import Livezure.Common.TimerDeletion

/-! What the steps of the timer thread leave of the list as it is, and when they come to a
callback. -/
namespace Livezure.Common.TimerRun
open Livezure.Core
variable {run after : TimerRun}

/-- The timer thread adds no timer, and takes no mark away. -/
structure Follows (run after : TimerRun) : Prop where
  created : after.created = run.created
  walks : after.walks = run.walks
  old : ∀ timer ∈ after.timers.all, ∃ before ∈ run.timers.all, before.id = timer.id ∧
    before.bAutoDelete = timer.bAutoDelete ∧
    (before.bSignAsDeleted = true → timer.bSignAsDeleted = true)

theorem follows_same (created : after.created = run.created) (walks : after.walks = run.walks)
    (same : after.timers.all = run.timers.all) : run.Follows after :=
  ⟨created, walks, fun timer member => ⟨timer, same ▸ member, rfl, rfl, id⟩⟩

private theorem follows_pass {timer left : Timer} {rest : List Timer} {phase : TimerPhase}
    {events : List TimerEvent} (ahead : run.timers.ahead = timer :: rest) (same : timer.id = left.id)
    (auto : timer.bAutoDelete = left.bAutoDelete)
    (signed : timer.bSignAsDeleted = true → left.bSignAsDeleted = true) :
    run.Follows { run with timers := run.timers.pass left, phase, events } := by
  refine ⟨rfl, rfl, fun other member => ?_⟩
  rcases (CursorList.mem_all_pass ahead).mp member with rfl | beside
  · exact ⟨timer, CursorList.head_mem_all ahead, same, auto, signed⟩
  · exact ⟨other, CursorList.mem_beside ahead beside, rfl, rfl, id⟩

private theorem follows_synced (elapsed : Int) : run.Follows (run.synced elapsed) := by
  unfold synced
  cases ahead : run.timers.ahead with
  | nil =>
    dsimp only
    split
    · exact follows_same rfl rfl rfl
    · exact follows_same rfl rfl (CursorList.all_rewind _)
  | cons timer rest =>
    dsimp only
    split
    · refine ⟨rfl, rfl, fun other member => ⟨other, ?_, rfl, rfl, id⟩⟩
      dsimp only at member
      rw [CursorList.all_drop ahead] at member
      exact CursorList.mem_beside ahead member
    · exact follows_pass ahead rfl rfl id

private theorem follows_fired : run.Follows run.fired := by
  unfold fired
  cases ahead : run.timers.ahead with
  | nil => exact follows_same rfl rfl (CursorList.all_rewind _)
  | cons timer rest =>
    dsimp only
    split
    · refine ⟨rfl, rfl, fun other member => ?_⟩
      have whole : ∀ called : Timer, ({ run.timers with ahead := called :: rest } : CursorList Timer).all =
          run.timers.passed ++ called :: rest ++ run.timers.late := fun _ => CursorList.all_of_ahead rfl
      dsimp only at member
      rw [whole] at member
      rcases CursorList.mem_around.mp member with rfl | beside
      · exact ⟨timer, CursorList.head_mem_all ahead, rfl, rfl, id⟩
      · exact ⟨other, CursorList.mem_beside ahead beside, rfl, rfl, id⟩
    · exact follows_pass ahead rfl rfl id

private theorem follows_returned {timer : Timer} {rest : List Timer} (ahead : run.timers.ahead = timer :: rest)
    (bAbortClock : Bool) : run.Follows (run.returned timer bAbortClock) := by
  unfold returned
  cases bAbortClock with
  | true => exact follows_pass ahead rfl rfl fun _ => rfl
  | false => exact follows_pass ahead rfl rfl id

theorem follows_deleted (none_ : run.walks = []) (timer : Nat) : run.Follows (run.deleted timer 0) := by
  refine ⟨rfl, ?_, fun other member => ?_⟩
  · simp [deleted, none_]
  · simp only [deleted, CursorList.all_map] at member
    obtain ⟨before, was, rfl⟩ := List.mem_map.mp member
    refine ⟨before, was, (before.mark_id timer).symm, (before.mark_bAutoDelete timer).symm, ?_⟩
    exact fun signed => (before.mark_signed timer).mpr (.inl signed)

/-- What the timer thread does outside of the loop in `timer_step`. -/
def Quiet : TimerAction → Prop
  | .pass _ | .tick | .wake | .sync => True
  | _ => False

private theorem current_of_phase (elsewhere : run.phase ≠ .calling) : run.current = none := by
  unfold current
  split
  · rename_i calling
    exact absurd calling elsewhere
  · rfl

private theorem synced_phase {elapsed : Int} (syncing : run.phase = .syncing elapsed) :
    (run.synced elapsed).phase ≠ .calling := by
  unfold synced
  cases run.timers.ahead with
  | nil =>
    dsimp only
    split
    · split <;> exact nofun
    · exact nofun
  | cons timer rest =>
    dsimp only
    split
    · rw [syncing]
      exact nofun
    · rw [syncing]
      exact nofun

theorem next_quiet {action : TimerAction} (quiet : Quiet action) (step : run.next action = some after) :
    run.Follows after ∧ after.current = run.current := by
  rw [next] at step
  split at step
  · cases action with
    | pass micros =>
      obtain rfl := Option.some.inj step
      exact ⟨follows_same rfl rfl rfl, rfl⟩
    | tick =>
      rw [TimerRun.step] at step
      split at step
      · rename_i idle
        obtain rfl := Option.some.inj step
        refine ⟨follows_same rfl rfl rfl, ?_⟩
        rw [current, current, idle]
      · cases step
    | wake =>
      rw [TimerRun.step] at step
      split at step
      · rename_i last waiting
        obtain rfl := Option.some.inj step
        refine ⟨follows_same rfl rfl (CursorList.all_rewind _), ?_⟩
        rw [current, current, waiting]
        rfl
      · cases step
    | sync =>
      rw [TimerRun.step] at step
      split at step
      · rename_i elapsed syncing
        obtain rfl := Option.some.inj step
        refine ⟨follows_synced elapsed, ?_⟩
        rw [current_of_phase (synced_phase syncing), current_of_phase]
        rw [syncing]
        simp
      · cases step
    | create _ _ => cases quiet
    | del _ => cases quiet
    | walk _ => cases quiet
    | stop => cases quiet
    | fire => cases quiet
    | ret _ => cases quiet
  · cases step

/-- The loop comes to a callback only with a timer that is not signed. -/
theorem Holds.next_fire (holds : run.Holds) (step : run.next .fire = some after) :
    run.Follows after ∧ run.current = none ∧ ∀ id ∈ after.current,
      ∃ timer ∈ run.timers.all, timer.id = id ∧ timer.bSignAsDeleted = false := by
  rw [TimerRun.next, if_pos holds.safe, TimerRun.step] at step
  split at step
  · rename_i firing
    obtain rfl := Option.some.inj step
    refine ⟨follows_fired, by rw [current, firing], fun id stands => ?_⟩
    unfold TimerRun.fired at stands
    cases ahead : run.timers.ahead with
    | nil =>
      rw [ahead] at stands
      cases stands
    | cons timer rest =>
      rw [ahead] at stands
      dsimp only at stands
      split at stands
      · rename_i due
        refine ⟨timer, CursorList.head_mem_all ahead, Option.some.inj stands, ?_⟩
        rw [Bool.eq_false_iff]
        intro signed
        apply holds.still timer _ signed due
        rw [awaiting, firing, ahead]
        exact List.mem_cons_self
      · rw [current] at stands
        dsimp only at stands
        rw [firing] at stands
        cases stands
  · cases step

theorem next_ret {bAbortClock : Bool} (step : run.next (.ret bAbortClock) = some after) :
    run.Follows after ∧ after.current = none := by
  rw [next] at step
  split at step
  · rw [TimerRun.step] at step
    split at step
    · rename_i timer rest _ ahead
      obtain rfl := Option.some.inj step
      refine ⟨follows_returned ahead bAbortClock, ?_⟩
      cases bAbortClock <;> rfl
    · cases step
  · cases step

/-- The record of a callback is on the list. -/
theorem current_mem {id : Nat} (stands : run.current = some id) : id ∈ run.ids := by
  unfold current at stands
  split at stands
  · obtain ⟨timer, head, rfl⟩ := Option.map_eq_some_iff.mp stands
    exact List.mem_map_of_mem (CursorList.mem_of_head head)
  · cases stands

/-- The loop does not come to the record of a callback again. -/
theorem Holds.current_awaits (holds : run.Holds) {id : Nat} (stands : run.current = some id) :
    ∀ timer ∈ run.awaiting, timer.id ≠ id := by
  unfold current at stands
  split at stands
  · rename_i calling
    obtain ⟨timer, head, rfl⟩ := Option.map_eq_some_iff.mp stands
    obtain ⟨rest, ahead⟩ : ∃ rest, run.timers.ahead = timer :: rest := by
      cases ahead : run.timers.ahead with
      | nil =>
        rw [ahead] at head
        cases head
      | cons first rest =>
        rw [ahead] at head
        exact ⟨rest, by rw [Option.some.inj head]⟩
    intro other member
    rw [awaiting, calling, ahead] at member
    exact holds.alone ahead (List.mem_append_left _ (List.mem_append_right _ member))
  · cases stands

end Livezure.Common.TimerRun
