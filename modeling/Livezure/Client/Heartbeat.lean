import Livezure.Common.TimerSteps

/-! The session of a user and its heartbeat: the thread of the user that logs in, uses the session
and logs out, and the timer thread, whose heartbeats log out by themselves when they fail. -/
namespace Livezure.Client
open Livezure.Core Livezure.Common

/-- What the two threads use of `mc_session_t`. -/
structure McSession where
  autoHeartbeat : Option Nat
  freed : Bool
  deriving DecidableEq

/-- Where a call of `mc_account_logout` stands, up to its request. -/
inductive LogoutPhase where
  | reading
  | deleting (timer : Nat)
  | freeing
  deriving DecidableEq

/-- Where the user stands. -/
inductive UserPhase where
  | idle
  /-- In `mc_account_login`, with a timer that the session does not name yet. -/
  | creating (session timer : Nat)
  | using_ (session : Nat)
  | leaving (session : Nat) (phase : LogoutPhase)
  deriving DecidableEq

/-- Where `heartbeart_timer_clock` stands. -/
inductive BeatPhase where
  | idle
  | requesting (session : Nat)
  | leaving (session : Nat) (phase : LogoutPhase)
  | aborting (session : Nat)
  deriving DecidableEq

def UserPhase.session : UserPhase → Option Nat
  | .idle => none
  | .creating session _ | .using_ session | .leaving session _ => some session

def BeatPhase.session : BeatPhase → Option Nat
  | .idle => none
  | .requesting session | .leaving session _ | .aborting session => some session

/-- The session that a failed heartbeat is about to free. -/
def BeatPhase.ends : BeatPhase → Option Nat
  | .leaving session _ => some session
  | _ => none

/-- The sessions are numbered as their timers are: only `mc_account_login` creates timers. -/
structure HeartbeatRun where
  timers : TimerRun
  sessions : List McSession
  user : UserPhase
  beat : BeatPhase
  /-- The pointers of the user that are not NULL. -/
  held : List Nat
  /-- The callback was entered for a session that had been freed. -/
  late : Bool
  fault : Option Fault
  deriving DecidableEq

inductive HeartbeatAction where
  /-- The timer thread outside of `timer_step`'s loop, and time. -/
  | timer (action : TimerAction)
  | fire
  | beat (ok : Bool)
  | beatOn
  | login
  | assign
  | call (session : Nat)
  | use
  | leave
  | logout (session : Nat)
  | userOn
  deriving DecidableEq

namespace HeartbeatRun

def new (clock : Nat) : HeartbeatRun where
  timers := .new clock
  sessions := []
  user := .idle
  beat := .idle
  held := []
  late := false
  fault := none

def freed (run : HeartbeatRun) (session : Nat) : Bool :=
  (run.sessions[session]?.map McSession.freed).getD false

def deref (run : HeartbeatRun) (session : Nat) : Except Fault McSession :=
  match run.sessions[session]? with
  | none => .error .nullPointer
  | some sess => if sess.freed then .error .useAfterFree else .ok sess

/-- `timer_del`: the mark, where the timer is still on the list. -/
def timerDel (timers : TimerRun) (timer : Nat) : TimerRun :=
  if timer ∈ timers.ids then timers.deleted timer 0 else timers

/-- A step of `mc_account_logout`, and where it goes on. -/
def mcAccountLogout (run : HeartbeatRun) (session : Nat) :
    LogoutPhase → Except Fault (HeartbeatRun × Option LogoutPhase)
  | .reading => do
    let sess ← run.deref session
    match sess.autoHeartbeat with
    | some timer => return (run, some (.deleting timer))
    | none => return (run, some .freeing)
  | .deleting timer => return ({ run with timers := timerDel run.timers timer }, some .freeing)
  | .freeing => do
    let _ ← run.deref session
    return ({ run with
      sessions := run.sessions.modify session fun sess => { sess with freed := true } }, none)

def result (run : HeartbeatRun) : Except Fault HeartbeatRun → HeartbeatRun
  | .error fault => { run with fault := some fault }
  | .ok after => after

/-- The timer thread has gone on, into a callback perhaps. -/
def entered (run : HeartbeatRun) (timers : TimerRun) : HeartbeatRun :=
  match timers.current with
  | none => { run with timers }
  | some session => { run with
      timers, beat := .requesting session, late := run.late || run.freed session }

def beatOn (run : HeartbeatRun) : Option HeartbeatRun :=
  match run.beat with
  | .leaving session phase => some <| run.result do
      let (after, next) ← run.mcAccountLogout session phase
      match next with
      | some phase => return { after with beat := .leaving session phase }
      | none => return { after with beat := .aborting session }
  | .aborting _ => (run.timers.next (.ret true)).map fun timers =>
    { run with timers, beat := .idle }
  | .idle | .requesting _ => none

def userOn (run : HeartbeatRun) : Option HeartbeatRun :=
  match run.user with
  | .leaving session phase => some <| run.result do
      let (after, next) ← run.mcAccountLogout session phase
      match next with
      | some phase => return { after with user := .leaving session phase }
      | none => return { after with user := .idle, held := run.held.filter (· ≠ session) }
  | _ => none

def next (run : HeartbeatRun) (action : HeartbeatAction) : Option HeartbeatRun :=
  if run.fault.isSome then none
  else
    match action with
    | .timer action =>
      match action with
      | .pass _ | .tick | .wake | .sync => (run.timers.next action).map fun timers =>
        { run with timers }
      | _ => none
    | .fire => (run.timers.next .fire).map run.entered
    | .beat ok =>
      match run.beat with
      | .requesting session =>
        if ok then (run.timers.next (.ret false)).map fun timers => { run with timers, beat := .idle }
        else some { run with beat := .leaving session .reading }
      | _ => none
    | .beatOn => run.beatOn
    | .login =>
      if run.user = .idle then
        (run.timers.next (.create 5000 false)).map fun timers => { run with
          timers
          sessions := run.sessions ++ [⟨none, false⟩]
          user := .creating run.sessions.length run.timers.created }
      else none
    | .assign =>
      match run.user with
      | .creating session timer => some <| run.result do
          let _ ← run.deref session
          return { run with
            sessions := run.sessions.modify session fun sess => { sess with autoHeartbeat := some timer }
            user := .idle
            held := session :: run.held }
      | _ => none
    | .call session =>
      if run.user = .idle ∧ session ∈ run.held then some { run with user := .using_ session } else none
    | .use =>
      match run.user with
      | .using_ session => some <| run.result do
          let _ ← run.deref session
          return run
      | _ => none
    | .leave =>
      match run.user with
      | .using_ _ => some { run with user := .idle }
      | _ => none
    | .logout session =>
      if run.user = .idle ∧ session ∈ run.held then
        some { run with user := .leaving session .reading }
      else none
    | .userOn => run.userOn

def system : System HeartbeatRun HeartbeatAction where
  Start run := ∃ clock, run = new clock
  next := next

/-- No session is used or freed again after it was freed, and no callback is entered for it. -/
structure Sound (run : HeartbeatRun) : Prop where
  safe : run.fault = none
  late : run.late = false

/-- A session that the user may begin a call with. -/
def Usable (run : HeartbeatRun) (session : Nat) : Prop :=
  run.freed session = false ∧ run.beat.ends ≠ some session

/-- The user begins no call with a session that a heartbeat has ended, no heartbeat fails while the
user is in a call with its session or has logged out of it, and `timer_del` of the user does not
come between the two loops to a timer that is to fire. -/
def Guard (run : HeartbeatRun) : HeartbeatAction → Prop
  | .call session | .logout session => run.Usable session
  | .beat false => ∀ session ∈ run.beat.session,
      run.freed session = false ∧ run.user.session ≠ some session
  | .userOn =>
    match run.user with
    | .leaving _ (.deleting id) =>
      ∀ timer ∈ run.timers.awaiting, timer.id = id → timer.remaining ≠ 0
    | _ => True
  | _ => True

instance (run : HeartbeatRun) (action : HeartbeatAction) : Decidable (run.Guard action) := by
  unfold Guard Usable
  split
  · infer_instance
  · infer_instance
  · infer_instance
  · split <;> infer_instance
  · infer_instance

end HeartbeatRun

/-! ### The sessions -/

def Live (sessions : List McSession) (id : Nat) : Prop := ∃ sess ∈ sessions[id]?, sess.freed = false

/-- What a logout has made sure of. -/
def Ready (timers : TimerRun) (id : Nat) : LogoutPhase → Prop
  | .reading => True
  | .deleting timer => timer = id
  | .freeing => ∀ timer ∈ timers.timers.all, timer.id = id → timer.bSignAsDeleted = true

/-- The timers belong to the sessions, and those of freed ones are signed. -/
structure Tidy (timers : TimerRun) (sessions : List McSession) : Prop where
  holds : timers.Holds
  alone : timers.walks = []
  kind : ∀ timer ∈ timers.timers.all, timer.bAutoDelete = false
  size : timers.created = sessions.length
  signed : ∀ timer ∈ timers.timers.all, ∀ sess ∈ sessions[timer.id]?, sess.freed = true →
    timer.bSignAsDeleted = true

section Tidy
variable {timers after : TimerRun} {sessions : List McSession} {id : Nat}

theorem Ready.follows {phase : LogoutPhase} (ready : Ready timers id phase)
    (follows : timers.Follows after) : Ready after id phase := by
  cases phase with
  | reading => trivial
  | deleting timer => exact ready
  | freeing =>
    intro timer member same
    obtain ⟨before, was, number, _, stays⟩ := follows.old timer member
    exact stays (ready before was (number.trans same))

theorem Tidy.follows (tidy : Tidy timers sessions) (follows : timers.Follows after)
    (holds : after.Holds) : Tidy after sessions := by
  refine ⟨holds, follows.walks.trans tidy.alone, fun timer member => ?_,
    follows.created.trans tidy.size, fun timer member sess found freed => ?_⟩
  · obtain ⟨before, was, _, auto, _⟩ := follows.old timer member
    exact auto ▸ tidy.kind before was
  · obtain ⟨before, was, number, _, stays⟩ := follows.old timer member
    exact stays (tidy.signed before was sess (number ▸ found) freed)

theorem Tidy.timerDel (tidy : Tidy timers sessions)
    (early : ∀ timer ∈ timers.awaiting, timer.id = id → timer.remaining ≠ 0) :
    Tidy (HeartbeatRun.timerDel timers id) sessions ∧
      timers.Follows (HeartbeatRun.timerDel timers id) ∧
      (HeartbeatRun.timerDel timers id).current = timers.current ∧
      Ready (HeartbeatRun.timerDel timers id) id .freeing := by
  unfold HeartbeatRun.timerDel
  split
  · rename_i listed
    have follows := TimerRun.follows_deleted tidy.alone id
    refine ⟨tidy.follows follows (tidy.holds.signs 0 listed early), follows,
      TimerRun.current_deleted timers id 0, fun timer member same => ?_⟩
    simp only [TimerRun.deleted, CursorList.all_map] at member
    obtain ⟨before, _, rfl⟩ := List.mem_map.mp member
    rw [Timer.mark_id] at same
    exact (before.mark_signed id).mpr (.inr same)
  · rename_i off
    refine ⟨tidy, TimerRun.follows_same rfl rfl rfl, rfl, fun timer member same => ?_⟩
    exact absurd (List.mem_map.mpr ⟨timer, member, same⟩) off

/-- A session is freed behind the mark of its timer. -/
theorem Tidy.frees (tidy : Tidy timers sessions) (ready : Ready timers id .freeing) :
    Tidy timers (sessions.modify id fun sess => { sess with freed := true }) := by
  refine { tidy with size := ?_, signed := fun timer member sess found freed => ?_ }
  · rw [List.length_modify]
    exact tidy.size
  · by_cases same : timer.id = id
    · exact ready timer member same
    · rw [List.getElem?_modify_ne _ _ (Ne.symm same)] at found
      exact tidy.signed timer member sess found freed

theorem Live.length (live : Live sessions id) : id < sessions.length := by
  obtain ⟨sess, found, _⟩ := live
  exact (List.getElem?_eq_some_iff.mp found).1

theorem Live.append (live : Live sessions id) : Live (sessions ++ [⟨none, false⟩]) id := by
  obtain ⟨sess, found, running⟩ := live
  exact ⟨sess, getElem?_stays found _, running⟩

/-- The timers behind a login: those before it, and the new one. -/
theorem mem_create {timer : Timer} (member : timer ∈ (timers.create 5000 false).timers.all) :
    timer ∈ timers.timers.all ∨ timer = timers.newest 5000 false := by
  have listed : (timers.create 5000 false).timers.all =
      timers.timers.all ++ [timers.newest 5000 false] := CursorList.all_append _ _ _
  rw [listed] at member
  exact (List.mem_append.mp member).imp id List.mem_singleton.mp

/-- A new session gets the next timer. -/
theorem Tidy.creates (tidy : Tidy timers sessions) (holds : (timers.create 5000 false).Holds) :
    Tidy (timers.create 5000 false) (sessions ++ [⟨none, false⟩]) := by
  refine ⟨holds, tidy.alone, fun timer member => ?_, ?_, fun timer member sess found freed => ?_⟩
  · rcases mem_create member with before | rfl
    · exact tidy.kind timer before
    · rfl
  · rw [List.length_append, ← tidy.size]
    rfl
  · rcases mem_create member with before | rfl
    · have known : timer.id < sessions.length := by
        rw [← tidy.size]
        exact (tidy.holds.mem_iff timer.id).mp (.inr (List.mem_map_of_mem before))
      rw [List.getElem?_append_left known] at found
      exact tidy.signed timer before sess found freed
    · change sess ∈ (sessions ++ [⟨none, false⟩])[timers.created]? at found
      rw [tidy.size, List.getElem?_concat_length] at found
      rw [← Option.some.inj found] at freed
      cases freed

theorem Ready.creates {phase : LogoutPhase} (ready : Ready timers id phase)
    (tidy : Tidy timers sessions) (live : Live sessions id) :
    Ready (timers.create 5000 false) id phase := by
  cases phase with
  | reading => trivial
  | deleting timer => exact ready
  | freeing =>
    intro timer member same
    rcases mem_create member with before | rfl
    · exact ready timer before same
    · have known := live.length
      rw [← same, ← tidy.size] at known
      exact absurd known (Nat.lt_irrefl _)

theorem Live.apart (live : Live sessions id) {other : Nat} (apart : id ≠ other)
    (change : McSession → McSession) : Live (sessions.modify other change) id := by
  obtain ⟨sess, found, running⟩ := live
  exact ⟨sess, by rw [List.getElem?_modify_ne _ _ (Ne.symm apart)]; exact found, running⟩

end Tidy

/-! ### The runs -/

namespace HeartbeatRun
variable {run after : HeartbeatRun}

structure Holds (run : HeartbeatRun) : Prop where
  safe : run.fault = none
  late : run.late = false
  tidy : Tidy run.timers run.sessions
  calling : run.timers.current = run.beat.session
  linked : ∀ id, ∀ sess ∈ run.sessions[id]?, sess.autoHeartbeat = some id ∨ run.user = .creating id id
  creating : ∀ id timer, run.user = .creating id timer → timer = id
  held : ∀ id ∈ run.held, id < run.sessions.length
  user : ∀ id ∈ run.user.session, Live run.sessions id ∧ run.beat.ends ≠ some id
  leaving : ∀ id phase, run.user = .leaving id phase → Ready run.timers id phase
  ending : ∀ id phase, run.beat = .leaving id phase →
    Live run.sessions id ∧ Ready run.timers id phase

private theorem live_of_freed {id : Nat} (known : id < run.sessions.length) (running : run.freed id = false) :
    Live run.sessions id := by
  rw [freed, List.getElem?_eq_getElem known] at running
  exact ⟨run.sessions[id], List.getElem?_eq_getElem known, running⟩

theorem deref_live {id : Nat} (live : Live run.sessions id) :
    ∃ sess ∈ run.sessions[id]?, run.deref id = .ok sess := by
  obtain ⟨sess, found, running⟩ := live
  refine ⟨sess, found, ?_⟩
  rw [deref, found]
  dsimp only
  rw [running, if_neg Bool.false_ne_true]

/-- A step of a logout whose session is there, and has its timer. -/
theorem mcAccountLogout_ok {id : Nat} {phase : LogoutPhase} (live : Live run.sessions id)
    (ready : Ready run.timers id phase)
    (linked : ∀ sess ∈ run.sessions[id]?, sess.autoHeartbeat = some id) :
    (phase = .reading ∧ run.mcAccountLogout id phase = .ok (run, some (.deleting id))) ∨
    (phase = .deleting id ∧ run.mcAccountLogout id phase =
      .ok ({ run with timers := timerDel run.timers id }, some .freeing)) ∨
    (phase = .freeing ∧ run.mcAccountLogout id phase =
      .ok ({ run with
        sessions := run.sessions.modify id fun sess => { sess with freed := true } }, none)) := by
  obtain ⟨sess, found, derefs⟩ := deref_live live
  cases phase with
  | reading =>
    refine .inl ⟨rfl, ?_⟩
    rw [mcAccountLogout, derefs]
    dsimp only [bind, Except.bind]
    rw [linked sess found]
    rfl
  | deleting timer =>
    obtain rfl := ready
    exact .inr (.inl ⟨rfl, rfl⟩)
  | freeing =>
    refine .inr (.inr ⟨rfl, ?_⟩)
    rw [mcAccountLogout, derefs]
    rfl

/-- The timers go on beside both. -/
theorem Holds.goesOn (holds : run.Holds) {timers : TimerRun} (follows : run.timers.Follows timers)
    (kept : timers.Holds) {beat : BeatPhase} (calling : timers.current = beat.session)
    (quiet : beat = run.beat ∨ ∀ id, beat.ends ≠ some id) :
    ({ run with timers, beat } : HeartbeatRun).Holds := by
  refine { holds with
    tidy := holds.tidy.follows follows kept
    calling := calling
    user := fun id stands => ⟨(holds.user id stands).1, ?_⟩
    leaving := fun id phase same => (holds.leaving id phase same).follows follows
    ending := fun id phase same => ?_ }
  · rcases quiet with rfl | none_
    · exact (holds.user id stands).2
    · exact none_ id
  · rcases quiet with rfl | none_
    · obtain ⟨live, ready⟩ := holds.ending id phase same
      exact ⟨live, ready.follows follows⟩
    · exact absurd (congrArg BeatPhase.ends same) (none_ id)

/-- The user goes from one session to none, or on with it. -/
theorem Holds.moves (holds : run.Holds) {user : UserPhase}
    (noted : ∀ id, run.user ≠ .creating id id) (other : ∀ id timer, user ≠ .creating id timer)
    (usable : ∀ id ∈ user.session, Live run.sessions id ∧ run.beat.ends ≠ some id)
    (ready : ∀ id phase, user = .leaving id phase → Ready run.timers id phase) :
    ({ run with user } : HeartbeatRun).Holds := by
  refine { holds with
    linked := fun id sess found => ?_
    creating := fun id timer same => absurd same (other id timer)
    user := usable
    leaving := ready }
  exact .inl ((holds.linked id sess found).resolve_right (noted id))

theorem Holds.fires (holds : run.Holds) {timers : TimerRun}
    (step : run.timers.next .fire = some timers) : (run.entered timers).Holds := by
  obtain ⟨follows, none_, due⟩ := holds.tidy.holds.next_fire step
  have met : run.timers.Guard .fire := trivial
  have kept := holds.tidy.holds.next met step
  have calling := holds.calling
  rw [none_] at calling
  unfold entered
  cases stands : timers.current with
  | none => exact holds.goesOn follows kept (stands.trans calling) (.inl rfl)
  | some id =>
    obtain ⟨timer, listed, rfl, unsigned⟩ := due id stands
    have calls : timers.current = (BeatPhase.requesting timer.id).session := stands
    have entered := holds.goesOn follows kept calls (.inr fun _ => nofun)
    have running : run.freed timer.id = false := by
      rw [Bool.eq_false_iff]
      intro gone
      rw [freed] at gone
      cases found : run.sessions[timer.id]? with
      | none =>
        rw [found] at gone
        cases gone
      | some sess =>
        rw [found] at gone
        rw [holds.tidy.signed timer listed sess found gone] at unsigned
        cases unsigned
    refine { entered with late := ?_ }
    dsimp only
    rw [running, holds.late]
    rfl

theorem Holds.returns (holds : run.Holds) {bAbortClock : Bool} {timers : TimerRun}
    (step : run.timers.next (.ret bAbortClock) = some timers) :
    ({ run with timers, beat := .idle } : HeartbeatRun).Holds := by
  obtain ⟨follows, none_⟩ := TimerRun.next_ret step
  have met : run.timers.Guard (.ret bAbortClock) := by
    intro timer head auto
    rw [holds.tidy.kind timer (CursorList.mem_of_head head)] at auto
    cases auto
  exact holds.goesOn follows (holds.tidy.holds.next met step) none_ (.inr fun _ => nofun)

/-- A heartbeat fails while nobody else has to do with its session. -/
theorem Holds.fails (holds : run.Holds) {id : Nat} (requesting : run.beat = .requesting id)
    (running : run.freed id = false) (apart : run.user.session ≠ some id) :
    ({ run with beat := .leaving id .reading } : HeartbeatRun).Holds := by
  have calling := holds.calling
  rw [requesting] at calling
  have known : id < run.timers.created :=
    (holds.tidy.holds.mem_iff id).mp (.inr (TimerRun.current_mem calling))
  have live := live_of_freed (holds.tidy.size ▸ known) running
  refine { holds with
    calling := calling
    user := fun other stands => ⟨(holds.user other stands).1, fun same => ?_⟩
    ending := ?_ }
  · rw [(Option.some.inj same : id = other)] at apart
    exact apart stands
  · rintro other phase ⟨⟩
    exact ⟨live, trivial⟩

/-- The session is freed by the one that has logged out. -/
theorem Holds.frees (holds : run.Holds) {id : Nat} {user : UserPhase} {beat : BeatPhase}
    {held : List Nat} (ready : Ready run.timers id .freeing)
    (noted : ∀ other, run.user ≠ .creating other other ∨ user = run.user)
    (fewer : ∀ other ∈ held, other ∈ run.held) (calling : run.beat.session = beat.session)
    (userMoves : user = run.user ∧ run.user.session ≠ some id ∨ user = .idle)
    (beatMoves : beat = run.beat ∧ run.beat.ends ≠ some id ∨ ∀ other, beat.ends ≠ some other) :
    ({ run with
      sessions := run.sessions.modify id fun sess => { sess with freed := true }
      user, beat, held } : HeartbeatRun).Holds := by
  refine ⟨holds.safe, holds.late, holds.tidy.frees ready, holds.calling.trans calling, fun other sess found => ?_,
    fun other timer same => ?_, fun other member => ?_, fun other stands => ?_,
    fun other phase same => ?_, fun other phase same => ?_⟩
  · have origin : ∃ before ∈ run.sessions[other]?, before.autoHeartbeat = sess.autoHeartbeat := by
      by_cases same : id = other
      · subst same
        rw [List.getElem?_modify_eq] at found
        obtain ⟨before, was, rfl⟩ := Option.map_eq_some_iff.mp found
        exact ⟨before, was, rfl⟩
      · rw [List.getElem?_modify_ne _ _ same] at found
        exact ⟨sess, found, rfl⟩
    obtain ⟨before, was, auto⟩ := origin
    rcases holds.linked other before was with linked | creating
    · exact .inl (auto ▸ linked)
    · rcases noted other with elsewhere | rfl
      · exact absurd creating elsewhere
      · exact .inr creating
  · rcases userMoves with ⟨rfl, _⟩ | rfl
    · exact holds.creating other timer same
    · cases same
  · dsimp only
    rw [List.length_modify]
    exact holds.held other (fewer other member)
  · rcases userMoves with ⟨rfl, apart⟩ | rfl
    · obtain ⟨live, elsewhere⟩ := holds.user other stands
      have differ : other ≠ id := by
        rintro rfl
        exact apart stands
      refine ⟨live.apart differ _, ?_⟩
      rcases beatMoves with ⟨rfl, _⟩ | none_
      · exact elsewhere
      · exact none_ other
    · cases stands
  · rcases userMoves with ⟨rfl, _⟩ | rfl
    · exact holds.leaving other phase same
    · cases same
  · rcases beatMoves with ⟨rfl, apart⟩ | none_
    · obtain ⟨live, ready⟩ := holds.ending other phase same
      have differ : other ≠ id := by
        rintro rfl
        exact apart (congrArg BeatPhase.ends same)
      exact ⟨live.apart differ _, ready⟩
    · exact absurd (congrArg BeatPhase.ends same) (none_ other)

theorem Holds.marks (holds : run.Holds) {id : Nat} {user : UserPhase} {beat : BeatPhase}
    (early : ∀ timer ∈ run.timers.awaiting, timer.id = id → timer.remaining ≠ 0)
    (userMoves : user = run.user ∨ run.user = .leaving id (.deleting id) ∧ user = .leaving id .freeing)
    (beatMoves : beat = run.beat ∨
      run.beat = .leaving id (.deleting id) ∧ beat = .leaving id .freeing) :
    ({ run with timers := timerDel run.timers id, user, beat } : HeartbeatRun).Holds := by
  obtain ⟨tidy, follows, same, ready⟩ := holds.tidy.timerDel early
  have beats : beat.session = run.beat.session ∧ beat.ends = run.beat.ends := by
    rcases beatMoves with rfl | ⟨was, rfl⟩
    · exact ⟨rfl, rfl⟩
    · rw [was]
      exact ⟨rfl, rfl⟩
  have users : user.session = run.user.session ∧
      ∀ other timer, user = .creating other timer ↔ run.user = .creating other timer := by
    rcases userMoves with rfl | ⟨was, rfl⟩
    · exact ⟨rfl, fun _ _ => Iff.rfl⟩
    · rw [was]
      exact ⟨rfl, fun _ _ => iff_of_false nofun nofun⟩
  refine ⟨holds.safe, holds.late, tidy, ?_, fun other sess found => ?_, fun other timer creating => ?_,
    holds.held, fun other stands => ?_, fun other phase is => ?_, fun other phase is => ?_⟩
  · rw [same, holds.calling, beats.1]
  · exact (holds.linked other sess found).imp_right (users.2 other other).mpr
  · exact holds.creating other timer ((users.2 other timer).mp creating)
  · dsimp only at stands ⊢
    rw [users.1] at stands
    rw [beats.2]
    exact holds.user other stands
  · rcases userMoves with rfl | ⟨was, rfl⟩
    · exact (holds.leaving other phase is).follows follows
    · cases is
      exact ready
  · rcases beatMoves with rfl | ⟨was, rfl⟩
    · obtain ⟨live, before⟩ := holds.ending other phase is
      exact ⟨live, before.follows follows⟩
    · cases is
      exact ⟨(holds.ending id _ was).1, ready⟩

theorem Holds.linked_of (holds : run.Holds) {id : Nat} (noted : run.user ≠ .creating id id) :
    ∀ sess ∈ run.sessions[id]?, sess.autoHeartbeat = some id := by
  intro sess found
  exact (holds.linked id sess found).resolve_right noted

theorem Holds.userOn (holds : run.Holds) (met : run.Guard .userOn) (step : run.userOn = some after) :
    after.Holds := by
  unfold HeartbeatRun.userOn at step
  cases standing : run.user with
  | leaving id phase =>
    rw [standing] at step
    obtain rfl := Option.some.inj step
    have stands : run.user.session = some id := by
      rw [standing]
      rfl
    have noted : ∀ other, run.user ≠ .creating other other := by
      rw [standing]
      exact fun _ => nofun
    obtain ⟨live, apart⟩ := holds.user id stands
    rcases mcAccountLogout_ok live (holds.leaving id phase standing) (holds.linked_of (noted id)) with
      ⟨rfl, goes⟩ | ⟨rfl, goes⟩ | ⟨rfl, goes⟩
    · rw [goes]
      refine holds.moves noted (fun _ _ => nofun) ?_ ?_
      · rintro other ⟨⟩
        exact ⟨live, apart⟩
      · rintro other phase ⟨⟩
        rfl
    · rw [goes]
      dsimp only [Guard] at met
      rw [standing] at met
      exact holds.marks met (.inr ⟨standing, rfl⟩) (.inl rfl)
    · rw [goes]
      refine holds.frees (holds.leaving id .freeing standing) (fun other => .inl (noted other)) ?_ rfl
        (.inr rfl) (.inl ⟨rfl, apart⟩)
      exact fun other member => (List.mem_filter.mp member).1
  | idle =>
    rw [standing] at step
    cases step
  | creating id timer =>
    rw [standing] at step
    cases step
  | using_ id =>
    rw [standing] at step
    cases step

theorem Holds.beatOn (holds : run.Holds) (step : run.beatOn = some after) : after.Holds := by
  unfold HeartbeatRun.beatOn at step
  cases standing : run.beat with
  | leaving id phase =>
    rw [standing] at step
    obtain rfl := Option.some.inj step
    obtain ⟨live, ready⟩ := holds.ending id phase standing
    have ends : run.beat.ends = some id := by
      rw [standing]
      rfl
    have apart : run.user.session ≠ some id := fun stands => (holds.user id stands).2 ends
    have noted : run.user ≠ .creating id id := fun creating => apart (creating ▸ rfl)
    have calling := holds.calling
    rw [standing] at calling
    rcases mcAccountLogout_ok live ready (holds.linked_of noted) with ⟨rfl, goes⟩ | ⟨rfl, goes⟩ |
      ⟨rfl, goes⟩
    · rw [goes]
      refine { holds with calling := calling, user := fun other stands => ?_, ending := ?_ }
      · obtain ⟨present, elsewhere⟩ := holds.user other stands
        rw [ends] at elsewhere
        exact ⟨present, elsewhere⟩
      · rintro other phase ⟨⟩
        exact ⟨live, rfl⟩
    · rw [goes]
      have early := holds.tidy.holds.current_awaits calling
      exact holds.marks (fun timer member same => absurd same (early timer member)) (.inl rfl)
        (.inr ⟨standing, rfl⟩)
    · rw [goes]
      exact holds.frees ready (fun _ => .inr rfl) (fun _ member => member) (standing ▸ rfl)
        (.inl ⟨rfl, apart⟩) (.inr fun _ => nofun)
  | aborting id =>
    rw [standing] at step
    obtain ⟨timers, returned, rfl⟩ := Option.map_eq_some_iff.mp step
    exact holds.returns returned
  | idle =>
    rw [standing] at step
    cases step
  | requesting id =>
    rw [standing] at step
    cases step

theorem Holds.login (holds : run.Holds) (idle : run.user = .idle) {timers : TimerRun}
    (step : run.timers.next (.create 5000 false) = some timers) :
    ({ run with
      timers
      sessions := run.sessions ++ [⟨none, false⟩]
      user := .creating run.sessions.length run.timers.created } : HeartbeatRun).Holds := by
  have met : run.timers.Guard (.create 5000 false) := trivial
  have kept := holds.tidy.holds.next met step
  rw [TimerRun.next, if_pos holds.tidy.holds.safe, TimerRun.step, if_pos (by decide)] at step
  obtain rfl := Option.some.inj step
  have size := holds.tidy.size
  have same : (run.timers.create 5000 false).current = run.timers.current := by
    unfold TimerRun.current
    simp only [TimerRun.create, CursorList.head_append]
  have last : (run.sessions ++ [(⟨none, false⟩ : McSession)])[run.sessions.length]? =
      some ⟨none, false⟩ := List.getElem?_concat_length
  refine ⟨holds.safe, holds.late, holds.tidy.creates kept, same.trans holds.calling,
    fun id sess found => ?_, ?_, fun id member => ?_, ?_, by simp, fun id phase ending => ?_⟩
  · dsimp only at found ⊢
    rw [size]
    rcases getElem?_grown found with before | ⟨rfl, _⟩
    · refine .inl ((holds.linked id sess before).resolve_right fun creating => ?_)
      rw [idle] at creating
      cases creating
    · exact .inr rfl
  · rintro id timer ⟨⟩
    exact size
  · dsimp only
    rw [List.length_append]
    exact Nat.lt_add_right _ (holds.held id member)
  · rintro id ⟨⟩
    refine ⟨⟨_, last, rfl⟩, fun ends => ?_⟩
    cases standing : run.beat with
    | leaving other phase =>
      dsimp only at ends
      rw [standing] at ends
      have known := (holds.ending other phase standing).1.length
      rw [Option.some.inj ends] at known
      exact Nat.lt_irrefl _ known
    | _ =>
      dsimp only at ends
      rw [standing] at ends
      cases ends
  · obtain ⟨live, ready⟩ := holds.ending id phase ending
    exact ⟨live.append, ready.creates holds.tidy live⟩

theorem Holds.assign (holds : run.Holds) {id timer : Nat} (creating : run.user = .creating id timer) :
    (run.result do
      let _ ← run.deref id
      return { run with
        sessions := run.sessions.modify id fun sess => { sess with autoHeartbeat := some timer }
        user := .idle
        held := id :: run.held }).Holds := by
  obtain ⟨live, _⟩ := holds.user id (by rw [creating]; rfl)
  obtain rfl := holds.creating id timer creating
  obtain ⟨_, _, derefs⟩ := deref_live live
  rw [derefs]
  change ({ run with
    sessions := run.sessions.modify timer fun sess => { sess with autoHeartbeat := some timer }
    user := .idle
    held := timer :: run.held } : HeartbeatRun).Holds
  have alike : ∀ other, ∀ sess : McSession, sess ∈ (run.sessions.modify timer fun sess =>
      { sess with autoHeartbeat := some timer })[other]? →
      (∃ before ∈ run.sessions[other]?, before.freed = sess.freed) ∧
      sess.autoHeartbeat = some other := by
    intro other sess found
    by_cases same : timer = other
    · subst same
      rw [List.getElem?_modify_eq] at found
      obtain ⟨before, was, rfl⟩ := Option.map_eq_some_iff.mp found
      exact ⟨⟨before, was, rfl⟩, rfl⟩
    · rw [List.getElem?_modify_ne _ _ same] at found
      refine ⟨⟨sess, found, rfl⟩, (holds.linked other sess found).resolve_right fun both => same ?_⟩
      rw [creating] at both
      cases both
      rfl
  have lives : ∀ {other : Nat}, Live run.sessions other → Live (run.sessions.modify timer fun sess =>
      { sess with autoHeartbeat := some timer }) other := by
    rintro other ⟨sess, found, running⟩
    by_cases same : timer = other
    · subst same
      refine ⟨{ sess with autoHeartbeat := some timer }, ?_, running⟩
      rw [List.getElem?_modify_eq, found]
      rfl
    · exact ⟨sess, by rw [List.getElem?_modify_ne _ _ same]; exact found, running⟩
  refine ⟨holds.safe, holds.late, { holds.tidy with
    size := ?_, signed := fun other member sess found freed => ?_ }, holds.calling,
    fun other sess found => .inl (alike other sess found).2, nofun, fun other member => ?_, nofun, nofun,
    fun other phase ending => ?_⟩
  · rw [List.length_modify]
    exact holds.tidy.size
  · obtain ⟨⟨before, was, same⟩, _⟩ := alike other.id sess found
    exact holds.tidy.signed other member before was (same.trans freed)
  · change other < (run.sessions.modify timer _).length
    rw [List.length_modify]
    rcases List.mem_cons.mp member with rfl | old
    · exact live.length
    · exact holds.held other old
  · obtain ⟨present, ready⟩ := holds.ending other phase ending
    exact ⟨lives present, ready⟩

/-- A call of the user begins with a session that it may use. -/
theorem Holds.begins (holds : run.Holds) (idle : run.user = .idle) {id : Nat} {user : UserPhase}
    (member : id ∈ run.held) (usable : run.Usable id) (session : user.session = some id)
    (other : ∀ id timer, user ≠ .creating id timer)
    (ready : ∀ id phase, user = .leaving id phase → phase = .reading) :
    ({ run with user } : HeartbeatRun).Holds := by
  have live := live_of_freed (holds.held id member) usable.1
  refine holds.moves (fun _ same => ?_) other (fun stands is => ?_) fun stands phase same => ?_
  · rw [idle] at same
    cases same
  · rw [session] at is
    rw [← Option.some.inj is]
    exact ⟨live, usable.2⟩
  · rw [ready stands phase same]
    trivial

theorem Holds.step {action : HeartbeatAction} (holds : run.Holds) (met : run.Guard action)
    (step : next run action = some after) : after.Holds := by
  have running : ¬run.fault.isSome = true := by
    rw [holds.safe]
    exact Bool.false_ne_true
  unfold HeartbeatRun.next at step
  rw [if_neg running] at step
  have timed : ∀ action : TimerAction, TimerRun.Quiet action →
      (run.timers.next action).map (fun timers => { run with timers }) = some after →
      after.Holds := by
    intro action quiet step
    obtain ⟨timers, next, rfl⟩ := Option.map_eq_some_iff.mp step
    obtain ⟨follows, same⟩ := TimerRun.next_quiet quiet next
    refine holds.goesOn follows (holds.tidy.holds.next ?_ next) (same.trans holds.calling) (.inl rfl)
    cases action with
    | sync =>
      intro _ _ _ walk member
      rw [holds.tidy.alone] at member
      cases member
    | pass _ => trivial
    | tick => trivial
    | wake => trivial
    | _ => cases quiet
  cases action with
  | timer action =>
    cases action with
    | pass _ => exact timed (.pass _) trivial step
    | tick => exact timed .tick trivial step
    | wake => exact timed .wake trivial step
    | sync => exact timed .sync trivial step
    | _ => cases step
  | fire =>
    obtain ⟨timers, next, rfl⟩ := Option.map_eq_some_iff.mp step
    exact holds.fires next
  | beat ok =>
    dsimp only at step
    split at step
    · rename_i id requesting
      cases ok with
      | true =>
        obtain ⟨timers, next, rfl⟩ := Option.map_eq_some_iff.mp step
        exact holds.returns next
      | false =>
        obtain rfl := Option.some.inj step
        obtain ⟨unfreed, apart⟩ := met id (by rw [requesting]; rfl)
        exact holds.fails requesting unfreed apart
    · cases step
  | beatOn => exact holds.beatOn step
  | login =>
    dsimp only at step
    split at step
    · rename_i idle
      obtain ⟨timers, next, rfl⟩ := Option.map_eq_some_iff.mp step
      exact holds.login idle next
    · cases step
  | assign =>
    dsimp only at step
    split at step
    · rename_i id timer creating
      obtain rfl := Option.some.inj step
      exact holds.assign creating
    · cases step
  | call id =>
    dsimp only at step
    split at step
    · rename_i may
      obtain rfl := Option.some.inj step
      exact holds.begins may.1 may.2 met rfl (fun _ _ => nofun) fun _ _ => nofun
    · cases step
  | use =>
    dsimp only at step
    split at step
    · rename_i id using_
      obtain rfl := Option.some.inj step
      obtain ⟨_, _, derefs⟩ := deref_live (holds.user id (by rw [using_]; rfl)).1
      rw [derefs]
      exact holds
    · cases step
  | leave =>
    dsimp only at step
    split at step
    · rename_i id using_
      obtain rfl := Option.some.inj step
      refine holds.moves (fun _ same => ?_) (fun _ _ => nofun) nofun fun _ _ => nofun
      rw [using_] at same
      cases same
    · cases step
  | logout id =>
    dsimp only at step
    split at step
    · rename_i may
      obtain rfl := Option.some.inj step
      refine holds.begins may.1 may.2 met rfl (fun _ _ => nofun) ?_
      rintro _ _ ⟨⟩
      rfl
    · cases step
  | userOn => exact holds.userOn met step

theorem new_holds (clock : Nat) : (new clock).Holds :=
  ⟨rfl, rfl, ⟨TimerRun.new_holds clock, rfl, nofun, rfl, nofun⟩, rfl, nofun, nofun, nofun, nofun, nofun,
    nofun⟩

/-- In a run whose steps all meet the condition no session is used or freed again after it was
freed, by either thread, and no callback is entered for one. -/
theorem heartbeat_of_guard (run : HeartbeatRun) (reached : system.Reachable Guard run) : run.Sound := by
  have holds : run.Holds := by
    refine reached.invariant Holds ?_ fun _ _ _ holds => holds.step
    rintro _ ⟨clock, rfl⟩
    exact new_holds clock
  exact ⟨holds.safe, holds.late⟩

/-- Up to the callback of a first heartbeat. -/
private def beating : List HeartbeatAction :=
  [.login, .assign, .timer .tick, .timer (.pass 5000000), .timer .wake, .timer .sync, .timer .sync,
    .fire]

/-- The session is used, the heartbeat is answered, and the user logs out. -/
private def answered : List HeartbeatAction :=
  beating ++ [.call 0, .use, .beat true, .leave, .logout 0, .userOn, .userOn, .userOn]

theorem heartbeat_answered : ∃ run, system.run (new 0) answered = some run ∧
    run.sessions = [⟨some 0, true⟩] ∧ run.Sound := by
  obtain ⟨run, ran⟩ : ∃ run, system.run (new 0) answered = some run := ⟨_, rfl⟩
  have sessions : (system.run (new 0) answered).map HeartbeatRun.sessions =
      some [⟨some 0, true⟩] := by decide
  rw [ran] at sessions
  refine ⟨run, ran, Option.some.inj sessions, ?_⟩
  have started : system.Start (new 0) := ⟨0, rfl⟩
  exact heartbeat_of_guard run ((System.Reachable.start started).run (by decide) ran)

/-- The heartbeat fails and ends the session, and the user logs out of it. -/
private def userLate : List HeartbeatAction :=
  beating ++ [.beat false, .beatOn, .beatOn, .beatOn, .logout 0, .userOn]

/-- The user logs out while the heartbeat waits for its answer, and it fails. -/
private def beatLate : List HeartbeatAction :=
  beating ++ [.logout 0, .userOn, .userOn, .userOn, .beat false, .beatOn]

/-- The user logs out when the timer has been counted down to its end. -/
private def fireLate : List HeartbeatAction :=
  [.login, .assign, .timer .tick, .timer (.pass 5000000), .timer .wake, .timer .sync, .logout 0, .userOn,
    .userOn, .userOn, .timer .sync, .fire]

theorem not_heartbeat :
    (∃ run, system.run (new 0) userLate = some run ∧ run.fault = some .useAfterFree ∧ ¬run.Sound) ∧
    (∃ run, system.run (new 0) beatLate = some run ∧ run.fault = some .useAfterFree ∧ ¬run.Sound) ∧
    ∃ run, system.run (new 0) fireLate = some run ∧ run.late = true ∧ ¬run.Sound := by
  refine ⟨⟨_, rfl, rfl, fun sound => ?_⟩, ⟨_, rfl, rfl, fun sound => ?_⟩, ⟨_, rfl, rfl, fun sound => ?_⟩⟩
  · cases sound.safe
  · cases sound.safe
  · cases sound.late

end HeartbeatRun
end Livezure.Client
