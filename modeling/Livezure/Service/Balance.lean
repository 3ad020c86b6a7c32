import Livezure.Service.Connections
import Livezure.Service.References

/-! The reference counts of the sessions between the requests. -/
namespace Livezure.Service
open Livezure.Core Db Rpc

def counts (sessions : List SessionEntry) : List Int := sessions.map SessionEntry.ref

/-- A play request with a `uuid`, on a descriptor with a session. -/
def Request.keepsReference (server : Server) (request : Request) : Bool :=
  !request.handler.drefs && (parserGet request.req "uuid").isSome &&
    server.sessions.any fun entry => decide (entry.session.net.fd = request.fd)

/-- The list after a request that is no login. -/
inductive Request.Leaves (request : Request) (before : List SessionEntry) :
    List SessionEntry → Prop where
  | same (settled : request.handler.drefs = true ∨ parserGet request.req "uuid" = none ∨
      onlineSessionRef before request.fd = none) : Leaves request before before
  | heard {index : Nat} {entry : SessionEntry} (heartbeat : request.handler = .heartbeat)
      (at_ : before[index]? = some entry) (own : entry.session.net.fd = request.fd) :
      Leaves request before
        (before.modify index fun entry => { entry with session.net.isHeartbeated := true })
  | marked (logout : request.handler = .accountLogout) :
      Leaves request before (onlineSessionDel request.fd before).2
  | held {index : Nat} {session : OnlineSession} {after : List SessionEntry}
      (play : request.handler.drefs = false) (given : parserGet request.req "uuid" ≠ none)
      (found : onlineSessionRef before request.fd = some (index, session, after)) :
      Leaves request before after

def handling (hash : Bytes → Bytes) : System Server (Surroundings × Request) where
  Start _ := True
  next server call :=
    match call.2.run hash call.1 server with
    -- the process is gone
    | .error _ => none
    | .ok outcome => some outcome.server

/-- If the handler returns, every session has the count it had. -/
def KeepsCounts (hash : Bytes → Bytes) (server : Server) (call : Surroundings × Request) : Prop :=
  ∀ outcome, call.2.run hash call.1 server = .ok outcome →
    counts outcome.server.sessions = counts server.sessions

/-- The request keeps no reference. -/
def Returns (server : Server) (call : Surroundings × Request) : Prop :=
  call.2.keepsReference server = false

namespace Network

/-- Nobody holds a session between the requests, and nobody waits for one. -/
structure Unheld (network : Network) : Prop where
  counts : ∀ entry ∈ network.server.sessions, entry.ref = 0
  timer : network.isTimerStuck = false
  answers : ∀ answered ∈ network.answers, answered.request.handler = .accountLogin →
    answered.reply ≠ none
  /-- Neither a login of any session nor the timer would wait in `pref_release` now. -/
  login : ∀ session, (onlineSessionAdd network.server.sessions session).1 = true
  tick : (onlineSessionCheckAllHearbeat network.server.sessions).1 = true

/-- The handlers that keep a reference find no session. -/
def GivesBack (network : Network) : NetworkAction → Prop
  | .handle index _ => ∀ waiting ∈ network.waiting[index]?,
      waiting.request.keepsReference network.server = false
  | _ => True

instance (network : Network) : (action : NetworkAction) → Decidable (GivesBack network action)
  | .handle index _ => inferInstanceAs (Decidable (∀ waiting ∈ network.waiting[index]?,
      waiting.request.keepsReference network.server = false))
  | .accept _ | .close _ | .arrive _ _ _ | .tick => .isTrue trivial

end Network

/-! ### What a handler leaves -/

section Handlers
variable {server : Server} {fd : Int} {outcome : Outcome} {request : Request}

private theorem withOnlineSession_leaves {body : OnlineSession → Except Fault (Store × Reply)}
    (done : withOnlineSession server fd body = .ok outcome) (drefs : request.handler.drefs = true) :
    request.Leaves server.sessions outcome.server.sessions := by
  rcases withOnlineSession_cases done with ⟨_, rfl⟩ | ⟨_, _, _, _, _, _, _, rfl⟩
  · exact .same (.inl drefs)
  · exact .same (.inl drefs)

private theorem reqHeartbeat_leaves {req : Option RpcReq} (done : reqHeartbeat server fd = .ok outcome) :
    Request.Leaves ⟨.heartbeat, fd, req⟩ server.sessions outcome.server.sessions := by
  unfold reqHeartbeat at done
  split at done
  · obtain rfl := Except.ok.inj done
    exact .same (.inl rfl)
  · rename_i index session held found
    obtain rfl := Except.ok.inj done
    obtain ⟨entry, at_, _, own, _⟩ := onlineSessionRef_some found
    rw [onlineSessionDref_ref found]
    exact .heard rfl at_ own

private theorem reqAccountLogout_leaves {req : Option RpcReq}
    (done : reqAccountLogout server fd = .ok outcome) :
    Request.Leaves ⟨.accountLogout, fd, req⟩ server.sessions outcome.server.sessions := by
  unfold reqAccountLogout at done
  split at done
  · obtain rfl := Except.ok.inj done
    exact .same (.inl rfl)
  · rename_i index session held found
    obtain rfl := Except.ok.inj done
    rw [onlineSessionDref_ref found]
    exact .marked rfl

private theorem reqPlay_leaves {handler : Handler} {req : Option RpcReq}
    {work : Store → List DeviceEntry → Bytes → List DeviceEntry × Reply}
    (done : reqPlay server fd req work = .ok outcome) (play : handler.drefs = false) :
    Request.Leaves ⟨handler, fd, req⟩ server.sessions outcome.server.sessions := by
  rcases reqPlay_cases done with ⟨absent, rfl⟩ | ⟨_, absent, rfl⟩ | ⟨given, _, _, _, _, _, found, rfl⟩
  · exact .same (.inr (.inl absent))
  · exact .same (.inr (.inr absent))
  · exact .held play given found

end Handlers

/-- What any request but a login leaves of the list. -/
theorem Request.leaves {hash : Bytes → Bytes} {around : Surroundings} {server : Server}
    {request : Request} {outcome : Outcome} (noLogin : request.handler ≠ .accountLogin)
    (done : request.run hash around server = .ok outcome) :
    request.Leaves server.sessions outcome.server.sessions := by
  obtain ⟨handler, fd, req⟩ := request
  cases handler
  case versionCheck =>
    rw [reqVersionCheck_server done]
    exact .same (.inl rfl)
  case heartbeat => exact reqHeartbeat_leaves done
  case accountLogin => exact absurd rfl noLogin
  case accountLogout => exact reqAccountLogout_leaves done
  case accountCreate =>
    change reqAccountCreate server fd req hash around = .ok outcome at done
    unfold reqAccountCreate at done
    split at done
    · obtain rfl := Except.ok.inj done
      exact .same (.inl rfl)
    · split at done
      · obtain rfl := Except.ok.inj done
        exact .same (.inl rfl)
      · exact withOnlineSession_leaves done rfl
  case accountModify =>
    change reqAccountModify server fd req hash around = .ok outcome at done
    unfold reqAccountModify at done
    split at done
    · obtain rfl := Except.ok.inj done
      exact .same (.inl rfl)
    · exact withOnlineSession_leaves done rfl
  case accountDelete =>
    change reqAccountDelete server fd req hash around = .ok outcome at done
    unfold reqAccountDelete at done
    split at done
    · obtain rfl := Except.ok.inj done
      exact .same (.inl rfl)
    · exact withOnlineSession_leaves done rfl
  case accountList => exact withOnlineSession_leaves done rfl
  case deviceCreate => exact withOnlineSession_leaves done rfl
  case deviceDelete =>
    change reqDeviceDelete server fd req around = .ok outcome at done
    unfold reqDeviceDelete at done
    split at done
    · obtain rfl := Except.ok.inj done
      exact .same (.inl rfl)
    · exact withOnlineSession_leaves done rfl
  case deviceList => exact withOnlineSession_leaves done rfl
  case playDevice =>
    change reqPlayDevice server fd req = .ok outcome at done
    exact reqPlay_leaves done rfl
  case playStop =>
    change reqPlayStop server fd req = .ok outcome at done
    exact reqPlay_leaves done rfl
  case playTouch =>
    change reqPlayTouch server fd req = .ok outcome at done
    exact reqPlay_leaves done rfl

/-! ### The counts after it -/

theorem counts_modify (sessions : List SessionEntry) (index : Nat) {f : SessionEntry → SessionEntry}
    (ref : ∀ entry, (f entry).ref = entry.ref) :
    counts (sessions.modify index f) = counts sessions := by
  induction sessions generalizing index with
  | nil => rw [List.modify_nil]
  | cons first rest ih =>
    cases index with
    | zero => exact congrArg (· :: counts rest) (ref first)
    | succ index => exact congrArg (first.ref :: ·) (ih index)

theorem counts_del (fd : Int) (sessions : List SessionEntry) :
    counts (onlineSessionDel fd sessions).2 = counts sessions := by
  induction sessions with
  | nil => rfl
  | cons first rest ih =>
    unfold onlineSessionDel
    split
    · rfl
    · exact congrArg (first.ref :: ·) ih

theorem counts_held {sessions held : List SessionEntry} {fd : Int} {index : Nat}
    {session : OnlineSession} (found : onlineSessionRef sessions fd = some (index, session, held)) :
    counts held ≠ counts sessions := by
  obtain ⟨entry, at_, _, _, rfl⟩ := onlineSessionRef_some found
  intro same
  have here := congrArg (fun refs : List Int => refs[index]?) same
  simp only [counts, List.getElem?_map, List.getElem?_modify_eq, at_, Option.map_eq_map,
    Option.map_some, Option.some.injEq] at here
  omega

/-- Exactly the requests that keep a reference change a count. -/
theorem Request.Leaves.counts_iff {request : Request} {server : Server} {after : List SessionEntry}
    (leaves : request.Leaves server.sessions after) :
    counts after = counts server.sessions ↔ request.keepsReference server = false := by
  unfold keepsReference
  cases leaves with
  | same settled =>
    apply iff_of_true rfl
    rcases settled with drefs | absent | absent
    · simp [drefs]
    · simp [absent]
    · have nobody := onlineSessionRef_none.mp absent
      simpa using fun _ _ => nobody
  | heard heartbeat _ _ =>
    exact iff_of_true (counts_modify _ _ fun _ => rfl) (by simp [heartbeat, Handler.drefs])
  | marked logout => exact iff_of_true (counts_del _ _) (by simp [logout, Handler.drefs])
  | held play given found =>
    obtain ⟨entry, at_, _, own, _⟩ := onlineSessionRef_some found
    have somebody : (server.sessions.any fun entry => decide (entry.session.net.fd = request.fd)) = true :=
      List.any_eq_true.mpr ⟨entry, List.mem_of_getElem? at_, decide_eq_true own⟩
    refine iff_of_false (counts_held found) ?_
    simp [play, somebody, Option.isSome_iff_ne_none.mpr given]

private theorem reqPlay_returns {server : Server} {fd : Int} {req : Option RpcReq}
    {work : Store → List DeviceEntry → Bytes → List DeviceEntry × Reply} :
    ∃ outcome, reqPlay server fd req work = .ok outcome := by
  unfold reqPlay
  split
  · exact ⟨_, rfl⟩
  · split
    · exact ⟨_, rfl⟩
    · dsimp only
      split <;> exact ⟨_, rfl⟩

theorem Request.keepsReference_returns (hash : Bytes → Bytes) (around : Surroundings)
    {server : Server} {request : Request} (keeps : request.keepsReference server = true) :
    ∃ outcome, request.run hash around server = .ok outcome := by
  obtain ⟨handler, fd, req⟩ := request
  cases handler
  case playDevice =>
    change ∃ outcome, reqPlayDevice server fd req = .ok outcome
    exact reqPlay_returns
  case playStop =>
    change ∃ outcome, reqPlayStop server fd req = .ok outcome
    exact reqPlay_returns
  case playTouch =>
    change ∃ outcome, reqPlayTouch server fd req = .ok outcome
    exact reqPlay_returns
  all_goals simp [keepsReference, Handler.drefs] at keeps

/-! ### Runs -/

section Runs
variable {hash : Bytes → Bytes}

private theorem keepsCounts_iff {server : Server} {call : Surroundings × Request}
    (noLogin : call.2.handler ≠ .accountLogin) : KeepsCounts hash server call ↔ Returns server call := by
  constructor
  · intro kept
    apply Bool.eq_false_iff.mpr
    intro keeps
    obtain ⟨outcome, done⟩ := Request.keepsReference_returns hash call.1 keeps
    have returns := (Request.leaves noLogin done).counts_iff.mp (kept outcome done)
    rw [keeps] at returns
    cases returns
  · intro returns outcome done
    exact (Request.leaves noLogin done).counts_iff.mpr returns

end Runs

namespace Network

private theorem onlineSessionAdd_free {sessions : List SessionEntry} (session : OnlineSession)
    (free : ∀ entry ∈ sessions, entry.ref = 0) :
    ∃ kept, kept.Sublist sessions ∧
      onlineSessionAdd sessions session = (true, kept ++ [⟨session, 0, false⟩]) := by
  have released := (evictConflicts_released session sessions).mpr fun entry member _ =>
    free entry member
  refine ⟨_, evictConflicts_sublist session sessions, ?_⟩
  unfold onlineSessionAdd
  split
  · rename_i kept waits
    rw [waits] at released
    cases released
  · rename_i kept evicted
    rw [evicted]

theorem tick_free {sessions : List SessionEntry} (free : ∀ entry ∈ sessions, entry.ref = 0) :
    (onlineSessionCheckAllHearbeat sessions).1 = true ∧
      (counts (onlineSessionCheckAllHearbeat sessions).2).Sublist (counts sessions) := by
  induction sessions with
  | nil => exact ⟨rfl, .slnil⟩
  | cons entry rest ih =>
    obtain ⟨released, fewer⟩ := ih fun other member => free other (List.mem_cons_of_mem _ member)
    unfold onlineSessionCheckAllHearbeat
    split
    · exact ⟨decide_eq_true (free entry List.mem_cons_self), List.sublist_cons_self _ _⟩
    · exact ⟨released, fewer.cons_cons _⟩

/-- What guarded steps keep. -/
structure Free (network : Network) : Prop where
  counts : ∀ entry ∈ network.server.sessions, entry.ref = 0
  timer : network.isTimerStuck = false
  answers : ∀ answered ∈ network.answers, answered.request.handler = .accountLogin →
    answered.reply ≠ none

theorem Free.unheld {network : Network} (free : Free network) : Unheld network where
  counts := free.counts
  timer := free.timer
  answers := free.answers
  login session := by
    obtain ⟨_, _, added⟩ := onlineSessionAdd_free session free.counts
    rw [added]
  tick := (tick_free free.counts).1

private theorem free_of_counts {sessions before : List SessionEntry}
    (free : ∀ entry ∈ before, entry.ref = 0) (fewer : (counts sessions).Sublist (counts before)) :
    ∀ entry ∈ sessions, entry.ref = 0 := by
  intro entry member
  have listed : entry.ref ∈ counts before := fewer.subset (List.mem_map_of_mem member)
  obtain ⟨old, present, same⟩ := List.mem_map.mp listed
  rw [← same]
  exact free old present

private theorem reqAccountLogin_free {hash : Bytes → Bytes} {around : Surroundings} {server : Server}
    {fd : Int} {req : Option RpcReq} {outcome : Outcome}
    (free : ∀ entry ∈ server.sessions, entry.ref = 0)
    (done : reqAccountLogin server fd req hash around = .ok outcome) :
    (∀ entry ∈ outcome.server.sessions, entry.ref = 0) ∧ outcome.reply ≠ none := by
  rcases reqAccountLogin_cases done with rfl | rfl | ⟨_, _, _, session, kept, _, _, _, ended⟩
  · exact ⟨free, Option.some_ne_none _⟩
  · exact ⟨free, Option.some_ne_none _⟩
  · have released := (evictConflicts_released session server.sessions).mpr fun entry member _ =>
      free entry member
    have fewer := evictConflicts_sublist session server.sessions
    rcases ended with ⟨evicted, _⟩ | ⟨evicted, more, rfl⟩
    · rw [evicted] at released
      cases released
    · rw [evicted] at fewer
      refine ⟨fun entry member => ?_, Option.some_ne_none _⟩
      rcases List.mem_append.mp member with old | new
      · exact free entry (fewer.subset old)
      · rw [List.mem_singleton.mp new]

theorem Free.finish {hash : Bytes → Bytes} {around : Surroundings} {network : Network}
    {index : Nat} {waiting : Waiting} {outcome : Outcome} (free : Free network)
    (taken : network.waiting[index]? = some waiting)
    (met : GivesBack network (.handle index around))
    (done : waiting.request.run hash around network.server = .ok outcome) :
    Free (network.finish index waiting outcome) := by
  have handled : (∀ entry ∈ outcome.server.sessions, entry.ref = 0) ∧
      (waiting.request.handler = .accountLogin → outcome.reply ≠ none) := by
    by_cases login : waiting.request.handler = .accountLogin
    · have login_done : reqAccountLogin network.server waiting.request.fd waiting.request.req
          hash around = .ok outcome := by
        simpa only [Request.run, login] using done
      obtain ⟨kept, replied⟩ := reqAccountLogin_free free.counts login_done
      exact ⟨kept, fun _ => replied⟩
    · have same := (Request.leaves login done).counts_iff.mpr (met waiting taken)
      refine ⟨free_of_counts free.counts ?_, fun own => absurd own login⟩
      rw [same]
  refine ⟨handled.1, free.timer, fun answered member => ?_⟩
  rcases List.mem_append.mp member with old | new
  · exact free.answers answered old
  · obtain rfl := List.mem_singleton.mp new
    exact handled.2

theorem Free.step {hash : Bytes → Bytes} {before after : Network} {action : NetworkAction}
    (free : Free before) (met : GivesBack before action)
    (step : next hash before action = some after) : Free after := by
  cases action with
  | accept fd =>
    simp only [next] at step
    split at step
    · cases step
    · obtain rfl := Option.some.inj step
      exact { free with }
  | close connection =>
    obtain rfl := Option.some.inj step
    exact { free with }
  | arrive connection handler req =>
    simp only [next] at step
    split at step
    · cases step
    · obtain rfl := Option.some.inj step
      exact { free with }
  | handle index around =>
    simp only [next] at step
    split at step
    · cases step
    · rename_i waiting taken
      split at step
      · cases step
      · rename_i outcome done
        obtain rfl := Option.some.inj step
        exact free.finish taken met done
  | tick =>
    simp only [next] at step
    split at step
    · cases step
    · obtain ⟨released, fewer⟩ := tick_free free.counts
      obtain rfl := Option.some.inj step
      refine ⟨free_of_counts free.counts fewer, ?_, free.answers⟩
      simp [released]

private theorem free_of_reachable {hash : Bytes → Bytes} {network : Network}
    (reached : (system hash).Reachable GivesBack network) : Free network := by
  refine reached.invariant Free ?_ ?_
  · rintro network ⟨store, rfl⟩
    exact
      { counts := fun _ member => absurd member List.not_mem_nil
        timer := rfl
        answers := fun _ member => absurd member List.not_mem_nil }
  · intro before action after free met step
    exact Free.step free met step

end Network

/-- The handlers leave every count as it was exactly in the sequences in which no play handler
finds a session; while none does, nobody is held between the requests and nobody waits. -/
theorem balanced_iff (hash : Bytes → Bytes) (server : Server) (calls : List (Surroundings × Request))
    (kinds : ∀ call ∈ calls, call.2.handler ≠ .accountLogin) :
    ((handling hash).Guarded (KeepsCounts hash) server calls ↔
      (handling hash).Guarded Returns server calls) ∧
    ∀ network, (Network.system hash).Reachable Network.GivesBack network → network.Unheld := by
  constructor
  · apply System.guarded_congr
    intro server call listed
    exact keepsCounts_iff (kinds call listed)
  · intro network reached
    exact (Network.free_of_reachable reached).unheld

/-- The admin's heartbeat, and a play request for no device; then the admin logs out. -/
theorem balanced_quiet :
    let server : Server := ⟨Network.oneAdmin.server.store,
      [⟨⟨⟨[97], [112], [], [], [50]⟩, [], true, true, ⟨5, [], 0, true⟩⟩, 0, false⟩], []⟩
    let calls : List (Surroundings × Request) :=
      [(Network.quiet, ⟨.heartbeat, 5, none⟩), (Network.quiet, ⟨.playTouch, 5, none⟩),
        (Network.quiet, ⟨.accountLogout, 5, none⟩)]
    (handling id).Guarded (KeepsCounts id) server calls ∧
      ∃ network, (Network.system id).Reachable Network.GivesBack network ∧ network.Unheld ∧
        network.server.sessions.length = 1 := by
  intro server calls
  have both := balanced_iff id server calls (by decide)
  refine ⟨both.1.mpr ?_, ?_⟩
  · refine ⟨rfl, fun second first => ⟨?_, fun third later => ⟨?_, fun _ _ => trivial⟩⟩⟩
    · obtain rfl := Option.some.inj first
      rfl
    · obtain rfl := Option.some.inj first
      obtain rfl := Option.some.inj later
      rfl
  · have started : (Network.system id).Reachable Network.GivesBack Network.oneAdmin :=
      .start ⟨_, rfl⟩
    have met : (Network.system id).Guarded Network.GivesBack Network.oneAdmin
        Network.adminLogin := by decide +kernel
    have reached := started.run met rfl
    exact ⟨_, reached, both.2 _ reached, rfl⟩

/-- The admin asks after a device that nobody has: the count stays at 1. -/
theorem not_balanced_touch :
    let server : Server := ⟨Network.oneAdmin.server.store,
      [⟨⟨⟨[97], [112], [], [], [50]⟩, [], true, true, ⟨5, [], 0, true⟩⟩, 0, false⟩], []⟩
    let touch : Request := ⟨.playTouch, 5, some [⟨ascii "uuid", some [120], 1⟩]⟩
    ¬(handling id).Guarded (KeepsCounts id) server [(Network.quiet, touch)] ∧
      ∃ after, (handling id).next server (Network.quiet, touch) = some after ∧
        counts after.sessions = [1] ∧
        (onlineSessionCheckAllHearbeat (onlineSessionDel 5 after.sessions).2).1 = false := by
  intro server touch
  refine ⟨fun kept => ?_, _, rfl, rfl, rfl⟩
  have same := kept.1 _ rfl
  cases same

end Livezure.Service
