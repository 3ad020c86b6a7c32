import Livezure.Core.Transition
import Livezure.Service.Listing
import Livezure.Service.Prints

/-! Connections that come and go, and the sessions that are found on their descriptors. -/
namespace Livezure.Service
open Livezure.Core Db Rpc

/-- A request that waits for a worker, with the connection it arrived on. -/
structure Waiting where
  connection : Nat
  request : Request
  deriving DecidableEq

/-- A request that a handler has finished with, and what was known when it began. -/
structure Answered where
  connection : Nat
  request : Request
  found : Option (Option OnlineSession)
  reply : Option Reply
  /-- The last login or logout on the descriptor that succeeded was a logout. -/
  isLoggedOut : Bool
  logins : List (Nat × OnlineSession)
  deriving DecidableEq

structure Network where
  server : Server
  accepted : Nat
  live : List (Nat × Int)
  waiting : List Waiting
  /-- The timer's thread waits in `pref_release`. -/
  isTimerStuck : Bool
  /-- Descriptors that were logged out, and the sessions that logins on a connection started. -/
  loggedOuts : List Int
  logins : List (Nat × OnlineSession)
  answers : List Answered
  deriving DecidableEq

inductive NetworkAction where
  /-- The system gives out a descriptor that no open connection has. -/
  | accept (fd : Int)
  | close (connection : Nat)
  | arrive (connection : Nat) (handler : Handler) (req : Option RpcReq)
  | handle (index : Nat) (around : Surroundings)
  | tick
  deriving DecidableEq

namespace Network

/-- A server with no session; the tables may hold anything. -/
def Start (network : Network) : Prop :=
  ∃ store, network = ⟨⟨store, [], []⟩, 0, [], [], false, [], [], []⟩

/-- The requests handled so far with one more, and the sessions after it. -/
def finish (network : Network) (index : Nat) (waiting : Waiting) (outcome : Outcome) : Network :=
  let fd := waiting.request.fd
  { network with
    server := outcome.server
    waiting := network.waiting.eraseIdx index
    loggedOuts :=
      if loggedIn waiting.request outcome then
        network.loggedOuts.filter fun other => decide (other ≠ fd)
      else if loggedOut waiting.request outcome then fd :: network.loggedOuts
      else network.loggedOuts
    logins :=
      if loggedIn waiting.request outcome then
        network.logins ++ (sessionAt outcome.server fd).toList.map fun session =>
          (waiting.connection, session)
      else network.logins
    answers := network.answers ++ [⟨waiting.connection, waiting.request, outcome.found,
      outcome.reply, decide (fd ∈ network.loggedOuts), network.logins⟩] }

def next (hash : Bytes → Bytes) (network : Network) : NetworkAction → Option Network
  | .accept fd =>
    if fd ∈ network.live.map Prod.snd then none
    else some { network with
      live := network.live ++ [(network.accepted, fd)], accepted := network.accepted + 1 }
  | .close connection =>
    -- nobody has asked to hear of it: `service_bootstrap` sets no `rpc_service_event`
    some { network with live := network.live.filter fun open_ => decide (open_.1 ≠ connection) }
  | .arrive connection handler req =>
    match network.live.find? fun open_ => decide (open_.1 = connection) with
    | none => none
    | some (_, fd) => some { network with
        waiting := network.waiting ++ [⟨connection, handler, fd, req⟩] }
  | .handle index around =>
    match network.waiting[index]? with
    | none => none
    | some waiting =>
      match waiting.request.run hash around network.server with
      -- the process is gone
      | .error _ => none
      | .ok outcome => some (network.finish index waiting outcome)
  | .tick =>
    if network.isTimerStuck then none
    else
      let (released, sessions) := onlineSessionCheckAllHearbeat network.server.sessions
      some { network with server.sessions := sessions, isTimerStuck := !released }

def system (hash : Bytes → Bytes) : System Network NetworkAction where
  Start := Start
  next := next hash

/-- After a logout no session is found on the descriptor before the next login. -/
def Expired (answered : Answered) : Prop :=
  answered.isLoggedOut = true → ∀ found, answered.found = some found →
    found = none ∧ answered.reply = some (rid (-300))

/-- A session that is found was started by a login on the same connection. -/
def OwnLogin (answered : Answered) : Prop :=
  ∀ session, answered.found = some (some session) →
    (answered.connection, session.started) ∈ answered.logins

/-- A handler asks for the session of a descriptor only while no session of it is marked. -/
def AsksUnmarked (network : Network) : NetworkAction → Prop
  | .handle index around => ∀ waiting ∈ network.waiting[index]?,
      waiting.request.authenticates around network.server.store = true →
      ∀ entry ∈ network.server.sessions, entry.session.net.fd = waiting.request.fd →
        entry.isMarkDeleted = false
  | _ => True

/-- A descriptor is given out again only when no session and no request is left of it. -/
def GivesFresh (network : Network) : NetworkAction → Prop
  | .accept fd => (∀ entry ∈ network.server.sessions, entry.session.net.fd ≠ fd) ∧
      ∀ waiting ∈ network.waiting, waiting.request.fd ≠ fd
  | _ => True

instance (network : Network) : (action : NetworkAction) → Decidable (AsksUnmarked network action)
  | .handle index around => inferInstanceAs (Decidable (∀ waiting ∈ network.waiting[index]?,
      waiting.request.authenticates around network.server.store = true →
      ∀ entry ∈ network.server.sessions, entry.session.net.fd = waiting.request.fd →
        entry.isMarkDeleted = false))
  | .accept _ | .close _ | .arrive _ _ _ | .tick => .isTrue trivial

instance (network : Network) : (action : NetworkAction) → Decidable (GivesFresh network action)
  | .accept fd => inferInstanceAs (Decidable (
      (∀ entry ∈ network.server.sessions, entry.session.net.fd ≠ fd) ∧
      ∀ waiting ∈ network.waiting, waiting.request.fd ≠ fd))
  | .close _ | .arrive _ _ _ | .handle _ _ | .tick => .isTrue trivial

/-- No text that a handler prints into a statement has a quote, and each statement fits. -/
def PlainTexts (hash : Bytes → Bytes) (network : Network) : NetworkAction → Prop
  | .handle index around => ∀ waiting ∈ network.waiting[index]?,
      AllPlain (waiting.request.prints hash around.toAmbient network.server)
  | _ => True

instance (hash : Bytes → Bytes) (network : Network) :
    (action : NetworkAction) → Decidable (PlainTexts hash network action)
  | .handle index around => inferInstanceAs (Decidable (∀ waiting ∈ network.waiting[index]?,
      AllPlain (waiting.request.prints hash around.toAmbient network.server)))
  | .accept _ | .close _ | .arrive _ _ _ | .tick => .isTrue trivial

/-- The data base gets the statements that a handler means. -/
def DenotingTexts (hash : Bytes → Bytes) (network : Network) : NetworkAction → Prop
  | .handle index around => ∀ waiting ∈ network.waiting[index]?,
      AllDenote (waiting.request.prints hash around.toAmbient network.server)
  | _ => True

theorem denotingTexts_iff {hash : Bytes → Bytes} {network : Network} {action : NetworkAction} :
    DenotingTexts hash network action ↔ PlainTexts hash network action := by
  cases action with
  | handle index around => exact forall₂_congr fun _ _ => allDenote_iff
  | _ => exact Iff.rfl

/-! ### Runs -/

theorem guarded_denotingTexts {hash : Bytes → Bytes} {network : Network} {actions : List NetworkAction}
    (plain : (system hash).Guarded (PlainTexts hash) network actions) :
    (system hash).Guarded (DenotingTexts hash) network actions :=
  (System.guarded_congr (fun _ _ _ => denotingTexts_iff) network).mpr plain

def oneAdmin : Network where
  server := ⟨{ Store.init with
    basic := ⟨[⟨[97], [112], [], [], [50]⟩], by decide⟩
    admin := ⟨[⟨[97], 0, [], [], [50]⟩], by decide⟩ }, [], []⟩
  accepted := 0
  live := []
  waiting := []
  isTimerStuck := false
  loggedOuts := []
  logins := []
  answers := []

def quiet : Surroundings := ⟨⟨[50], [], []⟩, none⟩

def adminLogin : List NetworkAction :=
  [.accept 5,
    .arrive 0 .accountLogin (some [⟨ascii "pid", some (ascii "100"), 3⟩,
      ⟨ascii "uuid", some [97], 1⟩, ⟨ascii "pwd", some [112], 1⟩]),
    .handle 0 quiet]

/-! ### After a logout -/

/-- What guarded steps keep of logged out descriptors. -/
structure LoggedOut (network : Network) : Prop where
  unique : (descriptors network.server.sessions).Nodup
  marked : ∀ entry ∈ network.server.sessions, entry.session.net.fd ∈ network.loggedOuts →
    entry.isMarkDeleted = true
  answers : ∀ answered ∈ network.answers, Expired answered

private theorem StaysFrom_marked {sessions : List SessionEntry} {loggedOuts : List Int}
    (marked : ∀ entry ∈ sessions, entry.session.net.fd ∈ loggedOuts → entry.isMarkDeleted = true)
    {entry : SessionEntry} (stays : StaysFrom sessions entry)
    (listed : entry.session.net.fd ∈ loggedOuts) : entry.isMarkDeleted = true := by
  obtain ⟨old, member, same, kept⟩ := stays
  refine kept (marked old member ?_)
  have fd : old.session.started.net.fd = entry.session.started.net.fd := by
    rw [same]
  exact fd ▸ listed

theorem LoggedOut.finish {hash : Bytes → Bytes} {around : Surroundings} {network : Network}
    {index : Nat} {waiting : Waiting} {outcome : Outcome} (holds : LoggedOut network)
    (taken : network.waiting[index]? = some waiting)
    (met : AsksUnmarked network (.handle index around))
    (done : waiting.request.run hash around network.server = .ok outcome) :
    LoggedOut (network.finish index waiting outcome) := by
  obtain ⟨unique, entries, marks⟩ := Request.relisted done
  refine ⟨unique holds.unique, fun entry member listed => ?_, fun answered member => ?_⟩
  · have member : entry ∈ outcome.server.sessions := member
    rcases entries entry member with stays | ⟨login, own, _, _⟩
    · simp only [Network.finish] at listed
      split at listed
      · exact StaysFrom_marked holds.marked stays (List.mem_filter.mp listed).1
      · split at listed
        · rename_i out
          rcases List.mem_cons.mp listed with same | before
          · exact marks out holds.unique entry member same
          · exact StaysFrom_marked holds.marked stays before
        · exact StaysFrom_marked holds.marked stays listed
    · -- the login has taken its descriptor off the list
      simp [Network.finish, login, own] at listed
  · rcases List.mem_append.mp member with old | new
    · exact holds.answers answered old
    · obtain rfl := List.mem_singleton.mp new
      intro isLoggedOut found given
      rcases Request.finds done with nothing | ⟨asks, nobody | ⟨entry, listed, own, _⟩⟩
      · rw [nothing] at given
        cases given
      · obtain ⟨found_, reply⟩ := nobody
        rw [found_] at given
        exact ⟨(Option.some.inj given).symm, reply⟩
      · have unmarked := met waiting taken asks entry listed own
        have out := holds.marked entry listed (own ▸ of_decide_eq_true isLoggedOut)
        rw [unmarked] at out
        cases out

theorem LoggedOut.step {hash : Bytes → Bytes} {before after : Network} {action : NetworkAction}
    (holds : LoggedOut before) (met : AsksUnmarked before action)
    (step : next hash before action = some after) : LoggedOut after := by
  cases action with
  | accept fd =>
    simp only [next] at step
    split at step
    · cases step
    · obtain rfl := Option.some.inj step
      exact { holds with }
  | close connection =>
    obtain rfl := Option.some.inj step
    exact { holds with }
  | arrive connection handler req =>
    simp only [next] at step
    split at step
    · cases step
    · obtain rfl := Option.some.inj step
      exact { holds with }
  | handle index around =>
    simp only [next] at step
    split at step
    · cases step
    · rename_i waiting taken
      split at step
      · cases step
      · rename_i outcome done
        obtain rfl := Option.some.inj step
        exact holds.finish taken met done
  | tick =>
    simp only [next] at step
    split at step
    · cases step
    · obtain rfl := Option.some.inj step
      obtain ⟨fewer, stays⟩ := onlineSessionCheckAllHearbeat_stays before.server.sessions
      refine { holds with
        unique := holds.unique.sublist fewer
        marked := fun entry member listed =>
          StaysFrom_marked holds.marked (stays entry member) listed }

/-- While handlers ask only for descriptors without a marked session, a logout ends the
session for every later request. -/
theorem expired_of_guard (hash : Bytes → Bytes) (network : Network)
    (reached : (system hash).Reachable AsksUnmarked network) :
    ∀ answered ∈ network.answers, Expired answered := by
  have holds : LoggedOut network := by
    refine reached.invariant LoggedOut ?_ ?_
    · rintro network ⟨store, rfl⟩
      exact
        { unique := List.nodup_nil
          marked := fun _ member => absurd member List.not_mem_nil
          answers := fun _ member => absurd member List.not_mem_nil }
    · intro before action after holds met step
      exact LoggedOut.step holds met step
  exact holds.answers

/-- The admin logs out, and the timer has removed the session before the next request. -/
theorem expired_ticked : ∃ network, (system id).run oneAdmin (adminLogin ++
      [.arrive 0 .accountLogout none, .handle 0 quiet, .tick,
        .arrive 0 .heartbeat none, .handle 0 quiet]) = some network ∧
    ∀ answered ∈ network.answers, Expired answered := by
  have met : (system id).Guarded AsksUnmarked oneAdmin (adminLogin ++
      [.arrive 0 .accountLogout none, .handle 0 quiet, .tick,
        .arrive 0 .heartbeat none, .handle 0 quiet]) := by decide +kernel
  have started : (system id).Reachable AsksUnmarked oneAdmin := .start ⟨_, rfl⟩
  exact ⟨_, rfl, expired_of_guard id _ (started.run met rfl)⟩

/-- The admin logs out and goes on as before. -/
theorem loggedOut_found : ∃ network, (system id).Reachable System.Free network ∧
    ∃ answered ∈ network.answers, answered.request.handler = .heartbeat ∧ ¬Expired answered := by
  have started : (system id).Reachable System.Free oneAdmin := .start ⟨_, rfl⟩
  refine ⟨_, started.run (System.guarded_free _ (adminLogin ++
    [.arrive 0 .accountLogout none, .handle 0 quiet, .arrive 0 .heartbeat none,
      .handle 0 quiet])) rfl, ⟨0, ⟨.heartbeat, 5, none⟩, _, _, _, _⟩,
    List.mem_of_getElem? (i := 2) rfl, rfl, ?_⟩
  intro expired
  obtain ⟨nobody, _⟩ := expired rfl _ rfl
  cases nobody

/-! ### One descriptor after another -/

/-- The connection has the descriptor, or a request of it waits that had it. -/
def Holds (network : Network) (connection : Nat) (fd : Int) : Prop :=
  (connection, fd) ∈ network.live ∨
    ∃ waiting ∈ network.waiting, waiting.connection = connection ∧ waiting.request.fd = fd

/-- What guarded steps keep of descriptors and their sessions. -/
structure Owned (network : Network) : Prop where
  one : ∀ fd first second, network.Holds first fd → network.Holds second fd → first = second
  started : ∀ entry ∈ network.server.sessions, ∀ connection,
    network.Holds connection entry.session.net.fd →
    (connection, entry.session.started) ∈ network.logins
  answers : ∀ answered ∈ network.answers, OwnLogin answered

/-- Fewer holders and fewer sessions. -/
theorem Owned.fewer {before after : Network} (owned : Owned before)
    (holders : ∀ connection fd, after.Holds connection fd → before.Holds connection fd)
    (sessions : ∀ entry ∈ after.server.sessions, StaysFrom before.server.sessions entry)
    (logins : after.logins = before.logins) (answers : after.answers = before.answers) :
    Owned after where
  one fd first second holdsFirst holdsSecond :=
    owned.one fd first second (holders _ _ holdsFirst) (holders _ _ holdsSecond)
  started entry member connection holds := by
    obtain ⟨old, listed, same, _⟩ := sessions entry member
    have fd : old.session.started.net.fd = entry.session.started.net.fd := by
      rw [same]
    rw [logins, ← same]
    refine owned.started old listed connection (holders _ _ ?_)
    exact fd ▸ holds
  answers := answers ▸ owned.answers

theorem Owned.accept {network : Network} (owned : Owned network) (fd : Int)
    (closed : fd ∉ network.live.map Prod.snd)
    (fresh : GivesFresh network (.accept fd)) :
    Owned { network with
      live := network.live ++ [(network.accepted, fd)], accepted := network.accepted + 1 } := by
  obtain ⟨noSession, noWaiting⟩ := fresh
  -- nobody had this descriptor
  have none_ : ∀ connection, ¬network.Holds connection fd := by
    rintro connection (open_ | ⟨waiting, member, _, same⟩)
    · exact closed (List.mem_map_of_mem open_)
    · exact noWaiting waiting member same
  have holders : ∀ connection other, Holds { network with
      live := network.live ++ [(network.accepted, fd)], accepted := network.accepted + 1 }
        connection other →
      network.Holds connection other ∨ (connection = network.accepted ∧ other = fd) := by
    rintro connection other (open_ | before)
    · rcases List.mem_append.mp open_ with old | new
      · exact .inl (.inl old)
      · exact .inr (Prod.mk.inj (List.mem_singleton.mp new))
    · exact .inl (.inr before)
  refine ⟨fun other first second holdsFirst holdsSecond => ?_, ?_, owned.answers⟩
  · rcases holders _ _ holdsFirst, holders _ _ holdsSecond with
      ⟨old | ⟨rfl, rfl⟩, old' | ⟨rfl, same⟩⟩
    · exact owned.one other first second old old'
    · exact absurd (same ▸ old) (none_ _)
    · exact absurd old' (none_ _)
    · rfl
  · intro entry member connection holds
    rcases holders _ _ holds with old | ⟨_, same⟩
    · exact owned.started entry member connection old
    · exact absurd same (noSession entry member)

theorem Owned.arrive {network : Network} (owned : Owned network) {connection : Nat} {fd : Int}
    (handler : Handler) (req : Option RpcReq) (open_ : (connection, fd) ∈ network.live) :
    Owned { network with
      waiting := network.waiting ++ [⟨connection, handler, fd, req⟩] } := by
  refine owned.fewer (fun holder other holds => ?_) (fun _ member => .of_mem member) rfl rfl
  rcases holds with live | ⟨waiting, member, rfl, rfl⟩
  · exact .inl live
  · rcases List.mem_append.mp member with old | new
    · exact .inr ⟨waiting, old, rfl, rfl⟩
    · obtain rfl := List.mem_singleton.mp new
      exact .inl open_

theorem Owned.finish {hash : Bytes → Bytes} {around : Surroundings} {network : Network}
    {index : Nat} {waiting : Waiting} {outcome : Outcome} (owned : Owned network)
    (taken : network.waiting[index]? = some waiting)
    (done : waiting.request.run hash around network.server = .ok outcome) :
    Owned (network.finish index waiting outcome) := by
  have entries := (Request.relisted done).entries
  have own : network.Holds waiting.connection waiting.request.fd :=
    .inr ⟨waiting, List.mem_of_getElem? taken, rfl, rfl⟩
  have holders : ∀ connection fd, (network.finish index waiting outcome).Holds connection fd →
      network.Holds connection fd := by
    rintro connection fd (live | ⟨other, member, rfl, rfl⟩)
    · exact .inl live
    · exact .inr ⟨other, List.mem_of_mem_eraseIdx member, rfl, rfl⟩
  have grown : ∀ login ∈ network.logins, login ∈ (network.finish index waiting outcome).logins := by
    intro login member
    simp only [Network.finish]
    split
    · exact List.mem_append_left _ member
    · exact member
  refine ⟨fun fd first second holdsFirst holdsSecond => ?_, ?_, ?_⟩
  · exact owned.one fd first second (holders _ _ holdsFirst) (holders _ _ holdsSecond)
  · intro entry member connection holds
    rcases entries entry member with ⟨old, listed, same, _⟩ | ⟨login, fd, found, fresh⟩
    · have fd : old.session.started.net.fd = entry.session.started.net.fd := by
        rw [same]
      rw [← same]
      exact grown _ (owned.started old listed connection (fd ▸ holders _ _ holds))
    · have holder := owned.one _ _ _ (fd ▸ holders _ _ holds) own
      simp only [Network.finish, login, if_true]
      rw [found, fresh, holder]
      exact List.mem_append_right _ List.mem_cons_self
  · intro answered member
    rcases List.mem_append.mp member with old | new
    · exact owned.answers answered old
    · obtain rfl := List.mem_singleton.mp new
      intro session given
      rcases Request.finds done with nothing | ⟨_, ⟨nobody, _⟩ | ⟨entry, listed, same, found⟩⟩
      · rw [nothing] at given
        cases given
      · rw [nobody] at given
        cases given
      · rw [found] at given
        obtain rfl := Option.some.inj (Option.some.inj given)
        exact owned.started entry listed _ (same ▸ own)

theorem Owned.step {hash : Bytes → Bytes} {before after : Network} {action : NetworkAction}
    (owned : Owned before) (met : GivesFresh before action)
    (step : next hash before action = some after) : Owned after := by
  cases action with
  | accept fd =>
    simp only [next] at step
    split at step
    · cases step
    · rename_i closed
      obtain rfl := Option.some.inj step
      exact owned.accept fd closed met
  | close connection =>
    obtain rfl := Option.some.inj step
    refine owned.fewer (fun holder fd holds => ?_) (fun _ member => .of_mem member) rfl rfl
    exact holds.imp_left fun open_ => (List.mem_filter.mp open_).1
  | arrive connection handler req =>
    simp only [next] at step
    split at step
    · cases step
    · rename_i number fd found
      obtain rfl := Option.some.inj step
      have same := List.find?_some found
      obtain rfl : number = connection := of_decide_eq_true same
      exact owned.arrive handler req (List.mem_of_find?_eq_some found)
  | handle index around =>
    simp only [next] at step
    split at step
    · cases step
    · rename_i waiting taken
      split at step
      · cases step
      · rename_i outcome done
        obtain rfl := Option.some.inj step
        exact owned.finish taken done
  | tick =>
    simp only [next] at step
    split at step
    · cases step
    · obtain rfl := Option.some.inj step
      exact owned.fewer (fun _ _ holds => holds)
        (onlineSessionCheckAllHearbeat_stays before.server.sessions).2 rfl rfl

/-- While a descriptor is given out again only after its sessions and requests are gone, a
session is found on the connection that logged in, and on no other. -/
theorem ownLogin_of_guard (hash : Bytes → Bytes) (network : Network)
    (reached : (system hash).Reachable GivesFresh network) :
    ∀ answered ∈ network.answers, OwnLogin answered := by
  have owned : Owned network := by
    refine reached.invariant Owned ?_ ?_
    · rintro network ⟨store, rfl⟩
      refine ⟨fun fd first second holds => ?_, fun _ member => absurd member List.not_mem_nil,
        fun _ member => absurd member List.not_mem_nil⟩
      rcases holds with live | ⟨waiting, member, _⟩
      · exact absurd live List.not_mem_nil
      · exact absurd member List.not_mem_nil
    · intro before action after owned met step
      exact Owned.step owned met step
  exact owned.answers

/-- Two connections with descriptors of their own. -/
theorem ownLogin_apart : ∃ network, (system id).run oneAdmin (adminLogin ++
      [.accept 6, .arrive 1 .heartbeat none, .arrive 0 .heartbeat none, .handle 0 quiet,
        .handle 0 quiet]) = some network ∧
    ∀ answered ∈ network.answers, OwnLogin answered := by
  have met : (system id).Guarded GivesFresh oneAdmin (adminLogin ++
      [.accept 6, .arrive 1 .heartbeat none, .arrive 0 .heartbeat none, .handle 0 quiet,
        .handle 0 quiet]) := by decide +kernel
  have started : (system id).Reachable GivesFresh oneAdmin := .start ⟨_, rfl⟩
  exact ⟨_, rfl, ownLogin_of_guard id _ (started.run met rfl)⟩

/-- The admin's connection is closed, and the next one gets descriptor 5. -/
theorem session_inherited : ∃ network, (system id).Reachable System.Free network ∧
    ∃ answered ∈ network.answers, answered.connection = 1 ∧ ¬OwnLogin answered := by
  have started : (system id).Reachable System.Free oneAdmin := .start ⟨_, rfl⟩
  refine ⟨_, started.run (System.guarded_free _ (adminLogin ++
    [.close 0, .accept 5, .arrive 1 .accountList none, .handle 0 quiet])) rfl,
    ⟨1, ⟨.accountList, 5, none⟩, _, _, _, _⟩, List.mem_of_getElem? (i := 1) rfl, rfl, ?_⟩
  intro own
  have inherited := own _ rfl
  revert inherited
  decide +kernel

end Network
end Livezure.Service
