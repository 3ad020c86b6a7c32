import Livezure.Service.Handlers

/-! What a request finds in the list of the online sessions, and what it leaves there. -/
namespace Livezure.Service
open Livezure.Core Db Rpc

/-- The session as it was when it started: a heartbeat is all that changes in it. -/
def OnlineSession.started (session : OnlineSession) : OnlineSession :=
  { session with net.isHeartbeated := true }

/-- The descriptors of the list. -/
def descriptors (sessions : List SessionEntry) : List Int :=
  sessions.map fun entry => entry.session.net.fd

def Outcome.succeeded (outcome : Outcome) : Bool :=
  decide (outcome.reply.bind List.head? = (rid 0).head?)

/-- A login that succeeded. -/
def loggedIn (request : Request) (outcome : Outcome) : Bool :=
  decide (request.handler = .accountLogin) && outcome.succeeded

def loggedOut (request : Request) (outcome : Outcome) : Bool :=
  decide (request.handler = .accountLogout) && outcome.succeeded

/-- Whether the handler comes to `online_session_ref`. -/
def Request.authenticates (around : Surroundings) (store : Store) (request : Request) : Bool :=
  match request.handler with
  | .versionCheck | .accountLogin => false
  | .heartbeat | .accountLogout | .accountList | .deviceCreate | .deviceList => true
  | .accountCreate => (accountCreateParams request.req).any fun account =>
      (dbAccountCheckUserExist store around.toAmbient account.uuid).isNone
  | .accountModify => (accountModifyParams request.req).isSome
  | .accountDelete => (accountDeleteParams request.req).isSome
  | .deviceDelete | .playDevice | .playStop | .playTouch => (parserGet request.req "uuid").isSome

/-- An entry that was in a list before, and is marked if it was. -/
def StaysFrom (before : List SessionEntry) (entry : SessionEntry) : Prop :=
  ∃ old ∈ before, old.session.started = entry.session.started ∧
    (old.isMarkDeleted = true → entry.isMarkDeleted = true)

theorem StaysFrom.of_mem {before : List SessionEntry} {entry : SessionEntry}
    (member : entry ∈ before) : StaysFrom before entry := ⟨entry, member, rfl, id⟩

theorem StaysFrom.fd {before : List SessionEntry} {entry : SessionEntry}
    (stays : StaysFrom before entry) : entry.session.net.fd ∈ descriptors before := by
  obtain ⟨old, member, same, _⟩ := stays
  have fd : old.session.started.net.fd = entry.session.started.net.fd := by
    rw [same]
  exact fd ▸ List.mem_map_of_mem member

/-- What a request does to the list. -/
structure Relisted (request : Request) (before : List SessionEntry) (outcome : Outcome) : Prop where
  unique : (descriptors before).Nodup → (descriptors outcome.server.sessions).Nodup
  /-- An entry was there before, or a login has put it there. -/
  entries : ∀ entry ∈ outcome.server.sessions, StaysFrom before entry ∨
    (loggedIn request outcome = true ∧ entry.session.net.fd = request.fd ∧
      sessionAt outcome.server request.fd = some entry.session ∧ entry.session.started = entry.session)
  marked : loggedOut request outcome = true → (descriptors before).Nodup →
    ∀ entry ∈ outcome.server.sessions, entry.session.net.fd = request.fd →
      entry.isMarkDeleted = true

/-! ### Lists that change little -/

section Relisted
variable {request : Request} {before : List SessionEntry} {outcome : Outcome}

theorem Relisted.of_stays (fewer : (descriptors outcome.server.sessions).Sublist (descriptors before))
    (stays : ∀ entry ∈ outcome.server.sessions, StaysFrom before entry)
    (noLogout : loggedOut request outcome = false) : Relisted request before outcome where
  unique distinct := distinct.sublist fewer
  entries entry member := .inl (stays entry member)
  marked done := by
    rw [noLogout] at done
    cases done

theorem Relisted.of_same (same : outcome.server.sessions = before)
    (noLogout : loggedOut request outcome = false) : Relisted request before outcome := by
  refine .of_stays ?_ (fun entry member => .of_mem (same ▸ member)) noLogout
  rw [same]

end Relisted

private theorem stays_modify (sessions : List SessionEntry) (index : Nat) {f : SessionEntry → SessionEntry}
    (session : ∀ entry, (f entry).session.started = entry.session.started)
    (mark : ∀ entry, (f entry).isMarkDeleted = entry.isMarkDeleted) :
    descriptors (sessions.modify index f) = descriptors sessions ∧
      ∀ entry ∈ sessions.modify index f, StaysFrom sessions entry := by
  induction sessions generalizing index with
  | nil => simp [descriptors]
  | cons first rest ih =>
    have fd : (f first).session.net.fd = first.session.net.fd := by
      have same := congrArg (fun session : OnlineSession => session.net.fd) (session first)
      exact same
    cases index with
    | zero =>
      refine ⟨by simp [descriptors, fd], ?_⟩
      intro entry member
      rcases List.mem_cons.mp member with rfl | old
      · exact ⟨first, List.mem_cons_self, (session first).symm, fun marked => by rwa [mark]⟩
      · exact .of_mem (List.mem_cons_of_mem _ old)
    | succ index =>
      obtain ⟨same, stays⟩ := ih index
      rw [List.modify_succ_cons]
      refine ⟨by simpa [descriptors] using same, ?_⟩
      intro entry member
      rcases List.mem_cons.mp member with rfl | later
      · exact .of_mem List.mem_cons_self
      · obtain ⟨old, listed, kept⟩ := stays entry later
        exact ⟨old, List.mem_cons_of_mem _ listed, kept⟩

/-! ### Login -/

/-- Who is left when the conflicts are gone. -/
theorem evictConflicts_sublist (session : OnlineSession) (sessions : List SessionEntry) :
    (evictConflicts session sessions).2.Sublist sessions := by
  induction sessions with
  | nil => exact .slnil
  | cons entry rest ih =>
    unfold evictConflicts
    split
    · split
      · exact List.sublist_cons_self _ _
      · exact ih.cons _
    · exact ih.cons_cons _

/-- Removing the conflicts does not wait exactly if none of them is held. -/
theorem evictConflicts_released (session : OnlineSession) (sessions : List SessionEntry) :
    (evictConflicts session sessions).1 = true ↔
      ∀ entry ∈ sessions, conflicts session entry.session = true → entry.ref = 0 := by
  induction sessions with
  | nil => exact iff_of_true rfl fun _ member => absurd member List.not_mem_nil
  | cons entry rest ih =>
    rw [List.forall_mem_cons]
    unfold evictConflicts
    by_cases conflict : conflicts session entry.session = true
    · rw [if_pos conflict]
      by_cases held : entry.ref = 0
      · rw [if_neg (not_not.mpr held), ih]
        exact ⟨fun others => ⟨fun _ => held, others⟩, And.right⟩
      · rw [if_pos held]
        exact iff_of_false Bool.false_ne_true fun both => held (both.1 conflict)
    · rw [if_neg conflict]
      dsimp only
      rw [ih]
      exact ⟨fun others => ⟨fun met => absurd met conflict, others⟩, And.right⟩

theorem evictConflicts_fd {session : OnlineSession} {sessions kept : List SessionEntry}
    (released : evictConflicts session sessions = (true, kept)) :
    session.net.fd ∉ descriptors kept := by
  induction sessions generalizing kept with
  | nil =>
    obtain ⟨_, rfl⟩ := Prod.mk.inj released
    exact List.not_mem_nil
  | cons entry rest ih =>
    unfold evictConflicts at released
    split at released
    · split at released
      · cases released
      · exact ih released
    · rename_i stays
      obtain ⟨done, rfl⟩ := Prod.mk.inj released
      have others := ih (Prod.ext done rfl)
      intro listed
      rcases List.mem_cons.mp listed with same | later
      · exact stays (by simp [conflicts, same])
      · exact others later

theorem descriptors_sublist {kept sessions : List SessionEntry} (fewer : kept.Sublist sessions) :
    (descriptors kept).Sublist (descriptors sessions) := fewer.map _

/-- Where the only entry of a descriptor is, the session at it is that entry's. -/
theorem onlineSessionRef_last {kept : List SessionEntry} {new : SessionEntry} {fd : Int}
    (alone : fd ∉ descriptors kept) (own : new.session.net.fd = fd) (server : Server)
    (listed : server.sessions = kept ++ [new]) : sessionAt server fd = some new.session := by
  rw [sessionAt, listed]
  cases found : onlineSessionRef (kept ++ [new]) fd with
  | none => exact absurd own (onlineSessionRef_none.mp found new (by simp))
  | some result =>
    obtain ⟨index, session, held⟩ := result
    obtain ⟨entry, at_, rfl, same, _⟩ := onlineSessionRef_some found
    rcases List.mem_append.mp (List.mem_of_getElem? at_) with old | last
    · exact absurd (same ▸ List.mem_map_of_mem old) alone
    · rw [List.mem_singleton.mp last]
      rfl

/-- A session is made of the first account that is listed. -/
theorem newSession_made {server : Server} {fd : Int} {around : Surroundings} {uuid : Bytes}
    {user : UserExist} {session : OnlineSession}
    (made : newSession server fd around uuid user = .ok session) :
    ∃ basic ip port,
      ((if user.isAdmin then dbAccountListAdminGet server.store (some uuid)
        else dbAccountListChildGet server.store user.refAdminUuid (some uuid)).bind List.head?) =
          some basic ∧
      session = ⟨basic, if user.isAdmin then [] else user.refAdminUuid.take 17, user.isAdmin, true,
        ⟨fd, ip, port, true⟩⟩ := by
  unfold newSession at made
  dsimp only at made
  split at made
  · cases made
  · rename_i basic listed
    obtain rfl := Except.ok.inj made
    exact ⟨basic, _, _, listed, rfl⟩

theorem newSession_own {server : Server} {fd : Int} {around : Surroundings} {uuid : Bytes}
    {user : UserExist} {session : OnlineSession}
    (made : newSession server fd around uuid user = .ok session) :
    session.net.fd = fd ∧ session.started = session := by
  obtain ⟨_, _, _, _, rfl⟩ := newSession_made made
  exact ⟨rfl, rfl⟩

private theorem reqAccountLogin_relisted {hash : Bytes → Bytes} {around : Surroundings} {server : Server}
    {fd : Int} {req : Option RpcReq} {outcome : Outcome}
    (done : reqAccountLogin server fd req hash around = .ok outcome) :
    Relisted ⟨.accountLogin, fd, req⟩ server.sessions outcome := by
  rcases reqAccountLogin_cases done with rfl | rfl | ⟨_, _, _, session, kept, _, _, made, ended⟩
  · exact .of_same rfl rfl
  · exact .of_same rfl rfl
  · have own := newSession_own made
    have fewer := evictConflicts_sublist session server.sessions
    rcases ended with ⟨evicted, rfl⟩ | ⟨evicted, more, rfl⟩
    · rw [evicted] at fewer
      exact .of_stays (descriptors_sublist fewer) (fun entry member => .of_mem (fewer.subset member)) rfl
    · rw [evicted] at fewer
      have alone : fd ∉ descriptors kept := own.1 ▸ evictConflicts_fd evicted
      refine ⟨fun distinct => ?_, fun entry member => ?_, fun never => ?_⟩
      · simp only [descriptors, List.map_append, List.map_cons, List.map_nil, own.1]
        refine (distinct.sublist (descriptors_sublist fewer)).append (List.nodup_singleton _) ?_
        intro other old new
        exact alone (List.mem_singleton.mp new ▸ old)
      · rcases List.mem_append.mp member with old | new
        · exact .inl (.of_mem (fewer.subset old))
        · obtain rfl := List.mem_singleton.mp new
          refine .inr ⟨?_, own.1, onlineSessionRef_last alone own.1 _ rfl, own.2⟩
          simp [loggedIn, Outcome.succeeded, rid]
      · cases never

/-- Whom a login leaves in the list: who was in it, and perhaps the one that logs in. -/
theorem reqAccountLogin_entry {hash : Bytes → Bytes} {server : Server} {fd : Int}
    {req : Option RpcReq} {around : Surroundings} {outcome : Outcome}
    (done : reqAccountLogin server fd req hash around = .ok outcome) :
    ∀ entry ∈ outcome.server.sessions, entry ∈ server.sessions ∨
      ∃ uuid user, newSession server fd around uuid user = .ok entry.session := by
  intro entry member
  rcases reqAccountLogin_cases done with rfl | rfl | ⟨uuid, _, user, session, kept, _, _, made, ended⟩
  · exact .inl member
  · exact .inl member
  · have fewer := evictConflicts_sublist session server.sessions
    rcases ended with ⟨evicted, rfl⟩ | ⟨evicted, more, rfl⟩
    · rw [evicted] at fewer
      exact .inl (fewer.subset member)
    · rw [evicted] at fewer
      rcases List.mem_append.mp member with old | new
      · exact .inl (fewer.subset old)
      · rw [List.mem_singleton.mp new]
        exact .inr ⟨uuid, user, made⟩

/-! ### Logout -/

theorem expired_not_succeeded (server : Server) (found : Option (Option OnlineSession)) :
    Outcome.succeeded ⟨server, some (rid (-300)), found⟩ = false := by
  have differ : (rid (-300)).head? ≠ (rid 0).head? := by decide
  exact decide_eq_false differ

private theorem onlineSessionDel_stays (fd : Int) (sessions : List SessionEntry) :
    descriptors (onlineSessionDel fd sessions).2 = descriptors sessions ∧
      ∀ entry ∈ (onlineSessionDel fd sessions).2, StaysFrom sessions entry := by
  induction sessions with
  | nil => exact ⟨rfl, nofun⟩
  | cons first rest ih =>
    obtain ⟨same, stays⟩ := ih
    unfold onlineSessionDel
    split
    · refine ⟨rfl, fun entry member => ?_⟩
      rcases List.mem_cons.mp member with rfl | later
      · exact ⟨first, List.mem_cons_self, rfl, fun _ => rfl⟩
      · exact .of_mem (List.mem_cons_of_mem _ later)
    · refine ⟨congrArg (List.cons _) same, fun entry member => ?_⟩
      rcases List.mem_cons.mp member with rfl | later
      · exact .of_mem List.mem_cons_self
      · obtain ⟨old, listed, kept⟩ := stays entry later
        exact ⟨old, List.mem_cons_of_mem _ listed, kept⟩

private theorem onlineSessionDel_marks {fd : Int} {sessions : List SessionEntry}
    (distinct : (descriptors sessions).Nodup) :
    ∀ entry ∈ (onlineSessionDel fd sessions).2, entry.session.net.fd = fd →
      entry.isMarkDeleted = true := by
  induction sessions with
  | nil => nofun
  | cons first rest ih =>
    obtain ⟨fresh, others⟩ := List.nodup_cons.mp distinct
    unfold onlineSessionDel
    split
    · rename_i own
      intro entry member same
      rcases List.mem_cons.mp member with rfl | later
      · rfl
      · have listed : fd ∈ descriptors rest := same ▸ List.mem_map_of_mem later
        exact absurd listed (own ▸ fresh)
    · rename_i foreign
      intro entry member same
      rcases List.mem_cons.mp member with rfl | later
      · exact absurd same foreign
      · exact ih others entry later same

private theorem reqAccountLogout_relisted {server : Server} {fd : Int} {req : Option RpcReq}
    {outcome : Outcome} (done : reqAccountLogout server fd = .ok outcome) :
    Relisted ⟨.accountLogout, fd, req⟩ server.sessions outcome := by
  unfold reqAccountLogout at done
  split at done
  · obtain rfl := Except.ok.inj done
    exact .of_same rfl (Bool.and_eq_false_imp.mpr fun _ => expired_not_succeeded _ _)
  · rename_i index session held found
    obtain rfl := Except.ok.inj done
    rw [onlineSessionDref_ref found]
    obtain ⟨same, stays⟩ := onlineSessionDel_stays fd server.sessions
    refine ⟨fun distinct => same ▸ distinct, fun entry member => .inl (stays entry member), ?_⟩
    intro _ distinct
    exact onlineSessionDel_marks distinct

/-! ### The other handlers -/

section Others
variable {server : Server} {request : Request} {fd : Int} {outcome : Outcome}

private theorem withOnlineSession_relisted {body : OnlineSession → Except Fault (Store × Reply)}
    (done : withOnlineSession server fd body = .ok outcome)
    (noLogout : request.handler ≠ .accountLogout) : Relisted request server.sessions outcome := by
  have never : loggedOut request outcome = false := by simp [loggedOut, noLogout]
  rcases withOnlineSession_cases done with ⟨_, rfl⟩ | ⟨_, _, _, _, _, _, _, rfl⟩
  · exact .of_same rfl never
  · exact .of_same rfl never

private theorem reqHeartbeat_relisted (done : reqHeartbeat server fd = .ok outcome)
    (noLogout : request.handler ≠ .accountLogout) : Relisted request server.sessions outcome := by
  have never : loggedOut request outcome = false := by simp [loggedOut, noLogout]
  unfold reqHeartbeat at done
  split at done
  · obtain rfl := Except.ok.inj done
    exact .of_same rfl never
  · rename_i index session held found
    obtain rfl := Except.ok.inj done
    rw [onlineSessionDref_ref found] at never ⊢
    obtain ⟨same, stays⟩ := stays_modify server.sessions index
      (f := fun entry => { entry with session.net.isHeartbeated := true })
      (fun _ => rfl) (fun _ => rfl)
    exact .of_stays (by rw [same]) stays never

private theorem reqPlay_relisted {req : Option RpcReq}
    {work : Store → List DeviceEntry → Bytes → List DeviceEntry × Reply}
    (done : reqPlay server fd req work = .ok outcome)
    (noLogout : request.handler ≠ .accountLogout) : Relisted request server.sessions outcome := by
  have never : loggedOut request outcome = false := by simp [loggedOut, noLogout]
  rcases reqPlay_cases done with ⟨_, rfl⟩ | ⟨_, _, rfl⟩ | ⟨_, index, _, _, _, _, found, rfl⟩
  · exact .of_same rfl never
  · exact .of_same rfl never
  · obtain ⟨_, _, _, _, rfl⟩ := onlineSessionRef_some found
    obtain ⟨same, stays⟩ := stays_modify server.sessions index
      (f := fun entry => { entry with ref := entry.ref + 1 }) (fun _ => rfl) (fun _ => rfl)
    exact .of_stays (by rw [same]) stays never

end Others

/-- What any request does to the list. -/
theorem Request.relisted {hash : Bytes → Bytes} {around : Surroundings} {server : Server}
    {request : Request} {outcome : Outcome}
    (done : request.run hash around server = .ok outcome) :
    Relisted request server.sessions outcome := by
  obtain ⟨handler, fd, req⟩ := request
  cases handler
  case versionCheck => exact .of_same (congrArg Server.sessions (reqVersionCheck_server done)) rfl
  case heartbeat => exact reqHeartbeat_relisted done nofun
  case accountLogin => exact reqAccountLogin_relisted done
  case accountLogout => exact reqAccountLogout_relisted done
  case accountCreate =>
    change reqAccountCreate server fd req hash around = .ok outcome at done
    unfold reqAccountCreate at done
    split at done
    · obtain rfl := Except.ok.inj done
      exact .of_same rfl rfl
    · split at done
      · obtain rfl := Except.ok.inj done
        exact .of_same rfl rfl
      · exact withOnlineSession_relisted done nofun
  case accountModify =>
    change reqAccountModify server fd req hash around = .ok outcome at done
    unfold reqAccountModify at done
    split at done
    · obtain rfl := Except.ok.inj done
      exact .of_same rfl rfl
    · exact withOnlineSession_relisted done nofun
  case accountDelete =>
    change reqAccountDelete server fd req hash around = .ok outcome at done
    unfold reqAccountDelete at done
    split at done
    · obtain rfl := Except.ok.inj done
      exact .of_same rfl rfl
    · exact withOnlineSession_relisted done nofun
  case accountList => exact withOnlineSession_relisted done nofun
  case deviceCreate => exact withOnlineSession_relisted done nofun
  case deviceDelete =>
    change reqDeviceDelete server fd req around = .ok outcome at done
    unfold reqDeviceDelete at done
    split at done
    · obtain rfl := Except.ok.inj done
      exact .of_same rfl rfl
    · exact withOnlineSession_relisted done nofun
  case deviceList => exact withOnlineSession_relisted done nofun
  case playDevice =>
    change reqPlayDevice server fd req = .ok outcome at done
    exact reqPlay_relisted done nofun
  case playStop =>
    change reqPlayStop server fd req = .ok outcome at done
    exact reqPlay_relisted done nofun
  case playTouch =>
    change reqPlayTouch server fd req = .ok outcome at done
    exact reqPlay_relisted done nofun

/-! ### What is found -/

/-- Nothing, or the session of an entry with the descriptor. -/
def Finds (sessions : List SessionEntry) (fd : Int) (outcome : Outcome) : Prop :=
  (outcome.found = some none ∧ outcome.reply = some (rid (-300))) ∨
    ∃ entry ∈ sessions, entry.session.net.fd = fd ∧ outcome.found = some (some entry.session)

section Finds
variable {server : Server} {fd : Int} {outcome : Outcome}

theorem Finds.of_ref {index : Nat} {session : OnlineSession} {held : List SessionEntry}
    (found : onlineSessionRef server.sessions fd = some (index, session, held))
    (reported : outcome.found = some (some session)) : Finds server.sessions fd outcome := by
  obtain ⟨entry, at_, rfl, same, _⟩ := onlineSessionRef_some found
  exact .inr ⟨entry, List.mem_of_getElem? at_, same, reported⟩

private theorem withOnlineSession_finds {body : OnlineSession → Except Fault (Store × Reply)}
    (done : withOnlineSession server fd body = .ok outcome) : Finds server.sessions fd outcome := by
  rcases withOnlineSession_cases done with ⟨_, rfl⟩ | ⟨_, _, _, _, _, found, _, rfl⟩
  · exact .inl ⟨rfl, rfl⟩
  · exact .of_ref found rfl

private theorem reqHeartbeat_finds (done : reqHeartbeat server fd = .ok outcome) :
    Finds server.sessions fd outcome := by
  unfold reqHeartbeat at done
  split at done
  · obtain rfl := Except.ok.inj done
    exact .inl ⟨rfl, rfl⟩
  · rename_i found
    obtain rfl := Except.ok.inj done
    exact .of_ref found rfl

private theorem reqAccountLogout_finds (done : reqAccountLogout server fd = .ok outcome) :
    Finds server.sessions fd outcome := by
  unfold reqAccountLogout at done
  split at done
  · obtain rfl := Except.ok.inj done
    exact .inl ⟨rfl, rfl⟩
  · rename_i found
    obtain rfl := Except.ok.inj done
    exact .of_ref found rfl

private theorem reqPlay_finds {req : Option RpcReq}
    {work : Store → List DeviceEntry → Bytes → List DeviceEntry × Reply}
    (done : reqPlay server fd req work = .ok outcome) : outcome.found = none ∨
      ((parserGet req "uuid").isSome = true ∧ Finds server.sessions fd outcome) := by
  rcases reqPlay_cases done with ⟨_, rfl⟩ | ⟨given, _, rfl⟩ | ⟨given, _, _, _, _, _, found, rfl⟩
  · exact .inl rfl
  · exact .inr ⟨Option.isSome_iff_ne_none.mpr given, .inl ⟨rfl, rfl⟩⟩
  · exact .inr ⟨Option.isSome_iff_ne_none.mpr given, .of_ref found rfl⟩

/-- Only a login does not ask for a session and may answer nothing. -/
theorem reqAccountLogin_found {hash : Bytes → Bytes} {around : Surroundings} {req : Option RpcReq}
    (done : reqAccountLogin server fd req hash around = .ok outcome) : outcome.found = none := by
  rcases reqAccountLogin_cases done with rfl | rfl | ⟨_, _, _, _, _, _, _, _, ⟨_, rfl⟩ | ⟨_, _, rfl⟩⟩
  · rfl
  · rfl
  · rfl
  · rfl

private theorem reqVersionCheck_found {req : Option RpcReq} (done : reqVersionCheck server req = .ok outcome) :
    outcome.found = none := by
  unfold reqVersionCheck at done
  split at done
  · obtain rfl := Except.ok.inj done
    rfl
  · cases done
  · split at done <;> (obtain rfl := Except.ok.inj done; rfl)

end Finds

/-- A handler that comes to `online_session_ref` finds a session of its descriptor, or answers
-300. -/
theorem Request.finds {hash : Bytes → Bytes} {around : Surroundings} {server : Server}
    {request : Request} {outcome : Outcome}
    (done : request.run hash around server = .ok outcome) : outcome.found = none ∨
      (request.authenticates around server.store = true ∧
        Finds server.sessions request.fd outcome) := by
  obtain ⟨handler, fd, req⟩ := request
  cases handler
  case versionCheck => exact .inl (reqVersionCheck_found done)
  case heartbeat => exact .inr ⟨rfl, reqHeartbeat_finds done⟩
  case accountLogin => exact .inl (reqAccountLogin_found done)
  case accountLogout => exact .inr ⟨rfl, reqAccountLogout_finds done⟩
  case accountCreate =>
    change reqAccountCreate server fd req hash around = .ok outcome at done
    unfold reqAccountCreate at done
    split at done
    · obtain rfl := Except.ok.inj done
      exact .inl rfl
    · rename_i account params
      split at done
      · obtain rfl := Except.ok.inj done
        exact .inl rfl
      · rename_i fresh
        refine .inr ⟨?_, withOnlineSession_finds done⟩
        simpa [authenticates, params] using fresh
  case accountModify =>
    change reqAccountModify server fd req hash around = .ok outcome at done
    unfold reqAccountModify at done
    split at done
    · obtain rfl := Except.ok.inj done
      exact .inl rfl
    · rename_i params
      exact .inr ⟨by simp [authenticates, params], withOnlineSession_finds done⟩
  case accountDelete =>
    change reqAccountDelete server fd req hash around = .ok outcome at done
    unfold reqAccountDelete at done
    split at done
    · obtain rfl := Except.ok.inj done
      exact .inl rfl
    · rename_i params
      exact .inr ⟨by simp [authenticates, params], withOnlineSession_finds done⟩
  case accountList => exact .inr ⟨rfl, withOnlineSession_finds done⟩
  case deviceCreate => exact .inr ⟨rfl, withOnlineSession_finds done⟩
  case deviceDelete =>
    change reqDeviceDelete server fd req around = .ok outcome at done
    unfold reqDeviceDelete at done
    split at done
    · obtain rfl := Except.ok.inj done
      exact .inl rfl
    · rename_i given
      exact .inr ⟨by simp [authenticates, given], withOnlineSession_finds done⟩
  case deviceList => exact .inr ⟨rfl, withOnlineSession_finds done⟩
  case playDevice =>
    change reqPlayDevice server fd req = .ok outcome at done
    exact reqPlay_finds done
  case playStop =>
    change reqPlayStop server fd req = .ok outcome at done
    exact reqPlay_finds done
  case playTouch =>
    change reqPlayTouch server fd req = .ok outcome at done
    exact reqPlay_finds done

/-! ### The timer -/

theorem onlineSessionCheckAllHearbeat_stays (sessions : List SessionEntry) :
    (descriptors (onlineSessionCheckAllHearbeat sessions).2).Sublist (descriptors sessions) ∧
      ∀ entry ∈ (onlineSessionCheckAllHearbeat sessions).2, StaysFrom sessions entry := by
  induction sessions with
  | nil => exact ⟨.slnil, nofun⟩
  | cons first rest ih =>
    obtain ⟨fewer, stays⟩ := ih
    unfold onlineSessionCheckAllHearbeat
    split
    · exact ⟨List.sublist_cons_self _ _, fun entry member =>
        .of_mem (List.mem_cons_of_mem _ member)⟩
    · refine ⟨fewer.cons_cons _, fun entry member => ?_⟩
      rcases List.mem_cons.mp member with rfl | later
      · exact ⟨first, List.mem_cons_self, rfl, id⟩
      · obtain ⟨old, listed, kept⟩ := stays entry later
        exact ⟨old, List.mem_cons_of_mem _ listed, kept⟩

end Livezure.Service
