import Livezure.Service.Balance

/-! The timer, which is to remove the sessions that have gone silent. -/
namespace Livezure.Service
open Livezure.Core Db Rpc

def SessionEntry.unheard (entry : SessionEntry) : SessionEntry :=
  { entry with session.net.isHeartbeated := false }

/-- The sessions that are to stay, as they are when the timer has been at all of them. -/
def survivors (sessions : List SessionEntry) : List SessionEntry :=
  (sessions.filter fun entry => !isDue entry).map SessionEntry.unheard

/-- The timer comes back, and has removed exactly the sessions that are due. -/
def TickExact (sessions : List SessionEntry) : Prop :=
  onlineSessionCheckAllHearbeat sessions = (true, survivors sessions)

/-- No session before the last one of the list is due. -/
def OnlyLastDue (sessions : List SessionEntry) : Prop :=
  ∀ entry ∈ sessions.dropLast, isDue entry = false

instance (sessions : List SessionEntry) : Decidable (OnlyLastDue sessions) :=
  inferInstanceAs (Decidable (∀ entry ∈ sessions.dropLast, isDue entry = false))

/-- No heartbeat and no login on a descriptor. -/
def Network.Silent (fd : Int) (network : Network) : NetworkAction → Prop
  | .handle index _ => ∀ waiting ∈ network.waiting[index]?, waiting.request.fd = fd →
      waiting.request.handler ≠ .heartbeat ∧ waiting.request.handler ≠ .accountLogin
  | _ => True

/-! ### One tick -/

theorem onlyLastDue_cons {entry next : SessionEntry} {rest : List SessionEntry} :
    OnlyLastDue (entry :: next :: rest) ↔ isDue entry = false ∧ OnlyLastDue (next :: rest) := by
  unfold OnlyLastDue
  rw [List.dropLast_cons_cons, List.forall_mem_cons]

/-- A list in which no heartbeat is forgotten and none removed is empty. -/
theorem survivors_ne {sessions : List SessionEntry} (some_ : sessions ≠ []) :
    survivors sessions ≠ sessions := by
  intro same
  have length := congrArg List.length same
  rw [survivors, List.length_map, List.length_filter_eq_length_iff] at length
  obtain ⟨entry, member⟩ := List.exists_mem_of_ne_nil sessions some_
  have heard : isDue entry = false := by simpa using length entry member
  have cleared : entry ∈ survivors sessions := same.symm ▸ member
  obtain ⟨old, _, rfl⟩ := List.mem_map.mp cleared
  simp [isDue, SessionEntry.unheard] at heard

/-- The timer has removed exactly the sessions that are due only if it is done with the first. -/
theorem tick_survivors_iff (sessions : List SessionEntry) :
    (onlineSessionCheckAllHearbeat sessions).2 = survivors sessions ↔ OnlyLastDue sessions := by
  induction sessions with
  | nil => simp [onlineSessionCheckAllHearbeat, survivors, OnlyLastDue]
  | cons entry rest ih =>
    have due_eq : (!entry.session.net.isHeartbeated || entry.isMarkDeleted) = isDue entry := rfl
    unfold onlineSessionCheckAllHearbeat
    rw [due_eq]
    cases due : isDue entry with
    | true =>
      have fewer : survivors (entry :: rest) = survivors rest := by simp [survivors, due]
      rw [if_pos rfl, fewer]
      cases rest with
      | nil => simp [survivors, OnlyLastDue]
      | cons next rest =>
        rw [onlyLastDue_cons]
        apply iff_of_false
        · exact (survivors_ne (List.cons_ne_nil next rest)).symm
        · simp [due]
    | false =>
      have kept : survivors (entry :: rest) = entry.unheard :: survivors rest := by
        simp [survivors, due]
      have only : OnlyLastDue (entry :: rest) ↔ OnlyLastDue rest := by
        cases rest with
        | nil => simp [OnlyLastDue]
        | cons next rest => simp [onlyLastDue_cons, due]
      rw [only, ← ih, kept]
      exact List.cons_inj_right _

/-- After a tick nobody has sent a heartbeat. -/
def Unheard (fd : Int) (sessions : List SessionEntry) : Prop :=
  ∀ entry ∈ sessions, entry.session.net.fd = fd → entry.session.net.isHeartbeated = false

theorem survivors_unheard (fd : Int) (sessions : List SessionEntry) :
    Unheard fd (survivors sessions) := by
  intro entry member _
  obtain ⟨old, _, rfl⟩ := List.mem_map.mp member
  rfl

theorem survivors_gone {fd : Int} {sessions : List SessionEntry} (unheard : Unheard fd sessions) :
    fd ∉ descriptors (survivors sessions) := by
  intro listed
  obtain ⟨entry, member, own⟩ := List.mem_map.mp listed
  obtain ⟨old, kept, rfl⟩ := List.mem_map.mp member
  obtain ⟨present, stays⟩ := List.mem_filter.mp kept
  have silent := unheard old present own
  simp [isDue, silent] at stays

/-! ### Between two ticks -/

theorem Unheard.sublist {fd : Int} {sessions kept : List SessionEntry}
    (unheard : Unheard fd sessions) (fewer : kept.Sublist sessions) : Unheard fd kept :=
  fun entry member => unheard entry (fewer.subset member)

theorem Unheard.modify {fd : Int} {sessions : List SessionEntry} (unheard : Unheard fd sessions)
    {index : Nat} {f : SessionEntry → SessionEntry}
    (kept : ∀ entry, sessions[index]? = some entry → (f entry).session.net.fd = fd →
      entry.session.net.fd = fd ∧
        (f entry).session.net.isHeartbeated = entry.session.net.isHeartbeated) :
    Unheard fd (sessions.modify index f) := by
  intro entry member own
  obtain ⟨place, at_⟩ := List.mem_iff_getElem?.mp member
  rw [List.getElem?_modify] at at_
  obtain ⟨old, present, rfl⟩ := Option.map_eq_some_iff.mp at_
  by_cases here : index = place
  · subst here
    simp only [if_true] at own ⊢
    obtain ⟨before, same⟩ := kept old present own
    rw [same]
    exact unheard old (List.mem_of_getElem? present) before
  · simp only [if_neg here] at own ⊢
    exact unheard old (List.mem_of_getElem? present) own

theorem Unheard.del {fd : Int} {sessions : List SessionEntry} (unheard : Unheard fd sessions)
    (other : Int) : Unheard fd (onlineSessionDel other sessions).2 := by
  induction sessions with
  | nil => exact unheard
  | cons first rest ih =>
    obtain ⟨head, tail⟩ := List.forall_mem_cons.mp unheard
    unfold onlineSessionDel
    split
    · exact List.forall_mem_cons.mpr ⟨head, tail⟩
    · exact List.forall_mem_cons.mpr ⟨head, ih tail⟩

theorem Unheard.tick {fd : Int} {sessions : List SessionEntry} (unheard : Unheard fd sessions) :
    Unheard fd (onlineSessionCheckAllHearbeat sessions).2 := by
  induction sessions with
  | nil => exact unheard
  | cons first rest ih =>
    obtain ⟨head, tail⟩ := List.forall_mem_cons.mp unheard
    unfold onlineSessionCheckAllHearbeat
    split
    · exact tail
    · exact List.forall_mem_cons.mpr ⟨fun _ => rfl, ih tail⟩

/-- Whoever is found after a login on a descriptor was there before or has the descriptor. -/
theorem reqAccountLogin_entries {hash : Bytes → Bytes} {around : Surroundings} {server : Server}
    {fd : Int} {req : Option RpcReq} {outcome : Outcome}
    (done : reqAccountLogin server fd req hash around = .ok outcome) :
    ∀ entry ∈ outcome.server.sessions, entry ∈ server.sessions ∨ entry.session.net.fd = fd := by
  intro entry member
  rcases reqAccountLogin_entry done entry member with old | ⟨_, _, made⟩
  · exact .inl old
  · exact .inr (newSession_own made).1

/-- A request that is no heartbeat and no login on a descriptor. -/
theorem Unheard.request {hash : Bytes → Bytes} {around : Surroundings} {server : Server}
    {request : Request} {outcome : Outcome} {fd : Int} (unheard : Unheard fd server.sessions)
    (silent : request.fd = fd → request.handler ≠ .heartbeat ∧ request.handler ≠ .accountLogin)
    (done : request.run hash around server = .ok outcome) : Unheard fd outcome.server.sessions := by
  by_cases login : request.handler = .accountLogin
  · have login_done : reqAccountLogin server request.fd request.req hash around = .ok outcome := by
      simpa only [Request.run, login] using done
    intro entry member own
    rcases reqAccountLogin_entries login_done entry member with old | new
    · exact unheard entry old own
    · exact absurd login (silent (new.symm.trans own)).2
  · have leaves := Request.leaves login done
    generalize outcome.server.sessions = after at leaves
    cases leaves with
    | same _ => exact unheard
    | heard heartbeat at_ own =>
      apply unheard.modify
      intro entry present same
      obtain rfl := Option.some.inj (at_.symm.trans present)
      exact absurd heartbeat (silent (own.symm.trans same)).1
    | marked _ => exact unheard.del request.fd
    | held _ _ found =>
      obtain ⟨_, _, _, _, rfl⟩ := onlineSessionRef_some found
      exact unheard.modify fun entry _ own => ⟨own, rfl⟩

namespace Network
variable {hash : Bytes → Bytes}

private theorem tick_sessions {before after : Network} (step : next hash before .tick = some after) :
    after.server.sessions = (onlineSessionCheckAllHearbeat before.server.sessions).2 := by
  simp only [next] at step
  split at step
  · cases step
  · obtain rfl := Option.some.inj step
    rfl

theorem unheard_step {fd : Int} {before after : Network} {action : NetworkAction}
    (unheard : Unheard fd before.server.sessions) (silent : Silent fd before action)
    (step : next hash before action = some after) : Unheard fd after.server.sessions := by
  cases action with
  | accept other =>
    simp only [next] at step
    split at step
    · cases step
    · obtain rfl := Option.some.inj step
      exact unheard
  | close connection =>
    obtain rfl := Option.some.inj step
    exact unheard
  | arrive connection handler req =>
    simp only [next] at step
    split at step
    · cases step
    · obtain rfl := Option.some.inj step
      exact unheard
  | handle index around =>
    simp only [next] at step
    split at step
    · cases step
    · rename_i waiting taken
      split at step
      · cases step
      · rename_i outcome done
        obtain rfl := Option.some.inj step
        exact unheard.request (silent waiting taken) done
  | tick =>
    rw [tick_sessions step]
    exact unheard.tick

theorem unheard_run {fd : Int} {actions : List NetworkAction} {before after : Network}
    (unheard : Unheard fd before.server.sessions)
    (silent : (system hash).Guarded (Silent fd) before actions)
    (run : (system hash).run before actions = some after) : Unheard fd after.server.sessions := by
  induction actions generalizing before with
  | nil =>
    obtain rfl := Option.some.inj run
    exact unheard
  | cons action actions ih =>
    obtain ⟨middle, first, later⟩ := Option.bind_eq_some_iff.mp run
    exact ih (unheard_step unheard silent.1 first) (silent.2 middle first) later

/-- Two ticks, with neither a heartbeat nor a login on the descriptor between them. -/
structure SilentTicks (hash : Bytes → Bytes) (fd : Int) (before second after : Network) : Prop where
  ticks : ∃ first actions, next hash before .tick = some first ∧
    (system hash).Guarded (Silent fd) first actions ∧
    (system hash).run first actions = some second ∧ next hash second .tick = some after

end Network

/-- A tick removes exactly the sessions that are due where only the last of the list may be
due. While that is so at the ticks, no session survives two of them in silence. -/
theorem tick_exact_iff (hash : Bytes → Bytes) (sessions : List SessionEntry)
    (free : ∀ entry ∈ sessions, entry.ref = 0) :
    (TickExact sessions ↔ OnlyLastDue sessions) ∧
    ∀ fd before second after, Network.SilentTicks hash fd before second after →
      OnlyLastDue before.server.sessions → OnlyLastDue second.server.sessions →
      fd ∉ descriptors after.server.sessions := by
  constructor
  · rw [← tick_survivors_iff]
    have released := (Network.tick_free free).1
    constructor
    · intro exact_
      rw [exact_]
    · intro exact_
      exact Prod.ext released exact_
  · intro fd before second after silent early late
    obtain ⟨first, actions, tick, quiet, run, again⟩ := silent.ticks
    have unheard : Unheard fd first.server.sessions := by
      rw [Network.tick_sessions tick, (tick_survivors_iff _).mpr early]
      exact survivors_unheard fd _
    rw [Network.tick_sessions again, (tick_survivors_iff _).mpr late]
    exact survivors_gone (Network.unheard_run unheard quiet run)

/-- Two admins. -/
def twoAdmins (first second : Bool) : List SessionEntry :=
  [⟨⟨⟨[97], [112], [], [], [50]⟩, [], true, true, ⟨5, [], 0, first⟩⟩, 0, false⟩,
    ⟨⟨⟨[98], [112], [], [], [50]⟩, [], true, true, ⟨6, [], 0, second⟩⟩, 0, false⟩]

/-- The second one has gone silent, and after it the first. -/
theorem tick_exact_last :
    TickExact (twoAdmins true false) ∧
      5 ∉ descriptors (onlineSessionCheckAllHearbeat
        (onlineSessionCheckAllHearbeat (twoAdmins true false)).2).2 := by
  obtain ⟨only, runs⟩ := tick_exact_iff id (twoAdmins true false) (by decide)
  refine ⟨only.mpr (by decide), ?_⟩
  let network : Network := { Network.oneAdmin with server.sessions := twoAdmins true false }
  exact runs 5 network _ _ ⟨_, [], rfl, trivial, rfl, rfl⟩ (by decide) (by decide)

/-- Both go silent: the timer removes the first one only. -/
theorem not_tick_exact :
    TickExact (twoAdmins true true) ∧
      (onlineSessionCheckAllHearbeat (twoAdmins true true)).2 = twoAdmins false false ∧
      ¬TickExact (twoAdmins false false) ∧
      6 ∈ descriptors (onlineSessionCheckAllHearbeat (twoAdmins false false)).2 := by
  unfold TickExact
  decide

end Livezure.Service
