import Livezure.Core.Transition
import Livezure.Service.Listing

/-! The list of the online sessions when its operations run one at a time. -/
namespace Livezure.Service
open Livezure.Core Db

/-- The list, with the sessions that were added to it, the last one first. -/
structure SessionTable where
  sessions : List SessionEntry
  added : List OnlineSession
  /-- An operation waits in `pref_release`. -/
  isStuck : Bool
  deriving DecidableEq

inductive SessionCall where
  | add (session : OnlineSession)
  | del (fd : Int)
  | ref (fd : Int)
  | dref (index : Nat)
  | tick
  deriving DecidableEq

namespace SessionTable

def next (table : SessionTable) (call : SessionCall) : Option SessionTable :=
  if table.isStuck then none
  else
    match call with
    | .add session =>
      match onlineSessionAdd table.sessions session with
      | (false, sessions) => some { table with sessions, isStuck := true }
      | (true, sessions) => some { table with sessions, added := session :: table.added }
    | .del fd => some { table with sessions := (onlineSessionDel fd table.sessions).2 }
    | .ref fd =>
      match onlineSessionRef table.sessions fd with
      | none => some table
      | some (_, _, sessions) => some { table with sessions }
    | .dref index => some { table with sessions := onlineSessionDref table.sessions index }
    | .tick =>
      let (released, sessions) := onlineSessionCheckAllHearbeat table.sessions
      some { table with sessions, isStuck := !released }

def system : System SessionTable SessionCall where
  Start table := table = ⟨[], [], false⟩
  next := next

/-- The session that was added last for a descriptor. -/
def lastAdded (table : SessionTable) (fd : Int) : Option OnlineSession :=
  table.added.find? fun session => decide (session.net.fd = fd)

end SessionTable

/-- Two sessions that may stand beside each other. -/
structure Compatible (first second : OnlineSession) : Prop where
  descriptor : first.net.fd ≠ second.net.fd
  admins : first.isAdmin = true → second.isAdmin = true → first.basic.uuid ≠ second.basic.uuid
  children : first.isAdmin = false → second.isAdmin = false →
    (first.refAdminUuid, first.basic.uuid) ≠ (second.refAdminUuid, second.basic.uuid)

/-- What holds of the list at all times. -/
structure SessionTable.Kept (table : SessionTable) : Prop where
  compatible : (table.sessions.map SessionEntry.session).Pairwise Compatible
  /-- `online_session_ref` finds a session exactly where the list has one, and finds the one
  that was added last. -/
  latest : ∀ fd, match onlineSessionRef table.sessions fd with
    | none => ∀ entry ∈ table.sessions, entry.session.net.fd ≠ fd
    | some (_, session, _) =>
      ∃ last, table.lastAdded fd = some last ∧ session.started = last.started

/-! ### What the operations leave -/

/-- The sessions of the list as they started. -/
def starts (sessions : List SessionEntry) : List OnlineSession :=
  sessions.map fun entry => entry.session.started

theorem starts_modify (sessions : List SessionEntry) (index : Nat) {f : SessionEntry → SessionEntry}
    (session : ∀ entry, (f entry).session.started = entry.session.started) :
    starts (sessions.modify index f) = starts sessions := by
  induction sessions generalizing index with
  | nil => rw [List.modify_nil]
  | cons first rest ih =>
    cases index with
    | zero => exact congrArg (· :: starts rest) (session first)
    | succ index => exact congrArg (first.session.started :: ·) (ih index)

theorem starts_del (fd : Int) (sessions : List SessionEntry) :
    starts (onlineSessionDel fd sessions).2 = starts sessions := by
  induction sessions with
  | nil => rfl
  | cons first rest ih =>
    unfold onlineSessionDel
    split
    · rfl
    · exact congrArg (first.session.started :: ·) ih

theorem starts_tick (sessions : List SessionEntry) :
    (starts (onlineSessionCheckAllHearbeat sessions).2).Sublist (starts sessions) := by
  induction sessions with
  | nil => exact .slnil
  | cons first rest ih =>
    unfold onlineSessionCheckAllHearbeat
    split
    · exact List.sublist_cons_self _ _
    · exact ih.cons_cons _

/-- Two sessions that do not conflict may stand beside each other. -/
theorem compatible_of_conflicts {session old : OnlineSession}
    (apart : conflicts session old = false) : Compatible old session := by
  unfold conflicts at apart
  split at apart
  · cases apart
  · rename_i admin
    split at apart
    · cases apart
    · rename_i child
      refine ⟨fun same => ?_, fun _ isAdmin same => ?_, fun _ noAdmin same => ?_⟩
      · exact of_decide_eq_false apart same.symm
      · exact admin (by simp [isAdmin, same])
      · obtain ⟨ref, uuid⟩ := Prod.mk.inj same
        exact child (by simp [noAdmin, ref, uuid])

private theorem evictConflicts_compatible {session : OnlineSession} {sessions kept : List SessionEntry}
    (released : evictConflicts session sessions = (true, kept)) :
    ∀ entry ∈ kept, Compatible entry.session session := by
  induction sessions generalizing kept with
  | nil =>
    obtain ⟨_, rfl⟩ := Prod.mk.inj released
    exact fun _ member => absurd member List.not_mem_nil
  | cons first rest ih =>
    unfold evictConflicts at released
    split at released
    · split at released
      · cases released
      · exact ih released
    · rename_i apart
      obtain ⟨done, rfl⟩ := Prod.mk.inj released
      intro entry member
      rcases List.mem_cons.mp member with rfl | later
      · exact compatible_of_conflicts (Bool.eq_false_iff.mpr apart)
      · exact ih (Prod.ext done rfl) entry later

/-! ### Every run -/

namespace SessionTable

/-- What each call keeps, said of the sessions as they started. -/
structure Sorted (table : SessionTable) : Prop where
  compatible : (starts table.sessions).Pairwise Compatible
  last : ∀ session ∈ starts table.sessions,
    ∃ last, table.lastAdded session.net.fd = some last ∧ session = last.started

theorem Sorted.fewer {before after : SessionTable} (sorted : Sorted before)
    (fewer : (starts after.sessions).Sublist (starts before.sessions))
    (added : after.added = before.added) : Sorted after where
  compatible := sorted.compatible.sublist fewer
  last session member := by
    rw [lastAdded, added]
    exact sorted.last session (fewer.subset member)

theorem Sorted.add {table : SessionTable} (sorted : Sorted table) {session : OnlineSession}
    {kept : List SessionEntry} (released : evictConflicts session table.sessions = (true, kept)) :
    Sorted ⟨kept ++ [⟨session, 0, false⟩], session :: table.added, table.isStuck⟩ := by
  have fewer : (starts kept).Sublist (starts table.sessions) := by
    have sublist := evictConflicts_sublist session table.sessions
    rw [released] at sublist
    exact sublist.map _
  have apart := evictConflicts_compatible released
  have listed : starts (kept ++ [⟨session, 0, false⟩]) = starts kept ++ [session.started] := by
    simp [starts]
  refine ⟨?_, fun other member => ?_⟩
  · rw [listed, List.pairwise_append]
    refine ⟨sorted.compatible.sublist fewer, List.pairwise_singleton _ _, ?_⟩
    intro old oldMember new newMember
    obtain ⟨entry, entryMember, rfl⟩ := List.mem_map.mp oldMember
    obtain rfl := List.mem_singleton.mp newMember
    have compatible := apart entry entryMember
    exact ⟨compatible.descriptor, compatible.admins, compatible.children⟩
  · rw [listed] at member
    rcases List.mem_append.mp member with old | new
    · obtain ⟨last, found, same⟩ := sorted.last other (fewer.subset old)
      obtain ⟨entry, entryMember, rfl⟩ := List.mem_map.mp old
      refine ⟨last, ?_, same⟩
      -- the new session has another descriptor
      have differ : session.net.fd ≠ entry.session.net.fd :=
        (apart entry entryMember).descriptor.symm
      rw [lastAdded, List.find?_cons_of_neg]
      · exact found
      · exact fun same => differ (of_decide_eq_true same)
    · obtain rfl := List.mem_singleton.mp new
      refine ⟨session, ?_, rfl⟩
      rw [lastAdded, List.find?_cons_of_pos]
      exact decide_eq_true rfl

theorem Sorted.step {before after : SessionTable} {call : SessionCall} (sorted : Sorted before)
    (step : next before call = some after) : Sorted after := by
  unfold next at step
  split at step
  · cases step
  · split at step
    · rename_i session
      have fewer := (evictConflicts_sublist session before.sessions).map
        fun entry => entry.session.started
      unfold onlineSessionAdd at step
      cases evicted : evictConflicts session before.sessions with
      | mk released kept =>
        rw [evicted] at step fewer
        cases released with
        | false =>
          obtain rfl := Option.some.inj step
          exact sorted.fewer fewer rfl
        | true =>
          obtain rfl := Option.some.inj step
          exact sorted.add evicted
    · obtain rfl := Option.some.inj step
      exact sorted.fewer (by rw [starts_del]) rfl
    · split at step
      · obtain rfl := Option.some.inj step
        exact sorted
      · rename_i index session held found
        obtain rfl := Option.some.inj step
        obtain ⟨_, _, _, _, rfl⟩ := onlineSessionRef_some found
        have same := starts_modify before.sessions index
          (f := fun entry => { entry with ref := entry.ref + 1 }) fun _ => rfl
        exact sorted.fewer (same ▸ List.Sublist.refl _) rfl
    · rename_i index
      obtain rfl := Option.some.inj step
      have same := starts_modify before.sessions index
        (f := fun entry => { entry with ref := entry.ref - 1 }) fun _ => rfl
      exact sorted.fewer (same ▸ List.Sublist.refl _) rfl
    · obtain rfl := Option.some.inj step
      exact sorted.fewer (starts_tick before.sessions) rfl

theorem Sorted.kept {table : SessionTable} (sorted : Sorted table) : table.Kept where
  compatible := by
    have pairwise := sorted.compatible
    rw [starts, List.pairwise_map] at pairwise
    rw [List.pairwise_map]
    exact pairwise.imp fun compatible =>
      ⟨compatible.descriptor, compatible.admins, compatible.children⟩
  latest fd := by
    split
    · rename_i absent
      exact onlineSessionRef_none.mp absent
    · rename_i found
      obtain ⟨entry, at_, rfl, same, _⟩ := onlineSessionRef_some found
      rw [← same]
      exact sorted.last _ (List.mem_map_of_mem (List.mem_of_getElem? at_))

/-- In every run from the empty list no two sessions clash, and a descriptor stands for the
session that was added last for it. -/
theorem kept_of_reachable (table : SessionTable)
    (reached : system.Reachable System.Free table) : table.Kept := by
  have sorted : Sorted table := by
    refine reached.invariant Sorted ?_ ?_
    · rintro _ rfl
      exact ⟨.nil, fun _ member => absurd member List.not_mem_nil⟩
    · intro before action after sorted _ step
      exact Sorted.step sorted step
  exact sorted.kept

/-- An admin and a child; then the child again, on the admin's descriptor. -/
theorem kept_replaced :
    let admin : OnlineSession := ⟨⟨[97], [], [], [], []⟩, [], true, true, ⟨5, [], 0, true⟩⟩
    let child : OnlineSession := ⟨⟨[98], [], [], [], []⟩, [97], false, true, ⟨6, [], 0, true⟩⟩
    let calls : List SessionCall :=
      [.add admin, .add child, .tick, .add { child with net.fd := 5 }, .ref 5]
    ∃ table, system.run ⟨[], [], false⟩ calls = some table ∧ table.sessions.length = 1 ∧
      table.Kept := by
  intro admin child calls
  have started : system.Reachable System.Free ⟨[], [], false⟩ := .start rfl
  have met : system.Guarded System.Free ⟨[], [], false⟩ calls := System.guarded_free _ calls
  exact ⟨_, rfl, rfl, kept_of_reachable _ (started.run met rfl)⟩

end SessionTable
end Livezure.Service
