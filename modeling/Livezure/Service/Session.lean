import Livezure.Common.Pref
import Livezure.Db.Account

/-! The online sessions (`service_session.c`) and the devices at work
(`service_device.c`). -/
namespace Livezure.Service
open Livezure.Core Common Db

/-- `online_net_basic_t`. -/
structure OnlineNetBasic where
  fd : Int
  ip : Bytes
  port : Int
  isHeartbeated : Bool
  deriving DecidableEq

structure OnlineSession where
  basic : AccountBasic
  refAdminUuid : Bytes
  isAdmin : Bool
  isOnline : Bool
  net : OnlineNetBasic
  deriving DecidableEq

/-- `session_list_t`; `ref` is the count of its `pref_t`. -/
structure SessionEntry where
  session : OnlineSession
  ref : Int
  isMarkDeleted : Bool
  deriving DecidableEq

/-- A session that `online_session_add` does not leave beside a new one. -/
def conflicts (session old : OnlineSession) : Bool :=
  if session.isAdmin && decide (old.basic.uuid = session.basic.uuid) then true
  else if !session.isAdmin && decide (old.refAdminUuid = session.refAdminUuid) &&
      decide (old.basic.uuid = session.basic.uuid) then true
  else decide (session.net.fd = old.net.fd)

/-- The sessions in conflict leave the list one by one. False if `pref_release`
waits: nobody finds the entry any more to give a reference back. -/
def evictConflicts (session : OnlineSession) : List SessionEntry → Bool × List SessionEntry
  | [] => (true, [])
  | entry :: rest =>
    if conflicts session entry.session then
      if entry.ref ≠ 0 then (false, rest) else evictConflicts session rest
    else
      let (released, rest) := evictConflicts session rest
      (released, entry :: rest)

/-- False if the call does not return. -/
def onlineSessionAdd (sessions : List SessionEntry) (session : OnlineSession) :
    Bool × List SessionEntry :=
  match evictConflicts session sessions with
  | (false, sessions) => (false, sessions)
  | (true, sessions) => (true, sessions ++ [⟨session, 0, false⟩])

def onlineSessionDel (fd : Int) : List SessionEntry → Bool × List SessionEntry
  | [] => (false, [])
  | entry :: rest =>
    if entry.session.net.fd = fd then (true, { entry with isMarkDeleted := true } :: rest)
    else
      let (r, rest) := onlineSessionDel fd rest
      (r, entry :: rest)

/-- The place in the list stands for the pointer to the session. -/
def onlineSessionRef (sessions : List SessionEntry) (fd : Int) :
    Option (Nat × OnlineSession × List SessionEntry) :=
  match sessions.findIdx? fun entry => decide (entry.session.net.fd = fd) with
  | none => none
  | some index => sessions[index]?.map fun entry =>
    (index, entry.session, sessions.modify index fun entry => { entry with ref := entry.ref + 1 })

def onlineSessionDref (sessions : List SessionEntry) (index : Nat) : List SessionEntry :=
  sessions.modify index fun entry => { entry with ref := entry.ref - 1 }

/-- `online_session_check_all_hearbeat` ends with the first session it removes.
False if the timer's thread waits in `pref_release`. -/
def onlineSessionCheckAllHearbeat : List SessionEntry → Bool × List SessionEntry
  | [] => (true, [])
  | entry :: rest =>
    if !entry.session.net.isHeartbeated || entry.isMarkDeleted then (decide (entry.ref = 0), rest)
    else
      let (released, rest) := onlineSessionCheckAllHearbeat rest
      (released, { entry with session.net.isHeartbeated := false } :: rest)

/-- A copy of the child's online session, or one that is not online. -/
def onlineSessionTryGetChild (sessions : List SessionEntry) (store : Store)
    (refAdminUuid uuid : Bytes) : Option OnlineSession :=
  match sessions.find? fun entry => !entry.session.isAdmin &&
      decide (entry.session.refAdminUuid = refAdminUuid) &&
      decide (entry.session.basic.uuid = uuid) with
  | some entry => some entry.session
  | none => ((dbAccountListChildGet store refAdminUuid (some uuid)).bind List.head?).map
    fun account => ⟨account, refAdminUuid, false, false, ⟨0, [], 0, false⟩⟩

/-- `device_list_t`. -/
structure DeviceEntry where
  deviceUuid : Bytes
  ref : Int
  deriving DecidableEq

def sessionDeviceRefWork (uuid : Bytes) : List DeviceEntry → Int × List DeviceEntry
  | [] => (1, [⟨uuid.take 38, prefGet prefInit⟩])
  | entry :: rest =>
    if entry.deviceUuid = uuid then
      (prefCount (prefGet entry.ref), { entry with ref := prefGet entry.ref } :: rest)
    else
      let (count, rest) := sessionDeviceRefWork uuid rest
      (count, entry :: rest)

def sessionDeviceDref (uuid : Bytes) : List DeviceEntry → Int × List DeviceEntry
  | [] => (-1, [])
  | entry :: rest =>
    if entry.deviceUuid = uuid then
      let cRef := prefPut entry.ref
      if cRef = 0 then (cRef, rest) else (cRef, { entry with ref := cRef } :: rest)
    else
      let (count, rest) := sessionDeviceDref uuid rest
      (count, entry :: rest)

/-- Of an admin's devices only the first is compared, once for each of them. -/
def sessionDeviceTouch (store : Store) (devices : List DeviceEntry) (uuid : Bytes) : Int :=
  match devices.find? fun entry => decide (entry.deviceUuid = uuid) with
  | some entry => prefCount entry.ref
  | none =>
    if ((dbAccountListAdminGet store none).getD []).any fun admin =>
        (dbAccountDeviceGet store admin.uuid none).any fun devices =>
          devices.head?.any fun device => decide (device.uuid = uuid)
    then 0 else -1

/-! ### What `online_session_ref` finds -/

theorem onlineSessionRef_none {sessions : List SessionEntry} {fd : Int} :
    onlineSessionRef sessions fd = none ↔ ∀ entry ∈ sessions, entry.session.net.fd ≠ fd := by
  unfold onlineSessionRef
  split
  · rename_i absent
    simpa using absent
  · rename_i index found
    obtain ⟨bound, holds, _⟩ := List.findIdx?_eq_some_iff_getElem.mp found
    refine iff_of_false ?_ fun others => others _ (List.getElem_mem bound) (of_decide_eq_true holds)
    simp [bound]

theorem onlineSessionRef_some {sessions held : List SessionEntry} {fd : Int} {index : Nat}
    {session : OnlineSession} (found : onlineSessionRef sessions fd = some (index, session, held)) :
    ∃ entry, sessions[index]? = some entry ∧ entry.session = session ∧
      entry.session.net.fd = fd ∧
      held = sessions.modify index fun entry => { entry with ref := entry.ref + 1 } := by
  unfold onlineSessionRef at found
  split at found
  · cases found
  · rename_i place first
    obtain ⟨entry, at_, same⟩ := Option.map_eq_some_iff.mp found
    cases same
    obtain ⟨bound, holds, _⟩ := List.findIdx?_eq_some_iff_getElem.mp first
    refine ⟨entry, at_, rfl, ?_, rfl⟩
    obtain ⟨_, rfl⟩ := List.getElem?_eq_some_iff.mp at_
    exact of_decide_eq_true holds

/-- A reference given back leaves the list as it was. -/
theorem onlineSessionDref_ref {sessions held : List SessionEntry} {fd : Int} {index : Nat}
    {session : OnlineSession} (found : onlineSessionRef sessions fd = some (index, session, held)) :
    onlineSessionDref held index = sessions := by
  obtain ⟨_, _, _, _, rfl⟩ := onlineSessionRef_some found
  have back : (fun entry : SessionEntry => { entry with ref := entry.ref - 1 }) ∘
      (fun entry => { entry with ref := entry.ref + 1 }) = id := by
    funext entry
    simp
  rw [onlineSessionDref, List.modify_modify_eq, back]
  exact List.modify_id _ _

end Livezure.Service
