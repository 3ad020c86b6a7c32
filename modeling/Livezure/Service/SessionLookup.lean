import Livezure.Service.Listing
import Livezure.Service.Prints

/-! The lookups of sessions by account: first among those online, then in the tables. -/
namespace Livezure.Service
open Livezure.Core Db Rpc

/-- `strcpy` into `ref_admin_uuid`. -/
def strcpyRefAdminUuid (text : Bytes) : Except Fault Bytes :=
  if text.length ≤ 16 then .ok text else .error .outOfBounds

/-- The session that a lookup makes of an account that is not online. -/
def offlineSession (account : AccountBasic) (refAdminUuid : Bytes) (isAdmin : Bool) :
    OnlineSession :=
  ⟨account, refAdminUuid, isAdmin, false, ⟨0, [], 0, false⟩⟩

def onlineSessionTryGetAdmin (sessions : List SessionEntry) (store : Store) (refAdminUuid : Bytes) :
    Except Fault (Option OnlineSession) :=
  match sessions.find? fun entry => entry.session.isAdmin &&
      decide (entry.session.refAdminUuid = refAdminUuid) with
  | some entry => .ok (some entry.session)
  | none =>
    match (dbAccountListAdminGet store (some refAdminUuid)).bind List.head? with
    | none => .ok none
    | some account => do
      let ref ← strcpyRefAdminUuid account.uuid
      return some (offlineSession account ref true)

/-- `online_session_try_get_child`, for any uuids. -/
def tryGetChild (sessions : List SessionEntry) (store : Store) (refAdminUuid uuid : Bytes) :
    Except Fault (Option OnlineSession) :=
  match sessions.find? fun entry => !entry.session.isAdmin &&
      decide (entry.session.refAdminUuid = refAdminUuid) &&
      decide (entry.session.basic.uuid = uuid) with
  | some entry => .ok (some entry.session)
  | none =>
    match (dbAccountListChildGet store refAdminUuid (some uuid)).bind List.head? with
    | none => .ok none
    | some account => do
      let ref ← strcpyRefAdminUuid refAdminUuid
      return some (offlineSession account ref false)

/-- For a uuid that fits, this is the lookup of the list of accounts. -/
theorem tryGetChild_eq (sessions : List SessionEntry) (store : Store) {refAdminUuid : Bytes}
    (fits : refAdminUuid.length ≤ 16) (uuid : Bytes) :
    tryGetChild sessions store refAdminUuid uuid =
      .ok (onlineSessionTryGetChild sessions store refAdminUuid uuid) := by
  unfold tryGetChild onlineSessionTryGetChild strcpyRefAdminUuid
  generalize (sessions.find? fun entry => !entry.session.isAdmin &&
    decide (entry.session.refAdminUuid = refAdminUuid) &&
    decide (entry.session.basic.uuid = uuid)) = online
  cases online with
  | some entry => rfl
  | none =>
    cases (dbAccountListChildGet store refAdminUuid (some uuid)).bind List.head? with
    | none => rfl
    | some account =>
      simp only [if_pos fits]
      rfl

/-- The statements of `online_session_try_get_admin`. -/
def tryGetAdminPrints (sessions : List SessionEntry) (refAdminUuid : Bytes) : List Statement :=
  match sessions.find? fun entry => entry.session.isAdmin &&
      decide (entry.session.refAdminUuid = refAdminUuid) with
  | some _ => []
  | none => [.listAdminGetOne refAdminUuid]

/-- The lists that logins make, each with the tables as they are at the time and by statements that
mean it. -/
inductive LoggedInList (hash : Bytes → Bytes) : List SessionEntry → Prop where
  | nil : LoggedInList hash []
  | login {server : Server} {fd : Int} {req : Option RpcReq} {around : Surroundings}
      {outcome : Outcome} : LoggedInList hash server.sessions →
      AllPlain (accountLoginPrints server req around.toAmbient hash) →
      reqAccountLogin server fd req hash around = .ok outcome →
      LoggedInList hash outcome.server.sessions

/-- A lookup of an account finds it if it is online or stored, and says which. -/
structure LooksUp (result : Except Fault (Option OnlineSession)) (uuid : Bytes) (isAdmin : Bool)
    (online stored : Prop) : Prop where
  found : ∃ session, result = .ok session ∧ (session.isSome ↔ online ∨ stored)
  session : ∀ session, result = .ok (some session) →
    session.basic.uuid = uuid ∧ session.isAdmin = isAdmin ∧ (session.isOnline = true ↔ online)

def AdminOnline (sessions : List SessionEntry) (uuid : Bytes) : Prop :=
  ∃ entry ∈ sessions, entry.session.isAdmin = true ∧ entry.session.basic.uuid = uuid

def ChildOnline (sessions : List SessionEntry) (refAdminUuid uuid : Bytes) : Prop :=
  ∃ entry ∈ sessions, entry.session.isAdmin = false ∧ entry.session.refAdminUuid = refAdminUuid ∧
    entry.session.basic.uuid = uuid

/-- A child that can log in. -/
def ChildStored (store : Store) (refAdminUuid uuid : Bytes) : Prop :=
  uuid ∈ store.basic.keys ∧ store.ChildOf refAdminUuid uuid

/-- The sessions of admins have no `ref_admin_uuid`, so none of them is found by it, unless it
is looked for with the empty text. -/
def AdminLooksUp (sessions : List SessionEntry) (store : Store) (uuid : Bytes) : Prop :=
  if uuid = [] then
    ∀ entry ∈ sessions.find? fun entry => entry.session.isAdmin, entry.session.basic.uuid = []
  else ¬AdminOnline sessions uuid ∧ (store.IsAdmin uuid → uuid.length ≤ 16)

/-- Uuids that are read from the tables have to fit. -/
def ChildLooksUp (sessions : List SessionEntry) (store : Store) (refAdminUuid uuid : Bytes) : Prop :=
  ¬ChildOnline sessions refAdminUuid uuid → ChildStored store refAdminUuid uuid →
    refAdminUuid.length ≤ 16 ∧ uuid.length ≤ 16

/-! ### The list -/

/-- What every login stores. -/
def Started (session : OnlineSession) : Prop :=
  session.isOnline = true ∧ (session.isAdmin = true → session.refAdminUuid = [])

private theorem newSession_started {server : Server} {fd : Int} {around : Surroundings} {uuid : Bytes}
    {user : UserExist} {session : OnlineSession}
    (made : newSession server fd around uuid user = .ok session) : Started session := by
  obtain ⟨_, _, _, _, rfl⟩ := newSession_made made
  exact ⟨rfl, fun isAdmin => if_pos isAdmin⟩

theorem LoggedInList.started {hash : Bytes → Bytes} {sessions : List SessionEntry}
    (logins : LoggedInList hash sessions) : ∀ entry ∈ sessions, Started entry.session := by
  induction logins with
  | nil => exact fun _ member => absurd member List.not_mem_nil
  | login _ _ done ih =>
    intro entry member
    rcases reqAccountLogin_entry done entry member with old | ⟨uuid, user, made⟩
    · exact ih entry old
    · exact newSession_started made

/-! ### The tables -/

theorem fetchAll_head (rows : List AccountBasic) :
    (fetchAll rows).bind List.head? = rows.head?.map AccountBasic.fetched := by
  cases rows with
  | nil => rfl
  | cons row rest => rfl

private theorem listGet_cases {uuid : Bytes} {stored : Prop} {rows : List AccountBasic}
    (own : ∀ row ∈ rows, row.uuid = uuid) (some_ : rows ≠ [] ↔ stored) :
    ((fetchAll rows).bind List.head? = none ∧ ¬stored) ∨
      ∃ account, (fetchAll rows).bind List.head? = some account ∧ stored ∧
        account.uuid = uuid.take 16 := by
  rw [fetchAll_head]
  cases rows with
  | nil => exact .inl ⟨rfl, fun stored => some_.mpr stored rfl⟩
  | cons row rest =>
    refine .inr ⟨row.fetched, rfl, some_.mp (List.cons_ne_nil _ _), ?_⟩
    rw [← own row List.mem_cons_self]
    rfl

private theorem listAdminGet_cases (store : Store) (uuid : Bytes) :
    ((dbAccountListAdminGet store (some uuid)).bind List.head? = none ∧ ¬store.IsAdmin uuid) ∨
      ∃ account, (dbAccountListAdminGet store (some uuid)).bind List.head? = some account ∧
        store.IsAdmin uuid ∧ account.uuid = uuid.take 16 := by
  unfold dbAccountListAdminGet
  refine listGet_cases (fun row member => ?_) ?_
  · have met := (Table.mem_selectIn.mp member).2
    rw [Bool.and_eq_true] at met
    exact of_decide_eq_true met.2
  · rw [ne_eq, Table.selectIn_eq_nil, ← ne_eq, Table.select_ne_nil]
    simp only [Bool.and_eq_true, decide_eq_true_eq]
    constructor
    · rintro ⟨row, member, isAdmin, rfl⟩
      exact ⟨Table.key_mem member, isAdmin⟩
    · rintro ⟨known, isAdmin⟩
      obtain ⟨row, member, rfl⟩ := Table.mem_keys.mp known
      exact ⟨row, member, isAdmin, rfl⟩

private theorem listChildGet_cases (store : Store) (refAdminUuid uuid : Bytes) :
    ((dbAccountListChildGet store refAdminUuid (some uuid)).bind List.head? = none ∧
      ¬ChildStored store refAdminUuid uuid) ∨
    ∃ account, (dbAccountListChildGet store refAdminUuid (some uuid)).bind List.head? = some account ∧
      ChildStored store refAdminUuid uuid ∧ account.uuid = uuid.take 16 := by
  unfold dbAccountListChildGet
  dsimp only
  refine listGet_cases (fun row member => ?_) ?_
  · have met := of_decide_eq_true (Table.mem_selectIn.mp member).2
    obtain ⟨child, selected, same⟩ := List.mem_map.mp met
    have own := (Table.mem_select.mp selected).2
    rw [Bool.and_eq_true] at own
    exact same.symm.trans (of_decide_eq_true own.2)
  · rw [ne_eq, Table.selectIn_eq_nil, ← ne_eq, Table.select_ne_nil]
    simp only [decide_eq_true_eq, List.mem_map, Table.mem_select, Bool.and_eq_true]
    constructor
    · rintro ⟨row, member, child, ⟨listed, ref, rfl⟩, same⟩
      exact ⟨same ▸ Table.key_mem member, child, listed, ref, rfl⟩
    · rintro ⟨known, child, listed, ref, rfl⟩
      obtain ⟨row, member, same⟩ := Table.mem_keys.mp known
      exact ⟨row, member, child, ⟨listed, ref, rfl⟩, same.symm⟩

/-- A session is made of an account that its list function finds. -/
theorem newSession_cases {server : Server} {fd : Int} {around : Surroundings} {uuid : Bytes}
    {user : UserExist} (valid : uuid.length ≤ 16) :
    ((∃ fault, newSession server fd around uuid user = .error fault) ∧
      ¬if user.isAdmin then server.store.IsAdmin uuid
        else ChildStored server.store user.refAdminUuid uuid) ∨
    ∃ session, newSession server fd around uuid user = .ok session ∧
      (if user.isAdmin then server.store.IsAdmin uuid
        else ChildStored server.store user.refAdminUuid uuid) ∧
      session.isAdmin = user.isAdmin ∧
      session.refAdminUuid = (if user.isAdmin then [] else user.refAdminUuid.take 17) ∧
      session.basic.uuid = uuid ∧ session.net.fd = fd := by
  have named : ∀ account : AccountBasic, account.uuid = uuid.take 16 → account.uuid = uuid :=
    fun account cut => cut.trans (List.take_of_length_le valid)
  unfold newSession
  cases user.isAdmin with
  | true =>
    simp only [if_true]
    rcases listAdminGet_cases server.store uuid with ⟨nobody, unknown⟩ | ⟨account, listed, known, cut⟩
    · rw [nobody]
      exact .inl ⟨⟨_, rfl⟩, unknown⟩
    · rw [listed]
      exact .inr ⟨_, rfl, known, rfl, rfl, named account cut, rfl⟩
  | false =>
    simp only [Bool.false_eq_true, if_false]
    rcases listChildGet_cases server.store user.refAdminUuid uuid with
      ⟨nobody, unknown⟩ | ⟨account, listed, known, cut⟩
    · rw [nobody]
      exact .inl ⟨⟨_, rfl⟩, unknown⟩
    · rw [listed]
      exact .inr ⟨_, rfl, known, rfl, rfl, named account cut, rfl⟩

/-! ### What a lookup returns -/

section Results
variable {uuid : Bytes} {isAdmin : Bool} {online stored : Prop}

private theorem looksUp_online {session : OnlineSession} (kind : session.isAdmin = isAdmin)
    (isOnline : session.isOnline = true) (one : session.basic.uuid = uuid → online) :
    LooksUp (.ok (some session)) uuid isAdmin online stored ↔ session.basic.uuid = uuid := by
  constructor
  · intro finds
    exact (finds.session session rfl).1
  · intro same
    refine ⟨⟨_, rfl, iff_of_true rfl (.inl (one same))⟩, fun other given => ?_⟩
    obtain rfl := Option.some.inj (Except.ok.inj given)
    exact ⟨same, kind, iff_of_true isOnline (one same)⟩

private theorem looksUp_none (notStored : ¬stored) :
    LooksUp (.ok none) uuid isAdmin online stored ↔ ¬online := by
  constructor
  · intro finds isOnline
    obtain ⟨session, given, found⟩ := finds.found
    obtain rfl := Except.ok.inj given
    exact Bool.false_ne_true (found.mpr (.inl isOnline))
  · intro offline
    refine ⟨⟨none, rfl, iff_of_false Bool.false_ne_true ?_⟩, fun session given => nomatch given⟩
    exact fun either => either.elim offline notStored

private theorem looksUp_offline (known : stored) {account : AccountBasic} {ref : Bytes}
    (cut : account.uuid = uuid.take 16) :
    LooksUp (.ok (some (offlineSession account ref isAdmin))) uuid isAdmin online stored ↔
      ¬online ∧ uuid.length ≤ 16 := by
  constructor
  · intro finds
    obtain ⟨same, _, isOnline⟩ := finds.session _ rfl
    refine ⟨fun on => Bool.false_ne_true (isOnline.mpr on), ?_⟩
    change account.uuid = uuid at same
    rw [cut] at same
    exact List.take_eq_self_iff _ |>.mp same
  · rintro ⟨offline, short⟩
    refine ⟨⟨_, rfl, iff_of_true rfl (.inr known)⟩, fun session given => ?_⟩
    obtain rfl := Option.some.inj (Except.ok.inj given)
    exact ⟨cut.trans (List.take_of_length_le short), rfl, iff_of_false Bool.false_ne_true offline⟩

end Results

section Lookups
variable {sessions : List SessionEntry} {store : Store}

/-- Among the sessions that logins make, an admin's is found by the empty text only. -/
theorem find_admin (started : ∀ entry ∈ sessions, Started entry.session) (uuid : Bytes) :
    (sessions.find? fun entry => entry.session.isAdmin &&
      decide (entry.session.refAdminUuid = uuid)) =
      if uuid = [] then sessions.find? fun entry => entry.session.isAdmin else none := by
  induction sessions with
  | nil => exact (ite_self none).symm
  | cons entry rest ih =>
    have later := ih fun other member => started other (List.mem_cons_of_mem _ member)
    have ref := (started entry List.mem_cons_self).2
    rw [List.find?_cons, List.find?_cons, later]
    cases isAdmin : entry.session.isAdmin with
    | false => rfl
    | true =>
      rw [ref isAdmin]
      by_cases empty : uuid = []
      · simp [empty]
      · simp [empty, Ne.symm empty]

private theorem storedAdmin_iff (uuid : Bytes) (online : Prop) :
    LooksUp (match (dbAccountListAdminGet store (some uuid)).bind List.head? with
      | none => .ok none
      | some account => do
        let ref ← strcpyRefAdminUuid account.uuid
        return some (offlineSession account ref true)) uuid true online (store.IsAdmin uuid) ↔
      ¬online ∧ (store.IsAdmin uuid → uuid.length ≤ 16) := by
  rcases listAdminGet_cases store uuid with ⟨nothing, notStored⟩ | ⟨account, listed, stored, cut⟩
  · rw [nothing]
    rw [looksUp_none notStored, and_iff_left fun stored => absurd stored notStored]
  · have fits : account.uuid.length ≤ 16 := by
      rw [cut, List.length_take]
      omega
    rw [listed]
    simp only [strcpyRefAdminUuid, if_pos fits, bind, Except.bind, pure, Except.pure]
    rw [looksUp_offline stored cut, forall_prop_of_true stored]

private theorem adminLooksUp_iff (started : ∀ entry ∈ sessions, Started entry.session) (uuid : Bytes) :
    LooksUp (onlineSessionTryGetAdmin sessions store uuid) uuid true (AdminOnline sessions uuid)
      (store.IsAdmin uuid) ↔ AdminLooksUp sessions store uuid := by
  unfold onlineSessionTryGetAdmin AdminLooksUp
  rw [find_admin started]
  by_cases empty : uuid = []
  · subst empty
    rw [if_pos rfl, if_pos rfl]
    cases found : sessions.find? fun entry => entry.session.isAdmin with
    | some entry =>
      have member := List.mem_of_find?_eq_some found
      have isAdmin := List.find?_some found
      rw [looksUp_online isAdmin (started entry member).1 fun same => ⟨entry, member, isAdmin, same⟩]
      simp
    | none =>
      have offline : ¬AdminOnline sessions [] := by
        rintro ⟨entry, member, isAdmin, _⟩
        exact List.find?_eq_none.mp found entry member isAdmin
      rw [storedAdmin_iff]
      simp [offline]
  · rw [if_neg empty, if_neg empty]
    exact storedAdmin_iff uuid _

private theorem childLooksUp_iff (started : ∀ entry ∈ sessions, Started entry.session)
    (refAdminUuid uuid : Bytes) :
    LooksUp (tryGetChild sessions store refAdminUuid uuid) uuid false
      (ChildOnline sessions refAdminUuid uuid) (ChildStored store refAdminUuid uuid) ↔
      ChildLooksUp sessions store refAdminUuid uuid := by
  unfold tryGetChild ChildLooksUp
  split
  · rename_i entry found
    have member := List.mem_of_find?_eq_some found
    have met := List.find?_some found
    simp only [Bool.and_eq_true, Bool.not_eq_true', decide_eq_true_eq] at met
    obtain ⟨⟨isChild, ref⟩, same⟩ := met
    have online : ChildOnline sessions refAdminUuid uuid := ⟨entry, member, isChild, ref, same⟩
    rw [looksUp_online isChild (started entry member).1 fun _ => online]
    exact iff_of_true same fun offline => absurd online offline
  · rename_i found
    have offline : ¬ChildOnline sessions refAdminUuid uuid := by
      rintro ⟨entry, member, isChild, ref, same⟩
      exact List.find?_eq_none.mp found entry member (by simp [isChild, ref, same])
    rw [forall_prop_of_true offline]
    rcases listChildGet_cases store refAdminUuid uuid with
      ⟨nothing, notStored⟩ | ⟨account, listed, stored, cut⟩
    · rw [nothing, looksUp_none notStored]
      exact iff_of_true offline fun stored => absurd stored notStored
    · rw [listed, forall_prop_of_true stored]
      by_cases fits : refAdminUuid.length ≤ 16
      · simp only [strcpyRefAdminUuid, if_pos fits, bind, Except.bind, pure, Except.pure]
        rw [looksUp_offline stored cut]
        exact and_congr_left' (iff_of_true offline fits)
      · simp only [strcpyRefAdminUuid, if_neg fits, bind, Except.bind]
        refine iff_of_false (fun finds => ?_) fun both => fits both.1
        obtain ⟨session, given, _⟩ := finds.found
        cases given

end Lookups

/-- In the lists that logins make, and by statements that mean it, an admin is looked up rightly
exactly if it is not online, and a child always, as far as uuids in the tables fit. -/
theorem lookups_iff {hash : Bytes → Bytes} {sessions : List SessionEntry}
    (logins : LoggedInList hash sessions) (store : Store) :
    (∀ uuid, AllPlain (tryGetAdminPrints sessions uuid) →
      AllDenote (tryGetAdminPrints sessions uuid) ∧
        (LooksUp (onlineSessionTryGetAdmin sessions store uuid) uuid true
          (AdminOnline sessions uuid) (store.IsAdmin uuid) ↔ AdminLooksUp sessions store uuid)) ∧
    ∀ refAdminUuid uuid, AllPlain (tryGetChildPrints sessions refAdminUuid uuid) →
      AllDenote (tryGetChildPrints sessions refAdminUuid uuid) ∧
        (LooksUp (tryGetChild sessions store refAdminUuid uuid) uuid false
          (ChildOnline sessions refAdminUuid uuid) (ChildStored store refAdminUuid uuid) ↔
            ChildLooksUp sessions store refAdminUuid uuid) := by
  constructor
  · intro uuid plain
    exact ⟨allDenote_iff.mpr plain, adminLooksUp_iff logins.started uuid⟩
  · intro refAdminUuid uuid plain
    exact ⟨allDenote_iff.mpr plain, childLooksUp_iff logins.started refAdminUuid uuid⟩

/-- The admin `a` with its child `b`. -/
private def parent : Store :=
  (dbAccountChildAdd (dbAccountAdminAdd .init id ⟨[50], [], []⟩ ⟨ascii "a", ascii "w", [], []⟩).2
    id ⟨[50], [], []⟩ (ascii "a") ⟨ascii "b", ascii "w", [], []⟩).2

private def namedLogin (uuid : Bytes) : Option RpcReq :=
  some [⟨ascii "pid", some (ascii "100"), 3⟩, ⟨ascii "uuid", some uuid, uuid.length⟩,
    ⟨ascii "pwd", some (ascii "w"), 1⟩]

/-- The login of an account on descriptor 5, as the first one. -/
private def firstLogin (uuid : Bytes) : Except Fault Outcome :=
  reqAccountLogin ⟨parent, [], []⟩ 5 (namedLogin uuid) id ⟨⟨[50], [], []⟩, none⟩

private theorem firstLogin_plain : ∀ uuid ∈ [ascii "a", ascii "b"],
    AllPlain (accountLoginPrints ⟨parent, [], []⟩ (namedLogin uuid) ⟨[50], [], []⟩ id) := by
  decide +kernel

/-- The child is looked up rightly after its login. -/
theorem lookups_child : ∃ outcome, firstLogin (ascii "b") = .ok outcome ∧
    LooksUp (tryGetChild outcome.server.sessions parent (ascii "a") (ascii "b")) (ascii "b") false
      (ChildOnline outcome.server.sessions (ascii "a") (ascii "b"))
      (ChildStored parent (ascii "a") (ascii "b")) := by
  obtain ⟨outcome, done⟩ : ∃ outcome, firstLogin (ascii "b") = .ok outcome := ⟨_, rfl⟩
  have logins : LoggedInList id outcome.server.sessions :=
    .login .nil (firstLogin_plain (ascii "b") (.tail _ (.head _))) done
  have found : AllPlain (tryGetChildPrints outcome.server.sessions (ascii "a") (ascii "b")) := by
    cases done
    decide
  refine ⟨outcome, done, (((lookups_iff logins parent).2 _ _ found).2).mpr fun _ _ => ?_⟩
  decide

/-- After its login the admin is said not to be online. -/
theorem not_lookups : ∃ outcome session, firstLogin (ascii "a") = .ok outcome ∧
    LoggedInList id outcome.server.sessions ∧ AdminOnline outcome.server.sessions (ascii "a") ∧
    onlineSessionTryGetAdmin outcome.server.sessions parent (ascii "a") = .ok (some session) ∧
    session.isOnline = false ∧
    ¬LooksUp (onlineSessionTryGetAdmin outcome.server.sessions parent (ascii "a")) (ascii "a") true
      (AdminOnline outcome.server.sessions (ascii "a")) (parent.IsAdmin (ascii "a")) := by
  have online : AdminOnline [⟨⟨⟨ascii "a", ascii "w", [], [], [50]⟩, [], true, true, ⟨5, [], 0, true⟩⟩,
      0, false⟩] (ascii "a") := ⟨_, List.mem_singleton_self _, rfl, rfl⟩
  have login : firstLogin (ascii "a") = .ok ⟨⟨parent, [⟨⟨⟨ascii "a", ascii "w", [], [], [50]⟩, [],
      true, true, ⟨5, [], 0, true⟩⟩, 0, false⟩], []⟩,
      some (rid 0 ++ [(ascii "is_admin", decimal 1)]), none⟩ := rfl
  have logins := LoggedInList.login .nil (firstLogin_plain (ascii "a") (.head _)) login
  refine ⟨_, _, login, logins, online, rfl, rfl, fun finds => ?_⟩
  exact absurd ((finds.session _ rfl).2.2.mpr online) Bool.false_ne_true

end Livezure.Service
