import Livezure.Db.Integrity
import Livezure.Service.SessionLookup

/-! What the answers of `req_account_create` promise: that the account can log in, and
that -2 is about accounts with the same uuid. -/
namespace Livezure.Service
open Livezure.Core Db Rpc

/-- The login succeeds, and the connection's session is a child's of that admin. -/
def LoggedIn (fd : Int) (refAdminUuid : Bytes) (login : Except Fault Outcome) : Prop :=
  ∃ outcome session, login = .ok outcome ∧ outcome.succeeded = true ∧
    sessionAt outcome.server fd = some session ∧ session.isAdmin = false ∧
    session.refAdminUuid = refAdminUuid

/-- A child's login has to remove this session, and a reference to it is held. -/
def SessionEntry.Blocks (fd : Int) (uuid refAdminUuid : Bytes) (entry : SessionEntry) : Prop :=
  entry.ref ≠ 0 ∧
    (entry.session.refAdminUuid = refAdminUuid ∧ entry.session.basic.uuid = uuid ∨
      entry.session.net.fd = fd)

section Create
variable {hash : Bytes → Bytes} {around : Surroundings} {server : Server} {fd : Int}
  {req : Option RpcReq} {account : NewAccount} {session : OnlineSession}

end Create

/-! ### Logging in -/

section Login
variable {hash : Bytes → Bytes} {store : Store} {uuid pwd refAdminUuid : Bytes}

/-- What a login needs to find of a child. -/
structure ChildRows (store : Store) (uuid hashed refAdminUuid : Bytes) : Prop where
  basic : ∃ row ∈ store.basic.rows, row.uuid = uuid ∧ row.pwd = hashed
  child : ∃ row ∈ store.child.rows, row.uuid = uuid ∧ row.refAdminUuid = refAdminUuid
  unlicensed : uuid ∉ store.admin.keys

theorem ChildRows.checked (rows : ChildRows store uuid (hash pwd) refAdminUuid) (ambient : Ambient) :
    dbAccountCheckUserIsOk store hash ambient uuid pwd =
      some ⟨false, strncpyUuid refAdminUuid ambient.junkRef⟩ := by
  obtain ⟨⟨basic, known, rfl, hashed⟩, ⟨child, listed, uuid, rfl⟩, unlicensed⟩ := rows
  have selected : basic ∈ store.basic.select fun row =>
      decide (row.uuid = basic.uuid) && decide (row.pwd = hash pwd) :=
    Table.mem_select.mpr ⟨known, by simp [hashed]⟩
  have license : dbAccountLicenseGet store basic.uuid = none := by
    cases found : dbAccountLicenseGet store basic.uuid with
    | none => rfl
    | some license => exact absurd (dbAccountLicenseGet_some found) unlicensed
  have own := Table.head_selectKey listed
  rw [uuid] at own
  rw [dbAccountCheckUserIsOk, if_neg (List.ne_nil_of_mem selected), dbAccountCheckUserExist,
    if_pos (Table.key_mem known), license]
  simp only [own]

theorem ChildRows.stored (rows : ChildRows store uuid hashed refAdminUuid) :
    ChildStored store refAdminUuid uuid := by
  obtain ⟨⟨basic, known, rfl, _⟩, ⟨child, listed, same, ref⟩, _⟩ := rows
  exact ⟨Table.key_mem known, child, listed, ref, same⟩

theorem conflicts_child {session old : OnlineSession} (isChild : session.isAdmin = false) :
    conflicts session old = true ↔
      old.refAdminUuid = session.refAdminUuid ∧ old.basic.uuid = session.basic.uuid ∨
        old.net.fd = session.net.fd := by
  unfold conflicts
  simp only [isChild, Bool.false_and, Bool.false_eq_true, if_false, Bool.not_false, Bool.true_and]
  split
  · rename_i same
    simp only [Bool.and_eq_true, decide_eq_true_eq] at same
    exact iff_of_true rfl (.inl same)
  · rename_i differ
    simp only [Bool.and_eq_true, decide_eq_true_eq] at differ
    rw [decide_eq_true_iff, or_iff_right differ, eq_comm]

theorem loginParams_length {req : Option RpcReq} (given : loginParams req = some (uuid, pwd)) :
    uuid.length ≤ 16 := by
  simp only [loginParams, bind, Option.bind_eq_some_iff] at given
  obtain ⟨_, _, _, _, given, validated, _, _, same⟩ := given
  obtain rfl := (Prod.mk.inj (Option.some.inj same)).1
  exact of_decide_eq_true (Option.filter_eq_some_iff.mp validated).2

/-- The session that the login of a child makes. -/
theorem ChildRows.newSession (rows : ChildRows store uuid hashed refAdminUuid)
    (short : refAdminUuid.length < 16) (valid : uuid.length ≤ 16) {later : Server}
    (same : later.store = store) (fd : Int) (around : Surroundings) :
    ∃ session, Service.newSession later fd around uuid ⟨false, refAdminUuid⟩ = .ok session ∧
      session.isAdmin = false ∧ session.refAdminUuid = refAdminUuid ∧
      session.basic.uuid = uuid ∧ session.net.fd = fd := by
  subst same
  rcases @newSession_cases later fd around uuid ⟨false, refAdminUuid⟩ valid with
    ⟨_, unknown⟩ | ⟨session, made, _, isChild, ref, name, own⟩
  · exact absurd rows.stored unknown
  · have whole : refAdminUuid.take 17 = refAdminUuid := List.take_of_length_le (by omega)
    exact ⟨session, made, isChild, ref.trans whole, name, own⟩

/-- The reference that a check gives for an account without license. -/
theorem dbAccountCheckUserExist_ref {ambient : Ambient} {user : UserExist}
    (found : dbAccountCheckUserExist store ambient uuid = some user)
    (isChild : user.isAdmin = false) {row : AccountChild} (listed : row ∈ store.child.rows)
    (same : row.uuid = uuid) : user.refAdminUuid = strncpyUuid row.refAdminUuid ambient.junkRef := by
  have own := Table.head_selectKey listed
  rw [same] at own
  unfold dbAccountCheckUserExist at found
  split at found
  · split at found
    · obtain rfl := Option.some.inj found
      cases isChild
    · rw [own] at found
      obtain rfl := Option.some.inj found
      rfl
  · cases found

/-- What a login that succeeds has found. -/
theorem LoggedIn.found {later : Server} {fd : Int} {req : Option RpcReq} {around : Surroundings}
    (given : loginParams req = some (uuid, pwd))
    (login : LoggedIn fd refAdminUuid (reqAccountLogin later fd req hash around)) :
    uuid ∈ later.store.basic.keys ∧ uuid ∉ later.store.admin.keys ∧
      ∃ row ∈ later.store.child.rows, row.uuid = uuid ∧
        row.refAdminUuid = strncpyUuid row.refAdminUuid around.junkRef ∧
        refAdminUuid = row.refAdminUuid.take 17 := by
  obtain ⟨outcome, session, done, succeeded, at_, isChild, rfl⟩ := login
  rcases reqAccountLogin_cases done with rfl | rfl | ⟨_, _, user, new, kept, same, checked, made, ended⟩
  · cases succeeded
  · cases succeeded
  · obtain ⟨rfl, rfl⟩ := Prod.mk.inj (Option.some.inj (given.symm.trans same))
    -- The session that is found is the one that was added.
    have added : session = new := by
      rcases ended with ⟨_, rfl⟩ | ⟨evicted, more, rfl⟩
      · cases succeeded
      · have own : new.net.fd = fd := (newSession_own made).1
        have entry : (⟨new, 0, false⟩ : SessionEntry).session.net.fd = fd := own
        have last := onlineSessionRef_last (own ▸ evictConflicts_fd evicted) entry
          { later with sessions := kept ++ [⟨new, 0, false⟩] } rfl
        exact Option.some.inj (at_.symm.trans last)
    subst added
    have admin := dbAccountCheckUserIsOk_isAdmin checked
    have known := dbAccountCheckUserExist_isSome later.store around.toAmbient uuid
    rw [dbAccountCheckUserExist_ok checked] at known
    obtain ⟨basic, _, _, listed, rfl⟩ := newSession_made made
    have noAdmin : user.isAdmin = false := isChild
    simp only [noAdmin, Bool.false_eq_true, if_false] at listed admin ⊢
    obtain ⟨accounts, children, _⟩ := Option.bind_eq_some_iff.mp listed
    obtain ⟨row, member, ref, uuid⟩ := dbAccountListChildGet_child children
    have given := dbAccountCheckUserExist_ref (dbAccountCheckUserExist_ok checked) noAdmin member uuid
    refine ⟨known.mp rfl, fun listed => admin.mpr listed, row, member, uuid, ?_, ?_⟩
    · rw [← given, ref]
    · rw [ref]

end Login

section Promises
variable {hash : Bytes → Bytes} {around : Surroundings} {server : Server} {fd : Int}
  {req : Option RpcReq} {account : NewAccount} {session : OnlineSession}

end Promises

end Livezure.Service
