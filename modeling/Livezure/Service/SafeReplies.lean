import Livezure.Db.HashKey
import Livezure.Service.AccountCreation

/-! Whether a handler comes to a reply for any request, sessions and tables: without reading through
NULL, without reading what is not initialised, and without waiting for ever. -/
namespace Livezure.Service
open Livezure.Core Db Rpc

/-- What is read of a buffer that only `strncpy(buffer, text, 16)` has written: behind 16 characters
it is not initialised. -/
def readUuid (text : Bytes) : Except Fault Bytes :=
  if text.length < 16 then .ok text else .error .uninitialised

/-- What a caller of `db_account_check_user_exist` reads of the two results. -/
def readUser (user : UserExist) : Except Fault UserExist :=
  if user.isAdmin then .ok user
  else do
    let refAdminUuid ← readUuid user.refAdminUuid
    return { user with refAdminUuid }

/-- The rest of `req_account_login`, for an account that has been checked; the buffer
`ref_admin_uuid` is its own. -/
def loginChecked (server : Server) (fd : Int) (around : Surroundings) (uuid : Bytes) (user : UserExist) :
    Except Fault Outcome := do
  let user ← readUser user
  let session ← newSession server fd around uuid user
  match onlineSessionAdd server.sessions session with
  | (false, sessions) => return ⟨{ server with sessions }, none, none⟩
  | (true, sessions) =>
    return ⟨{ server with sessions },
      some (rid 0 ++ [(ascii "is_admin", decimal (if user.isAdmin then 1 else 0))] ++
        if user.isAdmin then [] else [(ascii "ref_admin_uuid", user.refAdminUuid)]), none⟩

section
-- what a statement reads of `hashpwd` after `account_gen_hash_key`
variable (hash : Bytes → Except Fault Bytes)

def dbAccountCheckUserIsOkRead (store : Store) (ambient : Ambient) (uuid pwd : Bytes) :
    Except Fault (Option UserExist) := do
  let hashpwd ← hash pwd
  return dbAccountCheckUserIsOk store (fun _ => hashpwd) ambient uuid pwd

/-- `db_account_child_add` with its buffers `lower_ref_admin_uuid` and `lower_uuid`. -/
def dbAccountChildAddRead (store : Store) (ambient : Ambient) (refAdminUuid : Bytes)
    (account : NewAccount) : Except Fault (Bool × Store) := do
  let refAdminUuid ← readUuid refAdminUuid
  let lowerRefAdminUuid := worldTolower refAdminUuid
  match dbAccountCheckUserExist store ambient lowerRefAdminUuid with
  | none => return (false, store)
  | some _ =>
    let uuid ← readUuid account.uuid
    let lowerUuid := worldTolower uuid
    let hashpwd ← hash account.pwd
    match insertBasic store
        ⟨lowerUuid, hashpwd, account.nickname, account.comment, ambient.now⟩ with
    | (false, store) => return (false, store)
    | (true, store) => return insertChild store ⟨lowerUuid, lowerRefAdminUuid, ambient.now⟩

/-- `db_account_update` with NULL for `err`, and its buffer `ref_admin_uuid`. -/
def dbAccountUpdateRead (store : Store) (ambient : Ambient) (uuid : Bytes) (account : NewAccount) :
    Except Fault (Bool × Store) :=
  match dbAccountCheckUserExist store ambient uuid with
  | none => .error .nullPointer
  | some user => do
    let user ← readUser user
    let old := if user.isAdmin then dbAccountListAdminGet store (some uuid)
      else dbAccountListChildGet store user.refAdminUuid (some uuid)
    match old with
    | some [_] =>
      let hashpwd ← hash account.pwd
      dbAccountUpdate store (fun _ => hashpwd) ambient uuid account
    | _ => return (false, store)

variable (server : Server) (fd : Int) (req : Option RpcReq) (around : Surroundings)

def reqAccountLoginRead : Except Fault Outcome :=
  match loginParams req with
  | none => answer server (rid (-255))
  | some (uuid, pwd) => do
    let checked ← dbAccountCheckUserIsOkRead hash server.store around.toAmbient uuid pwd
    match checked with
    | none => answer server (rid (-1))
    | some user => loginChecked server fd around uuid user

def reqAccountCreateRead : Except Fault Outcome :=
  match accountCreateParams req with
  | none => answer server (rid (-255))
  | some account =>
    if (dbAccountCheckUserExist server.store around.toAmbient account.uuid).isSome then
      answer server (rid (-2))
    else
      withOnlineSession server fd fun session =>
        if session.isAdmin then do
          let (r, store) ← dbAccountChildAddRead hash server.store around.toAmbient
            session.basic.uuid account
          return (store, rid (if r then 0 else -256))
        else .ok (server.store, rid (-1))

def reqAccountModifyRead : Except Fault Outcome :=
  match accountModifyParams req with
  | none => answer server (rid (-255))
  | some (oldPwd, newPwd) =>
    withOnlineSession server fd fun session => do
      let checked ← dbAccountCheckUserIsOkRead hash server.store around.toAmbient session.basic.uuid
        oldPwd
      match checked with
      | none => .ok (server.store, rid (-1))
      | some _ => do
        let (r, store) ← dbAccountUpdateRead hash server.store around.toAmbient session.basic.uuid
          ⟨session.basic.uuid, newPwd, session.basic.nickname, session.basic.comment⟩
        return (store, rid (if r then 0 else -256))

def reqAccountDeleteRead : Except Fault Outcome :=
  match accountDeleteParams req with
  | none => answer server (rid (-255))
  | some (checkPwd, delUuid) =>
    withOnlineSession server fd fun session => do
      let checked ← dbAccountCheckUserIsOkRead hash server.store around.toAmbient session.basic.uuid
        checkPwd
      match checked with
      | none => .ok (server.store, rid (-2))
      | some user =>
        if user.isAdmin then
          .ok (accountDeleteChild server.store around.toAmbient session.basic.uuid delUuid)
        else .ok (server.store, rid (-1))

end

/-- A request, where what it reads has to be initialised. No other handler reads a buffer that a
call may leave unwritten, or computes a hash. -/
def Request.runRead (digests : Digests) (build : HashBuild) (around : Surroundings) (server : Server)
    (request : Request) : Except Fault Outcome :=
  let hash := readHashpwd digests build
  match request.handler with
  | .versionCheck => reqVersionCheck server request.req
  | .heartbeat => reqHeartbeat server request.fd
  | .accountLogin => reqAccountLoginRead hash server request.fd request.req around
  | .accountLogout => reqAccountLogout server request.fd
  | .accountCreate => reqAccountCreateRead hash server request.fd request.req around
  | .accountModify => reqAccountModifyRead hash server request.fd request.req around
  | .accountDelete => reqAccountDeleteRead hash server request.fd request.req around
  | .accountList => reqAccountList server request.fd around
  | .deviceCreate => reqDeviceCreate server request.fd request.req around
  | .deviceDelete => reqDeviceDelete server request.fd request.req around
  | .deviceList => reqDeviceList server request.fd around
  | .playDevice => reqPlayDevice server request.fd request.req
  | .playStop => reqPlayStop server request.fd request.req
  | .playTouch => reqPlayTouch server request.fd request.req

/-- A handler comes to its end, with a reply that has a result. -/
def RepliesRid (run : Except Fault Outcome) : Prop :=
  ∃ outcome reply result, run = .ok outcome ∧ outcome.reply = some reply ∧ (ascii "rid", result) ∈ reply

/-- Where a login that is let in finds its account's row, and no session it would have to wait for. -/
structure LoginSound (server : Server) (fd : Int) (uuid : Bytes) : Prop where
  /-- The account is an admin, or the child of one whose uuid is shorter than 16. -/
  account : uuid ∉ server.store.admin.keys →
    ∃ row ∈ server.store.child.rows, row.uuid = uuid ∧ row.refAdminUuid.length < 16
  descriptor : ∀ entry ∈ server.sessions, entry.session.net.fd = fd → entry.ref = 0
  admin : uuid ∈ server.store.admin.keys →
    ∀ entry ∈ server.sessions, entry.session.basic.uuid = uuid → entry.ref = 0
  child : uuid ∉ server.store.admin.keys → ∀ row ∈ server.store.child.rows, row.uuid = uuid →
    ∀ entry ∈ server.sessions, entry.session.refAdminUuid = row.refAdminUuid →
      entry.session.basic.uuid = uuid → entry.ref = 0

/-- When a request is safe. A password is compared with what the debug build reads; nothing that
comes to `account_gen_hash_key` is safe in the other one. -/
def Request.Sound (build : HashBuild) (server : Server) (request : Request) : Prop :=
  match request.handler with
  | .versionCheck => parserGet request.req "ver" ≠ none → parserGet request.req "pid" ≠ none
  | .accountLogin => ∀ uuid pwd, loginParams request.req = some (uuid, pwd) → build = .debug ∧
      ((∃ row ∈ server.store.basic.rows, row.uuid = uuid ∧ row.pwd = cstring pwd) →
        LoginSound server request.fd uuid)
  | .accountCreate => ∀ account session, accountCreateParams request.req = some account →
      account.uuid ∉ server.store.basic.keys → sessionAt server request.fd = some session →
      session.isAdmin = true →
      session.basic.uuid.length < 16 ∧
        (worldTolower session.basic.uuid ∈ server.store.basic.keys →
          account.uuid.length < 16 ∧ build = .debug)
  | .accountModify => ∀ oldPwd newPwd, accountModifyParams request.req = some (oldPwd, newPwd) →
      ∀ session, sessionAt server request.fd = some session → build = .debug ∧
      ((∃ row ∈ server.store.basic.rows, row.uuid = session.basic.uuid ∧ row.pwd = cstring oldPwd) →
        session.basic.uuid ∉ server.store.admin.keys → ∀ row ∈ server.store.child.rows,
          row.uuid = session.basic.uuid → row.refAdminUuid.length < 16)
  | .accountDelete => ∀ checkPwd delUuid, accountDeleteParams request.req = some (checkPwd, delUuid) →
      ∀ session, sessionAt server request.fd = some session → build = .debug
  | _ => True

/-! ### The shapes of a safe handler -/

section Shapes
variable {server : Server} {fd : Int} {req : Option RpcReq} {around : Surroundings}

private theorem rid_mem (result : Int) : (ascii "rid", decimal result) ∈ rid result := List.mem_singleton_self _

private theorem answer_replies (server : Server) (result : Int) : RepliesRid (answer server (rid result)) :=
  ⟨_, _, _, rfl, rfl, rid_mem result⟩

private theorem not_replies_error {fault : Fault} : ¬RepliesRid (.error fault) := by
  rintro ⟨_, _, _, impossible, _⟩
  cases impossible

/-- The part of a handler that has a session comes to a reply with a result. -/
def BodyAnswers (body : Except Fault (Store × Reply)) : Prop :=
  ∃ store reply result, body = .ok (store, reply) ∧ (ascii "rid", result) ∈ reply

private theorem not_bodyAnswers_error {fault : Fault} : ¬BodyAnswers (.error fault) := by
  rintro ⟨_, _, _, impossible, _⟩
  cases impossible

private theorem bodyAnswers_rid (store : Store) (result : Int) : BodyAnswers (.ok (store, rid result)) :=
  ⟨_, _, _, rfl, rid_mem result⟩

private theorem bodyAnswers_listed (store : Store) (result : Int) (count more : Reply) :
    BodyAnswers (.ok (store, rid result ++ count ++ more)) :=
  ⟨_, _, _, rfl, List.mem_append_left _ (List.mem_append_left _ (rid_mem result))⟩

private theorem withOnlineSession_replies_iff {body : OnlineSession → Except Fault (Store × Reply)} :
    RepliesRid (withOnlineSession server fd body) ↔
      ∀ session, sessionAt server fd = some session → BodyAnswers (body session) := by
  unfold withOnlineSession sessionAt
  cases found : onlineSessionRef server.sessions fd with
  | none => exact iff_of_true ⟨_, _, _, rfl, rfl, rid_mem _⟩ (fun _ impossible => nomatch impossible)
  | some held =>
    obtain ⟨index, session, sessions⟩ := held
    simp only [Option.map_some, Option.some.injEq, forall_eq']
    constructor
    · rintro ⟨outcome, reply, result, done, replied, member⟩
      obtain ⟨⟨store, own⟩, ran, same⟩ := bind_ok done
      obtain rfl := Except.ok.inj same
      obtain rfl := Option.some.inj replied
      exact ⟨store, own, result, ran, member⟩
    · rintro ⟨store, reply, result, ran, member⟩
      exact ⟨_, reply, result, by rw [ran]; rfl, rfl, member⟩

private theorem withOnlineSession_replies {body : OnlineSession → Except Fault (Store × Reply)}
    (always : ∀ session, BodyAnswers (body session)) : RepliesRid (withOnlineSession server fd body) :=
  withOnlineSession_replies_iff.mpr fun session _ => always session

/-! ### The handlers that always reply -/

theorem reqHeartbeat_replies (server : Server) (fd : Int) : RepliesRid (reqHeartbeat server fd) := by
  unfold reqHeartbeat
  split
  · exact ⟨_, _, _, rfl, rfl, rid_mem _⟩
  · exact ⟨_, _, _, rfl, rfl, rid_mem _⟩

private theorem reqAccountLogout_replies (server : Server) (fd : Int) : RepliesRid (reqAccountLogout server fd) := by
  unfold reqAccountLogout
  split
  · exact ⟨_, _, _, rfl, rfl, rid_mem _⟩
  · exact ⟨_, _, _, rfl, rfl, rid_mem _⟩

private theorem accountDeleteChild_rid (store : Store) (ambient : Ambient) (uuid delUuid : Bytes) :
    ∃ after result, accountDeleteChild store ambient uuid delUuid = (after, rid result) := by
  unfold accountDeleteChild
  split
  · exact ⟨_, _, rfl⟩
  · split
    · exact ⟨_, _, rfl⟩
    · split
      · exact ⟨_, _, rfl⟩
      · exact ⟨_, _, rfl⟩

private theorem reqAccountList_replies : RepliesRid (reqAccountList server fd around) := by
  apply withOnlineSession_replies
  intro session
  split
  · exact bodyAnswers_rid _ _
  · split
    · split
      · exact bodyAnswers_rid _ _
      · exact bodyAnswers_listed _ _ _ _
    · exact bodyAnswers_rid _ _

private theorem deviceCreate_rid (store : Store) (ambient : Ambient) (uuid : Bytes) :
    ∃ after result, deviceCreate req store ambient uuid = (after, rid result) := by
  unfold deviceCreate
  split
  · exact ⟨_, _, rfl⟩
  · split
    · exact ⟨_, _, rfl⟩
    · split
      · exact ⟨_, _, rfl⟩
      · split
        · exact ⟨_, _, rfl⟩
        · split
          · exact ⟨_, _, rfl⟩
          · split
            · exact ⟨_, _, rfl⟩
            · exact ⟨_, _, rfl⟩

private theorem reqDeviceCreate_replies : RepliesRid (reqDeviceCreate server fd req around) := by
  apply withOnlineSession_replies
  intro session
  split
  · obtain ⟨after, result, done⟩ := @deviceCreate_rid req server.store around.toAmbient session.basic.uuid
    rw [done]
    exact bodyAnswers_rid _ _
  · exact bodyAnswers_rid _ _

private theorem reqDeviceDelete_replies : RepliesRid (reqDeviceDelete server fd req around) := by
  unfold reqDeviceDelete
  split
  · exact answer_replies server _
  · apply withOnlineSession_replies
    intro session
    split
    · unfold deviceDelete
      split
      · exact bodyAnswers_rid _ _
      · exact bodyAnswers_rid _ _
    · exact bodyAnswers_rid _ _

private theorem reqDeviceList_replies : RepliesRid (reqDeviceList server fd around) := by
  apply withOnlineSession_replies
  intro session
  split
  · exact bodyAnswers_rid _ _
  · split
    · exact bodyAnswers_listed _ _ _ _
    · exact bodyAnswers_rid _ _

/-- The handlers for playing reply where what they do with the device does. -/
theorem reqPlay_replies {work : Store → List DeviceEntry → Bytes → List DeviceEntry × Reply}
    (replies : ∀ store devices uuid, ∃ result, (ascii "rid", result) ∈ (work store devices uuid).2) :
    RepliesRid (reqPlay server fd req work) := by
  unfold reqPlay
  split
  · exact answer_replies server _
  · rename_i uuid _
    split
    · exact ⟨_, _, _, rfl, rfl, rid_mem _⟩
    · split
      · obtain ⟨result, member⟩ := replies server.store server.devices uuid
        exact ⟨_, _, result, rfl, rfl, member⟩
      · exact ⟨_, _, _, rfl, rfl, rid_mem _⟩

private theorem reqPlayDevice_replies : RepliesRid (reqPlayDevice server fd req) :=
  reqPlay_replies fun _ _ _ => ⟨_, rid_mem _⟩

private theorem reqPlayStop_replies : RepliesRid (reqPlayStop server fd req) :=
  reqPlay_replies fun _ _ _ => ⟨_, rid_mem _⟩

private theorem reqPlayTouch_replies : RepliesRid (reqPlayTouch server fd req) :=
  reqPlay_replies fun _ _ _ => ⟨_, List.mem_append_left _ (rid_mem _)⟩

private theorem reqVersionCheck_replies_iff : RepliesRid (reqVersionCheck server req) ↔
    (parserGet req "ver" ≠ none → parserGet req "pid" ≠ none) := by
  unfold reqVersionCheck
  cases parserGet req "ver" with
  | none => exact iff_of_true (answer_replies server _) fun absent => absurd rfl absent
  | some ver =>
    cases parserGet req "pid" with
    | none => exact iff_of_false not_replies_error fun known => known (Option.some_ne_none ver) rfl
    | some pid =>
      refine iff_of_true ?_ fun _ => Option.some_ne_none pid
      dsimp only
      split
      · exact ⟨_, _, _, rfl, rfl, List.mem_cons_self⟩
      · exact answer_replies server _

end Shapes

/-! ### Buffers that are not initialised -/

section Buffers
variable {store : Store} {hash : Bytes → Bytes} {ambient : Ambient} {uuid : Bytes} {user : UserExist}

theorem readUuid_short {text : Bytes} (short : text.length < 16) : readUuid text = .ok text := if_pos short

theorem readUuid_long {text : Bytes} (long : ¬text.length < 16) : readUuid text = .error .uninitialised :=
  if_neg long

private theorem strncpyUuid_short (text junk : Bytes) : (strncpyUuid text junk).length < 16 ↔ text.length < 16 := by
  unfold strncpyUuid
  split
  · exact Iff.rfl
  · rename_i long
    refine iff_of_false ?_ long
    rw [List.length_append, List.length_take]
    omega

theorem readUser_ok (written : user.isAdmin = false → user.refAdminUuid.length < 16) :
    readUser user = .ok user := by
  unfold readUser
  by_cases isAdmin : user.isAdmin = true
  · exact if_pos isAdmin
  · rw [if_neg isAdmin, readUuid_short (written (Bool.eq_false_iff.mpr isAdmin))]
    rfl

theorem readUser_long (isChild : user.isAdmin = false) (long : ¬user.refAdminUuid.length < 16) :
    readUser user = .error .uninitialised := by
  rw [readUser, if_neg (Bool.eq_false_iff.mp isChild), readUuid_long long]
  rfl

theorem readUser_same {read : UserExist} (isRead : readUser user = .ok read) : read = user := by
  unfold readUser at isRead
  split at isRead
  · exact (Except.ok.inj isRead).symm
  · obtain ⟨text, known, same⟩ := bind_ok isRead
    obtain rfl := Except.ok.inj same
    unfold readUuid at known
    split at known
    · rw [← Except.ok.inj known]
    · cases known

/-- Without a row in `t_account_child` the buffer is left empty. -/
theorem dbAccountCheckUserExist_orphan (found : dbAccountCheckUserExist store ambient uuid = some user)
    (isChild : user.isAdmin = false) (orphan : ∀ row ∈ store.child.rows, row.uuid ≠ uuid) :
    user.refAdminUuid = [] := by
  have nothing : (store.child.select fun row => decide (row.uuid = uuid)) = [] := by
    apply List.filter_eq_nil_iff.mpr
    intro row member
    rw [decide_eq_true_iff]
    exact orphan row member
  unfold dbAccountCheckUserExist at found
  split at found
  · split at found
    · obtain rfl := Option.some.inj found
      rfl
    · rw [nothing] at found
      obtain rfl := Option.some.inj found
      rfl
  · cases found

/-- The buffer of an account without license is terminated where its row says so. -/
theorem refAdminUuid_short (found : dbAccountCheckUserExist store ambient uuid = some user)
    (isChild : user.isAdmin = false) :
    user.refAdminUuid.length < 16 ↔
      ∀ row ∈ store.child.rows, row.uuid = uuid → row.refAdminUuid.length < 16 := by
  by_cases child : ∃ row ∈ store.child.rows, row.uuid = uuid
  · obtain ⟨row, member, same⟩ := child
    rw [dbAccountCheckUserExist_ref found isChild member same, strncpyUuid_short]
    constructor
    · intro short other listed own
      rw [Table.row_unique listed member (own.trans same.symm)]
      exact short
    · intro all
      exact all row member same
  · have orphan : ∀ row ∈ store.child.rows, row.uuid ≠ uuid := fun row member same =>
      child ⟨row, member, same⟩
    rw [dbAccountCheckUserExist_orphan found isChild orphan]
    exact iff_of_true (by decide) fun row member same => absurd same (orphan row member)

private theorem not_returns_error {fault : Fault} : ¬∃ result : α, Except.error fault = .ok result := by
  rintro ⟨_, impossible⟩
  cases impossible

/-- What comes of a checked password, where that is not to be a fault. -/
theorem checkRead_iff {hash : Bytes → Except Fault Bytes} {pwd : Bytes}
    {next : Option UserExist → Except Fault α} {meets : Except Fault α → Prop}
    (strict : ∀ fault, ¬meets (.error fault)) :
    meets (dbAccountCheckUserIsOkRead hash store ambient uuid pwd >>= next) ↔
      ∃ hashpwd, hash pwd = .ok hashpwd ∧
        meets (next (dbAccountCheckUserIsOk store (fun _ => hashpwd) ambient uuid pwd)) := by
  unfold dbAccountCheckUserIsOkRead
  cases hash pwd with
  | error fault =>
    refine iff_of_false (strict fault) ?_
    rintro ⟨_, impossible, _⟩
    cases impossible
  | ok hashpwd =>
    constructor
    · intro met
      exact ⟨hashpwd, rfl, met⟩
    · rintro ⟨_, same, met⟩
      obtain rfl := Except.ok.inj same
      exact met

/-- Adding a child reads its buffers: that of the admin, and if the admin is there its own and that
of the hash. -/
theorem dbAccountChildAddRead_ok {hash : Bytes → Except Fault Bytes} {refAdminUuid : Bytes}
    {account : NewAccount} :
    (∃ result, dbAccountChildAddRead hash store ambient refAdminUuid account = .ok result) ↔
      refAdminUuid.length < 16 ∧ (worldTolower refAdminUuid ∈ store.basic.keys →
        account.uuid.length < 16 ∧ ∃ hashpwd, hash account.pwd = .ok hashpwd) := by
  unfold dbAccountChildAddRead
  by_cases shortRef : refAdminUuid.length < 16
  · rw [readUuid_short shortRef, and_iff_right shortRef]
    simp only [bind, Except.bind]
    have exists_ := dbAccountCheckUserExist_isSome store ambient (worldTolower refAdminUuid)
    cases known : dbAccountCheckUserExist store ambient (worldTolower refAdminUuid) with
    | none =>
      rw [known] at exists_
      exact iff_of_true ⟨_, rfl⟩ fun listed => absurd (exists_.mpr listed) Bool.false_ne_true
    | some user =>
      rw [known] at exists_
      rw [forall_prop_of_true (exists_.mp rfl)]
      by_cases short : account.uuid.length < 16
      · rw [readUuid_short short, and_iff_right short]
        cases hash account.pwd with
        | error fault =>
          exact iff_of_false not_returns_error not_returns_error
        | ok hashpwd =>
          refine iff_of_true ?_ ⟨hashpwd, rfl⟩
          dsimp only
          split
          · exact ⟨_, rfl⟩
          · exact ⟨_, rfl⟩
      · rw [readUuid_long short]
        exact iff_of_false not_returns_error fun both => short both.1
  · rw [readUuid_long shortRef]
    exact iff_of_false not_returns_error fun both => shortRef both.1

/-- An update of an account that is there, where its hash can be read, reads the buffer for its
admin. -/
theorem dbAccountUpdateRead_ok {hash : Bytes → Except Fault Bytes} {account : NewAccount}
    {hashpwd : Bytes} (isRead : hash account.pwd = .ok hashpwd) (listed : uuid ∈ store.basic.keys) :
    (∃ result, dbAccountUpdateRead hash store ambient uuid account = .ok result) ↔
      (uuid ∉ store.admin.keys →
        ∀ row ∈ store.child.rows, row.uuid = uuid → row.refAdminUuid.length < 16) := by
  obtain ⟨user, found⟩ := Option.isSome_iff_exists.mp
    ((dbAccountCheckUserExist_isSome store ambient uuid).mpr listed)
  have admin := dbAccountCheckUserExist_isAdmin found
  have updates : ∃ result, dbAccountUpdate store (fun _ => hashpwd) ambient uuid account = .ok result := by
    rw [dbAccountUpdate, found]
    dsimp only
    split
    · exact ⟨_, rfl⟩
    · exact ⟨_, rfl⟩
  have read : readUser user = .ok user →
      ∃ result, dbAccountUpdateRead hash store ambient uuid account = .ok result := by
    intro isUser
    simp only [dbAccountUpdateRead, found, isUser, isRead, bind, Except.bind]
    split
    · exact updates
    · exact ⟨_, rfl⟩
  by_cases licensed : uuid ∈ store.admin.keys
  · have isAdmin := admin.mpr licensed
    have isUser := readUser_ok fun isChild => absurd isAdmin (Bool.eq_false_iff.mp isChild)
    exact iff_of_true (read isUser) fun unlicensed => absurd licensed unlicensed
  · have isChild : user.isAdmin = false := Bool.eq_false_iff.mpr (mt admin.mp licensed)
    rw [forall_prop_of_true licensed, ← refAdminUuid_short found isChild]
    by_cases short : user.refAdminUuid.length < 16
    · exact iff_of_true (read (readUser_ok fun _ => short)) short
    · rw [dbAccountUpdateRead, found]
      dsimp only
      rw [readUser_long isChild short]
      exact iff_of_false not_returns_error short

end Buffers

/-! ### The handlers that may come to no reply -/

section Login
variable {server : Server} {fd : Int} {req : Option RpcReq} {hash : Bytes → Bytes}
variable {around : Surroundings} {uuid pwd : Bytes} {user : UserExist}

private theorem conflicts_admin {session old : OnlineSession} (isAdmin : session.isAdmin = true) :
    conflicts session old = true ↔
      old.basic.uuid = session.basic.uuid ∨ old.net.fd = session.net.fd := by
  unfold conflicts
  simp only [isAdmin, Bool.true_and, Bool.not_true, Bool.false_and, Bool.false_eq_true, if_false]
  by_cases same : old.basic.uuid = session.basic.uuid
  · rw [if_pos (decide_eq_true same)]
    exact iff_of_true rfl (.inl same)
  · rw [if_neg (mt of_decide_eq_true same), decide_eq_true_iff, or_iff_right same, eq_comm]

/-- No session is held that a new session removes. -/
def Unhindered (sessions : List SessionEntry) (session : OnlineSession) : Prop :=
  ∀ entry ∈ sessions, conflicts session entry.session = true → entry.ref = 0

private theorem unhindered_admin {sessions : List SessionEntry} {session : OnlineSession}
    (isAdmin : session.isAdmin = true) : Unhindered sessions session ↔
      (∀ entry ∈ sessions, entry.session.net.fd = session.net.fd → entry.ref = 0) ∧
      ∀ entry ∈ sessions, entry.session.basic.uuid = session.basic.uuid → entry.ref = 0 := by
  simp only [Unhindered, conflicts_admin isAdmin, or_imp]
  constructor
  · intro free
    exact ⟨fun entry member => (free entry member).2, fun entry member => (free entry member).1⟩
  · rintro ⟨descriptor, account⟩ entry member
    exact ⟨account entry member, descriptor entry member⟩

private theorem unhindered_child {sessions : List SessionEntry} {session : OnlineSession}
    (isChild : session.isAdmin = false) : Unhindered sessions session ↔
      (∀ entry ∈ sessions, entry.session.net.fd = session.net.fd → entry.ref = 0) ∧
      ∀ entry ∈ sessions, entry.session.refAdminUuid = session.refAdminUuid →
        entry.session.basic.uuid = session.basic.uuid → entry.ref = 0 := by
  simp only [Unhindered, conflicts_child isChild, or_imp, and_imp]
  constructor
  · intro free
    exact ⟨fun entry member => (free entry member).2, fun entry member => (free entry member).1⟩
  · rintro ⟨descriptor, account⟩ entry member
    exact ⟨account entry member, descriptor entry member⟩

/-- A login that is let in replies where it gets its session and waits for none. -/
theorem loginChecked_replies : RepliesRid (loginChecked server fd around uuid user) ↔
    readUser user = .ok user ∧ ∃ session, newSession server fd around uuid user = .ok session ∧
      Unhindered server.sessions session := by
  constructor
  · rintro ⟨outcome, reply, result, done, replied, _⟩
    obtain ⟨read, isRead, rest⟩ := bind_ok done
    obtain rfl := readUser_same isRead
    obtain ⟨session, made, added⟩ := bind_ok rest
    refine ⟨isRead, session, made, (evictConflicts_released session server.sessions).mp ?_⟩
    unfold onlineSessionAdd at added
    cases evicted : evictConflicts session server.sessions with
    | mk released kept =>
      rw [evicted] at added
      cases released with
      | false =>
        obtain rfl := Except.ok.inj added
        cases replied
      | true => rfl
  · rintro ⟨isRead, session, made, free⟩
    have released := (evictConflicts_released session server.sessions).mpr free
    simp only [loginChecked, isRead, made, bind, Except.bind, onlineSessionAdd]
    cases evicted : evictConflicts session server.sessions with
    | mk _ kept =>
      rw [evicted] at released
      obtain rfl : _ = true := released
      refine ⟨_, _, _, rfl, rfl, List.mem_append_left _ (List.mem_append_left _ (rid_mem 0))⟩

/-- The login of an admin, whose rows are there, waits for sessions of the same account or on the
same descriptor. -/
theorem loginSound_admin
    (checked : dbAccountCheckUserIsOk server.store hash around.toAmbient uuid pwd = some user)
    (valid : uuid.length ≤ 16) (licensed : uuid ∈ server.store.admin.keys) :
    (readUser user = .ok user ∧ ∃ session, newSession server fd around uuid user = .ok session ∧
      Unhindered server.sessions session) ↔ LoginSound server fd uuid := by
  have isAdmin : user.isAdmin = true := (dbAccountCheckUserIsOk_isAdmin checked).mpr licensed
  have known : uuid ∈ server.store.basic.keys := (dbAccountCheckUserExist_isSome _ around.toAmbient _).mp
    (Option.isSome_iff_exists.mpr ⟨_, dbAccountCheckUserExist_ok checked⟩)
  have isRead : readUser user = .ok user := readUser_ok fun isChild =>
    absurd isAdmin (Bool.eq_false_iff.mp isChild)
  rcases @newSession_cases server fd around uuid user valid with
    ⟨_, unknown⟩ | ⟨session, made, _, kind, _, name, own⟩
  · rw [if_pos isAdmin] at unknown
    exact absurd ⟨known, licensed⟩ unknown
  · have unhindered := @unhindered_admin server.sessions session (kind.trans isAdmin)
    rw [name, own] at unhindered
    constructor
    · rintro ⟨_, other, same, free⟩
      obtain rfl := Except.ok.inj (made.symm.trans same)
      obtain ⟨descriptor, account⟩ := unhindered.mp free
      exact ⟨fun unlicensed => absurd licensed unlicensed, descriptor, fun _ => account,
        fun unlicensed => absurd licensed unlicensed⟩
    · intro sound
      exact ⟨isRead, session, made, unhindered.mpr ⟨sound.descriptor, sound.admin licensed⟩⟩

/-- The login of an account that is no admin needs its row, with an admin's uuid that is
terminated, and waits for its own sessions and those on its descriptor. -/
theorem loginSound_child
    (checked : dbAccountCheckUserIsOk server.store hash around.toAmbient uuid pwd = some user)
    (valid : uuid.length ≤ 16) (unlicensed : uuid ∉ server.store.admin.keys) :
    (readUser user = .ok user ∧ ∃ session, newSession server fd around uuid user = .ok session ∧
      Unhindered server.sessions session) ↔ LoginSound server fd uuid := by
  have found := dbAccountCheckUserExist_ok checked
  have isChild : user.isAdmin = false :=
    Bool.eq_false_iff.mpr (mt (dbAccountCheckUserIsOk_isAdmin checked).mp unlicensed)
  have notAdmin : ¬user.isAdmin = true := Bool.eq_false_iff.mp isChild
  have known : uuid ∈ server.store.basic.keys := (dbAccountCheckUserExist_isSome _ around.toAmbient _).mp
    (Option.isSome_iff_exists.mpr ⟨_, found⟩)
  by_cases short : user.refAdminUuid.length < 16
  · have isRead : readUser user = .ok user := readUser_ok fun _ => short
    rcases @newSession_cases server fd around uuid user valid with
      ⟨⟨fault, failed⟩, unknown⟩ | ⟨session, made, stored, kind, ref, name, own⟩
    · rw [if_neg notAdmin] at unknown
      refine iff_of_false ?_ fun sound => ?_
      · rintro ⟨_, session, made, _⟩
        cases failed.symm.trans made
      · obtain ⟨row, member, same, rowShort⟩ := sound.account unlicensed
        have given := dbAccountCheckUserExist_ref found isChild member same
        rw [strncpyUuid, if_pos rowShort] at given
        exact unknown ⟨known, row, member, given.symm, same⟩
    · rw [if_neg notAdmin] at stored ref
      rw [List.take_of_length_le (by omega)] at ref
      obtain ⟨_, row, member, rowRef, same⟩ := stored
      have unhindered := @unhindered_child server.sessions session (kind.trans isChild)
      rw [name, own, ref, ← rowRef] at unhindered
      constructor
      · rintro ⟨_, other, done, free⟩
        obtain rfl := Except.ok.inj (made.symm.trans done)
        obtain ⟨descriptor, account⟩ := unhindered.mp free
        refine ⟨fun _ => ⟨row, member, same, rowRef ▸ short⟩, descriptor,
          fun licensed => absurd licensed unlicensed, fun _ listed listedMember listedSame => ?_⟩
        rw [Table.row_unique listedMember member (listedSame.trans same.symm)]
        exact account
      · intro sound
        exact ⟨isRead, session, made,
          unhindered.mpr ⟨sound.descriptor, sound.child unlicensed row member same⟩⟩
  · refine iff_of_false ?_ fun sound => ?_
    · rintro ⟨isRead, _⟩
      rw [readUser_long isChild short] at isRead
      cases isRead
    · obtain ⟨row, member, same, rowShort⟩ := sound.account unlicensed
      refine short ((refAdminUuid_short found isChild).mpr fun other listed own => ?_)
      rw [Table.row_unique listed member (own.trans same.symm)]
      exact rowShort

end Login

section Accounts
variable {server : Server} {fd : Int} {req : Option RpcReq} {hash : Bytes → Except Fault Bytes}
variable {around : Surroundings}

/-- A body that replies with the result of a call replies where the call returns. -/
theorem bodyAnswers_call {call : Except Fault (Bool × Store)} :
    BodyAnswers (do
      let (r, store) ← call
      return (store, rid (if r then 0 else -256))) ↔ ∃ result, call = .ok result := by
  constructor
  · rintro ⟨_, _, _, done, _⟩
    obtain ⟨result, called, _⟩ := bind_ok done
    exact ⟨result, called⟩
  · rintro ⟨⟨r, store⟩, rfl⟩
    exact bodyAnswers_rid store _

theorem reqAccountLoginRead_replies_iff : RepliesRid (reqAccountLoginRead hash server fd req around) ↔
    ∀ uuid pwd, loginParams req = some (uuid, pwd) → ∃ hashpwd, hash pwd = .ok hashpwd ∧
      ((∃ row ∈ server.store.basic.rows, row.uuid = uuid ∧ row.pwd = hashpwd) →
        LoginSound server fd uuid) := by
  unfold reqAccountLoginRead
  cases given : loginParams req with
  | none =>
    exact iff_of_true (answer_replies server _) fun _ _ impossible => nomatch impossible
  | some params =>
    obtain ⟨uuid, pwd⟩ := params
    simp only [Option.some.injEq, Prod.mk.injEq, and_imp, forall_apply_eq_imp_iff, forall_eq']
    rw [checkRead_iff fun _ => not_replies_error]
    refine exists_congr fun hashpwd => and_congr_right fun _ => ?_
    have isOk := dbAccountCheckUserIsOk_isSome server.store (fun _ => hashpwd) around.toAmbient uuid pwd
    rw [← isOk]
    cases checked : dbAccountCheckUserIsOk server.store (fun _ => hashpwd) around.toAmbient uuid pwd with
    | none =>
      exact iff_of_true (answer_replies server _) fun impossible => absurd impossible Bool.false_ne_true
    | some user =>
      rw [forall_prop_of_true Option.isSome_some]
      refine loginChecked_replies.trans ?_
      by_cases licensed : uuid ∈ server.store.admin.keys
      · exact loginSound_admin checked (loginParams_length given) licensed
      · exact loginSound_child checked (loginParams_length given) licensed

theorem reqAccountCreateRead_replies_iff : RepliesRid (reqAccountCreateRead hash server fd req around) ↔
    ∀ account session, accountCreateParams req = some account →
      account.uuid ∉ server.store.basic.keys → sessionAt server fd = some session →
      session.isAdmin = true →
      session.basic.uuid.length < 16 ∧ (worldTolower session.basic.uuid ∈ server.store.basic.keys →
        account.uuid.length < 16 ∧ ∃ hashpwd, hash account.pwd = .ok hashpwd) := by
  unfold reqAccountCreateRead
  cases given : accountCreateParams req with
  | none =>
    exact iff_of_true (answer_replies server _) fun _ _ impossible => nomatch impossible
  | some account =>
    have listed := dbAccountCheckUserExist_isSome server.store around.toAmbient account.uuid
    dsimp only
    split
    · rename_i known
      refine iff_of_true (answer_replies server _) fun other _ same unlisted => ?_
      obtain rfl := Option.some.inj same
      exact absurd (listed.mp known) unlisted
    · rename_i unknown
      rw [withOnlineSession_replies_iff]
      constructor
      · intro answers other session same _ found isAdmin
        obtain rfl := Option.some.inj same
        have answered := answers session found
        rw [if_pos isAdmin, bodyAnswers_call] at answered
        exact dbAccountChildAddRead_ok.mp answered
      · intro sound session found
        split
        · rename_i isAdmin
          exact bodyAnswers_call.mpr (dbAccountChildAddRead_ok.mpr
            (sound account session rfl (mt listed.mpr unknown) found isAdmin))
        · exact bodyAnswers_rid _ _

/-- A modification reads the hash of the old password, and the rest where that is right; if one hash
can be read, all can. -/
theorem reqAccountModifyRead_replies_iff
    (uniform : ∀ {pwd hashpwd}, hash pwd = .ok hashpwd → ∀ other, ∃ hashpwd, hash other = .ok hashpwd) :
    RepliesRid (reqAccountModifyRead hash server fd req around) ↔
    ∀ oldPwd newPwd, accountModifyParams req = some (oldPwd, newPwd) → ∀ session,
      sessionAt server fd = some session → ∃ hashpwd, hash oldPwd = .ok hashpwd ∧
      ((∃ row ∈ server.store.basic.rows, row.uuid = session.basic.uuid ∧ row.pwd = hashpwd) →
        session.basic.uuid ∉ server.store.admin.keys → ∀ row ∈ server.store.child.rows,
          row.uuid = session.basic.uuid → row.refAdminUuid.length < 16) := by
  unfold reqAccountModifyRead
  cases given : accountModifyParams req with
  | none =>
    exact iff_of_true (answer_replies server _) fun _ _ impossible => nomatch impossible
  | some params =>
    obtain ⟨oldPwd, newPwd⟩ := params
    simp only [Option.some.injEq, Prod.mk.injEq, and_imp, forall_apply_eq_imp_iff, forall_eq']
    rw [withOnlineSession_replies_iff]
    refine forall_congr' fun session => forall_congr' fun _ => ?_
    rw [checkRead_iff fun _ => not_bodyAnswers_error]
    refine exists_congr fun hashpwd => and_congr_right fun isRead => ?_
    have isOk := dbAccountCheckUserIsOk_isSome server.store (fun _ => hashpwd) around.toAmbient
      session.basic.uuid oldPwd
    cases checked : dbAccountCheckUserIsOk server.store (fun _ => hashpwd) around.toAmbient
        session.basic.uuid oldPwd with
    | none =>
      rw [checked] at isOk
      exact iff_of_true (bodyAnswers_rid _ _) fun row => absurd (isOk.mpr row) Bool.false_ne_true
    | some user =>
      rw [checked] at isOk
      have row := isOk.mp Option.isSome_some
      rw [forall_prop_of_true row]
      obtain ⟨basic, member, own, _⟩ := row
      obtain ⟨_, newRead⟩ := uniform isRead newPwd
      exact bodyAnswers_call.trans (dbAccountUpdateRead_ok newRead (own ▸ Table.key_mem member))

/-- A deletion reads the hash, and nothing else that may be unwritten. -/
theorem reqAccountDeleteRead_replies_iff : RepliesRid (reqAccountDeleteRead hash server fd req around) ↔
    ∀ checkPwd delUuid, accountDeleteParams req = some (checkPwd, delUuid) → ∀ session,
      sessionAt server fd = some session → ∃ hashpwd, hash checkPwd = .ok hashpwd := by
  unfold reqAccountDeleteRead
  cases given : accountDeleteParams req with
  | none =>
    exact iff_of_true (answer_replies server _) fun _ _ impossible => nomatch impossible
  | some params =>
    obtain ⟨checkPwd, delUuid⟩ := params
    simp only [Option.some.injEq, Prod.mk.injEq, and_imp, forall_apply_eq_imp_iff, forall_eq']
    rw [withOnlineSession_replies_iff]
    refine forall_congr' fun session => forall_congr' fun _ => ?_
    rw [checkRead_iff fun _ => not_bodyAnswers_error]
    refine exists_congr fun hashpwd => and_iff_left ?_
    split
    · exact bodyAnswers_rid _ _
    · split
      · obtain ⟨after, result, done⟩ := accountDeleteChild_rid server.store around.toAmbient
          session.basic.uuid delUuid
        rw [done]
        exact bodyAnswers_rid _ _
      · exact bodyAnswers_rid _ _

end Accounts

/-! ### Reading what is initialised -/

section Agreement
variable {server : Server} {fd : Int} {req : Option RpcReq} {read : Bytes → Except Fault Bytes}
variable {hash : Bytes → Bytes} {around : Surroundings} {outcome : Outcome}

/-- What is read of a hash is the hash. -/
def Agree (read : Bytes → Except Fault Bytes) (hash : Bytes → Bytes) : Prop :=
  ∀ pwd hashpwd, read pwd = .ok hashpwd → hashpwd = hash pwd

theorem readUuid_text {text read : Bytes} (isRead : readUuid text = .ok read) (junk : Bytes) :
    read = strncpyUuid text junk := by
  unfold readUuid at isRead
  split at isRead
  · rename_i short
    rw [strncpyUuid, if_pos short, Except.ok.inj isRead]
  · cases isRead

private theorem checkRead_result {store : Store} {ambient : Ambient} {uuid pwd : Bytes}
    {checked : Option UserExist} (agree : Agree read hash)
    (isChecked : dbAccountCheckUserIsOkRead read store ambient uuid pwd = .ok checked) :
    dbAccountCheckUserIsOk store hash ambient uuid pwd = checked := by
  obtain ⟨hashpwd, isRead, done⟩ := bind_ok isChecked
  obtain rfl := agree pwd hashpwd isRead
  exact Except.ok.inj done

theorem dbAccountChildAddRead_result {store : Store} {ambient : Ambient} {refAdminUuid : Bytes}
    {account : NewAccount} {result : Bool × Store} (agree : Agree read hash)
    (added : dbAccountChildAddRead read store ambient refAdminUuid account = .ok result) :
    dbAccountChildAdd store hash ambient refAdminUuid account = result := by
  obtain ⟨_, refRead, rest⟩ := bind_ok added
  obtain rfl := readUuid_text refRead ambient.junkRef
  unfold dbAccountChildAdd
  cases known : dbAccountCheckUserExist store ambient
      (worldTolower (strncpyUuid refAdminUuid ambient.junkRef)) with
  | none =>
    simp only [known] at rest ⊢
    exact Except.ok.inj rest
  | some user =>
    simp only [known] at rest ⊢
    obtain ⟨_, uuidRead, rest⟩ := bind_ok rest
    obtain rfl := readUuid_text uuidRead ambient.junk
    obtain ⟨_, hashRead, inserted⟩ := bind_ok rest
    obtain rfl := agree _ _ hashRead
    cases basic : insertBasic store ⟨worldTolower (strncpyUuid account.uuid ambient.junk),
        hash account.pwd, account.nickname, account.comment, ambient.now⟩ with
    | mk r _ =>
      cases r with
      | false =>
        simp only [basic] at inserted ⊢
        exact Except.ok.inj inserted
      | true =>
        simp only [basic] at inserted ⊢
        exact Except.ok.inj inserted

theorem dbAccountUpdateRead_result {store : Store} {ambient : Ambient} {uuid : Bytes}
    {account : NewAccount} {result : Bool × Store} (agree : Agree read hash)
    (updated : dbAccountUpdateRead read store ambient uuid account = .ok result) :
    dbAccountUpdate store hash ambient uuid account = .ok result := by
  unfold dbAccountUpdateRead at updated
  cases found : dbAccountCheckUserExist store ambient uuid with
  | none =>
    rw [found] at updated
    cases updated
  | some user =>
    rw [found] at updated
    obtain ⟨_, isRead, rest⟩ := bind_ok updated
    obtain rfl := readUser_same isRead
    dsimp only at rest
    split at rest
    · obtain ⟨_, hashRead, done⟩ := bind_ok rest
      obtain rfl := agree _ _ hashRead
      exact done
    · rename_i other
      obtain rfl := Except.ok.inj rest
      rw [dbAccountUpdate, found]
      dsimp only
      split
      · rename_i row one
        exact absurd one (other row)
      · rfl

private theorem withOnlineSession_mono {body other : OnlineSession → Except Fault (Store × Reply)}
    (mono : ∀ session result, body session = .ok result → other session = .ok result)
    (done : withOnlineSession server fd body = .ok outcome) :
    withOnlineSession server fd other = .ok outcome := by
  unfold withOnlineSession at done ⊢
  split at done
  · exact done
  · obtain ⟨result, ran, same⟩ := bind_ok done
    exact bind_ok_iff.mpr ⟨result, mono _ result ran, same⟩

private theorem reqAccountLogin_of_read (agree : Agree read hash)
    (done : reqAccountLoginRead read server fd req around = .ok outcome) :
    reqAccountLogin server fd req hash around = .ok outcome := by
  unfold reqAccountLoginRead at done
  unfold reqAccountLogin
  cases given : loginParams req with
  | none =>
    rw [given] at done
    exact done
  | some params =>
    obtain ⟨uuid, pwd⟩ := params
    simp only [given] at done ⊢
    obtain ⟨checked, isChecked, rest⟩ := bind_ok done
    rw [checkRead_result agree isChecked]
    cases checked with
    | none => exact rest
    | some user =>
      obtain ⟨_, isRead, added⟩ := bind_ok rest
      obtain rfl := readUser_same isRead
      exact added

private theorem reqAccountCreate_of_read (agree : Agree read hash)
    (done : reqAccountCreateRead read server fd req around = .ok outcome) :
    reqAccountCreate server fd req hash around = .ok outcome := by
  unfold reqAccountCreateRead at done
  unfold reqAccountCreate
  cases given : accountCreateParams req with
  | none =>
    rw [given] at done
    exact done
  | some account =>
    simp only [given] at done ⊢
    split at done
    · rename_i known
      rw [if_pos known]
      exact done
    · rename_i unknown
      rw [if_neg unknown]
      refine withOnlineSession_mono (fun session result body => ?_) done
      by_cases isAdmin : session.isAdmin = true
      · rw [if_pos isAdmin] at body ⊢
        obtain ⟨⟨r, store⟩, added, same⟩ := bind_ok body
        rw [dbAccountChildAddRead_result agree added]
        cases r with
        | false => exact same
        | true => exact same
      · rw [if_neg isAdmin] at body ⊢
        exact body

private theorem reqAccountModify_of_read (agree : Agree read hash)
    (done : reqAccountModifyRead read server fd req around = .ok outcome) :
    reqAccountModify server fd req hash around = .ok outcome := by
  unfold reqAccountModifyRead at done
  unfold reqAccountModify
  cases given : accountModifyParams req with
  | none =>
    rw [given] at done
    exact done
  | some params =>
    obtain ⟨oldPwd, newPwd⟩ := params
    simp only [given] at done ⊢
    refine withOnlineSession_mono (fun session result body => ?_) done
    obtain ⟨checked, isChecked, rest⟩ := bind_ok body
    rw [checkRead_result agree isChecked]
    cases checked with
    | none => exact rest
    | some user =>
      obtain ⟨updated, isUpdated, same⟩ := bind_ok rest
      exact bind_ok_iff.mpr ⟨updated, dbAccountUpdateRead_result agree isUpdated, same⟩

private theorem reqAccountDelete_of_read (agree : Agree read hash)
    (done : reqAccountDeleteRead read server fd req around = .ok outcome) :
    reqAccountDelete server fd req hash around = .ok outcome := by
  unfold reqAccountDeleteRead at done
  unfold reqAccountDelete
  cases given : accountDeleteParams req with
  | none =>
    rw [given] at done
    exact done
  | some params =>
    obtain ⟨checkPwd, delUuid⟩ := params
    simp only [given] at done ⊢
    refine withOnlineSession_mono (fun session result body => ?_) done
    obtain ⟨checked, isChecked, rest⟩ := bind_ok body
    rw [checkRead_result agree isChecked]
    cases checked with
    | none => exact rest
    | some user => exact rest

/-- What is read of `hashpwd`, if anything is, is the password. -/
theorem readHashpwd_agree (digests : Digests) (build : HashBuild) :
    Agree (readHashpwd digests build) cstring := by
  intro pwd hashpwd isRead
  have only := (@readHashpwd_iff digests build pwd (hashpwd = ·)).mp ⟨hashpwd, isRead, rfl⟩
  exact only.2

/-- Where nothing is read that is not initialised, a handler does what it does otherwise. -/
theorem Request.run_of_runRead {digests : Digests} {build : HashBuild} {request : Request}
    (done : request.runRead digests build around server = .ok outcome) :
    request.run cstring around server = .ok outcome := by
  have agree := readHashpwd_agree digests build
  obtain ⟨handler, fd, req⟩ := request
  cases handler with
  | accountLogin => exact reqAccountLogin_of_read agree done
  | accountCreate => exact reqAccountCreate_of_read agree done
  | accountModify => exact reqAccountModify_of_read agree done
  | accountDelete => exact reqAccountDelete_of_read agree done
  | _ => exact done

end Agreement

/-! ### Every request -/

theorem Request.replies_iff_sound (digests : Digests) (build : HashBuild) (around : Surroundings)
    (server : Server) (request : Request) :
    RepliesRid (request.runRead digests build around server) ↔ request.Sound build server := by
  obtain ⟨handler, fd, req⟩ := request
  cases handler with
  | versionCheck => exact reqVersionCheck_replies_iff
  | accountLogin =>
    refine reqAccountLoginRead_replies_iff.trans ?_
    simp only [readHashpwd_iff]
    rfl
  | accountCreate =>
    refine reqAccountCreateRead_replies_iff.trans ?_
    simp only [readHashpwd_isOk]
    rfl
  | accountModify =>
    have uniform : ∀ {pwd hashpwd}, readHashpwd digests build pwd = .ok hashpwd →
        ∀ other, ∃ hashpwd, readHashpwd digests build other = .ok hashpwd := fun isRead _ =>
      readHashpwd_isOk.mpr (readHashpwd_isOk.mp ⟨_, isRead⟩)
    refine (reqAccountModifyRead_replies_iff uniform).trans ?_
    simp only [readHashpwd_iff]
    rfl
  | accountDelete =>
    refine reqAccountDeleteRead_replies_iff.trans ?_
    simp only [readHashpwd_isOk]
    rfl
  | heartbeat => exact iff_of_true (reqHeartbeat_replies server fd) trivial
  | accountLogout => exact iff_of_true (reqAccountLogout_replies server fd) trivial
  | accountList => exact iff_of_true reqAccountList_replies trivial
  | deviceCreate => exact iff_of_true reqDeviceCreate_replies trivial
  | deviceDelete => exact iff_of_true reqDeviceDelete_replies trivial
  | deviceList => exact iff_of_true reqDeviceList_replies trivial
  | playDevice => exact iff_of_true reqPlayDevice_replies trivial
  | playStop => exact iff_of_true reqPlayStop_replies trivial
  | playTouch => exact iff_of_true reqPlayTouch_replies trivial

/-- By statements that mean it, a request comes to a reply with a result exactly where it is sound.
What is read of `hashpwd` is the password, if anything is. -/
theorem Request.replies_iff (digests : Digests) (build : HashBuild) (around : Surroundings)
    (server : Server) (request : Request)
    (plain : AllPlain (request.prints cstring around.toAmbient server)) :
    AllDenote (request.prints cstring around.toAmbient server) ∧
      (RepliesRid (request.runRead digests build around server) ↔ request.Sound build server) :=
  ⟨allDenote_iff.mpr plain, request.replies_iff_sound digests build around server⟩

/-- A server with the admin `a` and no session. -/
private def oneAdmin : Server :=
  ⟨(dbAccountAdminAdd .init id ⟨[50], [], []⟩ ⟨ascii "a", ascii "w", [], []⟩).2, [], []⟩

private def adminLogin : Request :=
  ⟨.accountLogin, 5, some [⟨ascii "pid", some (ascii "100"), 3⟩, ⟨ascii "uuid", some (ascii "a"), 1⟩,
    ⟨ascii "pwd", some (ascii "w"), 1⟩]⟩

/-- The login of an admin, in the debug build. -/
theorem Request.replies_adminLogin :
    RepliesRid (adminLogin.runRead plainDigests .debug ⟨⟨[50], [], []⟩, none⟩ oneAdmin) := by
  have isAdmin : ascii "a" ∈ oneAdmin.store.admin.keys := by decide
  refine (Request.replies_iff plainDigests .debug ⟨⟨[50], [], []⟩, none⟩ oneAdmin adminLogin
    (by decide +kernel)).2.mpr fun uuid pwd given => ⟨rfl, fun _ => ?_⟩
  obtain ⟨rfl, rfl⟩ := Prod.mk.inj (Option.some.inj given)
  constructor
  · exact fun other => absurd isAdmin other
  · exact fun _ member => absurd member List.not_mem_nil
  · exact fun _ _ member => absurd member List.not_mem_nil
  · exact fun other => absurd isAdmin other

/-- A version check without `pid`: `atoi` is called with NULL. -/
theorem not_replies_versionCheck : ¬RepliesRid (Request.runRead plainDigests .release
    ⟨⟨[], [], []⟩, none⟩ ⟨Store.init, [], []⟩
    ⟨.versionCheck, 7, some [⟨ascii "ver", some (ascii "1"), 1⟩]⟩) :=
  not_replies_error

end Livezure.Service
