import Livezure.Rpc.Keypair
import Livezure.Service.Session

/-! The request handlers (`service_req_*.c`), run one at a time. -/
namespace Livezure.Service
open Livezure.Core Db Rpc

structure Server where
  store : Store
  sessions : List SessionEntry
  devices : List DeviceEntry
  deriving DecidableEq

/-- What a request takes from its surroundings; the address is none where
`rpc_util_ip` fails. -/
structure Surroundings extends Ambient where
  peer : Option (Bytes × Int)
  deriving DecidableEq

/-- Keys and values in the order they are appended. -/
abbrev Reply := List (Bytes × Bytes)

/-- What comes of a request. -/
structure Outcome where
  server : Server
  /-- None if the handler waits for ever. -/
  reply : Option Reply
  /-- What `online_session_ref` gave, if the handler came to it. -/
  found : Option (Option OnlineSession)
  deriving DecidableEq

def decimal (value : Int) : Bytes := ascii (toString value)

def rid (result : Int) : Reply := [(ascii "rid", decimal result)]

/-- `atoi`, where it overflows as in glibc. -/
def atoi (text : Bytes) : Int :=
  let text := text.dropWhile fun byte => byte = 32 ∨ 9 ≤ byte ∧ byte ≤ 13
  let negative := text.head? = some 45
  let digits := if negative ∨ text.head? = some 43 then text.tail else text
  let value : Int := (digits.takeWhile fun byte => 48 ≤ byte ∧ byte ≤ 57).foldl
    (fun value byte => value * 10 + (byte.toNat - 48)) 0
  let value := if negative then -value else value
  Int.bmod (max (-2 ^ 63) (min (2 ^ 63 - 1) value)) (2 ^ 32)

/-- `rpc_parser_get` with NULL for the size. -/
def parserGet (req : Option RpcReq) (key : String) : Option Bytes :=
  ((rpcParserGet req (ascii key)).bind RpcReqEntry.value).map cstring

def validPlatform (pid : Int) : Bool := pid ∈ [100, 200, 201, 300, 301]

/-- A text that is valid up to a length. -/
def upTo (size : Nat) (text : Option Bytes) : Option Bytes :=
  text.filter fun text => decide (text.length ≤ size)

def validUuid (uuid : Option Bytes) : Option Bytes := upTo 16 uuid

def validPwd (pwd : Option Bytes) : Option Bytes := upTo 16 pwd

/-- NULL is valid, and stands for the empty text. -/
def validNickname (nickname : Option Bytes) : Option Bytes := upTo 64 (some (nickname.getD []))

def validComment (comment : Option Bytes) : Option Bytes := upTo 256 (some (comment.getD []))

section
variable (server : Server) (fd : Int) (req : Option RpcReq)

/-- The reply of a handler that does not come to `online_session_ref`. -/
def answer (reply : Reply) : Except Fault Outcome := .ok ⟨server, some reply, none⟩

/-- -300, session expired. -/
def sessionExpired : Except Fault Outcome := .ok ⟨server, some (rid (-300)), some none⟩

/-- A handler that gives its reference back on every path and changes nothing
but the tables. -/
def withOnlineSession (body : OnlineSession → Except Fault (Store × Reply)) :
    Except Fault Outcome :=
  match onlineSessionRef server.sessions fd with
  | none => sessionExpired server
  | some (index, session, sessions) => do
    let (store, reply) ← body session
    return ⟨{ server with store, sessions := onlineSessionDref sessions index }, some reply,
      some (some session)⟩

/-- `*b_is_admin` after `db_account_check_user_exist`. -/
def isAdminAccount (store : Store) (ambient : Ambient) (uuid : Bytes) : Bool :=
  (dbAccountCheckUserExist store ambient uuid).any UserExist.isAdmin

theorem userExist_of_isAdminAccount {store : Store} {ambient : Ambient} {uuid : Bytes}
    (isAdmin : isAdminAccount store ambient uuid = true) :
    ∃ user, dbAccountCheckUserExist store ambient uuid = some user ∧ user.isAdmin = true :=
  (Option.any_eq_true _ _).mp isAdmin

/-! ### Platform -/

def reqVersionCheck : Except Fault Outcome :=
  match parserGet req "ver", parserGet req "pid" with
  | none, _ => answer server (rid (-255))
  | some _, none => .error .nullPointer
  | some _, some pid =>
    if validPlatform (atoi pid) then
      answer server [(ascii "rid", ascii "0"), (ascii "new_ver", ascii "1.0.0.0"),
        (ascii "update_log", ascii "no need update current."), (ascii "force_update", ascii "0")]
    else answer server (rid (-255))

def reqHeartbeat : Except Fault Outcome :=
  match onlineSessionRef server.sessions fd with
  | none => sessionExpired server
  | some (index, session, sessions) =>
    .ok ⟨{ server with
      sessions := (onlineSessionDref sessions index).modify index fun entry =>
        { entry with session.net.isHeartbeated := true } }, some (rid 0), some (some session)⟩

/-! ### Accounts -/

/-- `uuid` and `pwd` of a login. -/
def loginParams : Option (Bytes × Bytes) := do
  let pid ← parserGet req "pid"
  guard (validPlatform (atoi pid))
  let uuid ← validUuid (parserGet req "uuid")
  let pwd ← validPwd (parserGet req "pwd")
  return (uuid, pwd)

/-- The session of an account that has been checked. Without `assert` a list
that is not there is read all the same. -/
def newSession (around : Surroundings) (uuid : Bytes) (user : UserExist) :
    Except Fault OnlineSession :=
  let accounts := if user.isAdmin then dbAccountListAdminGet server.store (some uuid)
    else dbAccountListChildGet server.store user.refAdminUuid (some uuid)
  match accounts.bind List.head? with
  | none => .error .nullPointer
  | some basic =>
    let (ip, port) := around.peer.getD ([], 0)
    .ok
      { basic
        refAdminUuid := if user.isAdmin then [] else user.refAdminUuid.take 17
        isAdmin := user.isAdmin
        isOnline := true
        net := ⟨fd, ip.take 16, port, true⟩ }

def reqAccountLogin (hash : Bytes → Bytes) (around : Surroundings) : Except Fault Outcome :=
  match loginParams req with
  | none => answer server (rid (-255))
  | some (uuid, pwd) =>
    match dbAccountCheckUserIsOk server.store hash around.toAmbient uuid pwd with
    | none => answer server (rid (-1))
    | some user => do
      let session ← newSession server fd around uuid user
      match onlineSessionAdd server.sessions session with
      | (false, sessions) => return ⟨{ server with sessions }, none, none⟩
      | (true, sessions) =>
        return ⟨{ server with sessions },
          some (rid 0 ++ [(ascii "is_admin", decimal (if user.isAdmin then 1 else 0))] ++
            if user.isAdmin then [] else [(ascii "ref_admin_uuid", user.refAdminUuid)]), none⟩

def reqAccountLogout : Except Fault Outcome :=
  match onlineSessionRef server.sessions fd with
  | none => sessionExpired server
  | some (index, session, sessions) =>
    .ok ⟨{ server with sessions := (onlineSessionDel fd (onlineSessionDref sessions index)).2 },
      some (rid 0), some (some session)⟩

def accountCreateParams : Option NewAccount := do
  let uuid ← validUuid (parserGet req "uuid")
  let pwd ← validPwd (parserGet req "pwd")
  let nickname ← validNickname (parserGet req "nickname")
  let comment ← validComment (parserGet req "comment")
  return ⟨uuid, pwd, nickname, comment⟩

def reqAccountCreate (hash : Bytes → Bytes) (around : Surroundings) : Except Fault Outcome :=
  match accountCreateParams req with
  | none => answer server (rid (-255))
  | some account =>
    if (dbAccountCheckUserExist server.store around.toAmbient account.uuid).isSome then
      answer server (rid (-2))
    else
      withOnlineSession server fd fun session =>
        if session.isAdmin then
          match dbAccountChildAdd server.store hash around.toAmbient session.basic.uuid account with
          | (false, store) => .ok (store, rid (-256))
          | (true, store) => .ok (store, rid 0)
        else .ok (server.store, rid (-1))

/-- `old_pwd` and `new_pwd`; the nickname and the comment are checked and not used. -/
def accountModifyParams : Option (Bytes × Bytes) := do
  let oldPwd ← validPwd (parserGet req "old_pwd")
  let newPwd ← validPwd (parserGet req "new_pwd")
  let _ ← validNickname (parserGet req "nickname")
  let _ ← validComment (parserGet req "comment")
  return (oldPwd, newPwd)

def reqAccountModify (hash : Bytes → Bytes) (around : Surroundings) : Except Fault Outcome :=
  match accountModifyParams req with
  | none => answer server (rid (-255))
  | some (oldPwd, newPwd) =>
    withOnlineSession server fd fun session =>
      match dbAccountCheckUserIsOk server.store hash around.toAmbient session.basic.uuid oldPwd with
      | none => .ok (server.store, rid (-1))
      | some _ => do
        let (r, store) ← dbAccountUpdate server.store hash around.toAmbient session.basic.uuid
          ⟨session.basic.uuid, newPwd, session.basic.nickname, session.basic.comment⟩
        return (store, rid (if r then 0 else -256))

/-- `check_pwd` and `del_uuid`. -/
def accountDeleteParams : Option (Bytes × Bytes) := do
  let delUuid ← validUuid (parserGet req "del_uuid")
  let checkPwd ← validPwd (parserGet req "check_pwd")
  return (checkPwd, delUuid)

/-- The rest of `req_account_delete`, for an admin. -/
def accountDeleteChild (store : Store) (ambient : Ambient) (uuid delUuid : Bytes) : Store × Reply :=
  -- `stricmp`
  if worldTolower delUuid = worldTolower uuid then (store, rid (-3))
  else if ((dbAccountListChildGet store uuid (some delUuid)).getD []).length ≠ 1 then
    (store, rid (-4))
  else if isAdminAccount store ambient delUuid then (store, rid (-256))
  else
    let (r, store) := dbAccountChildDel store uuid (some delUuid)
    (store, rid (if r then 0 else -256))

def reqAccountDelete (hash : Bytes → Bytes) (around : Surroundings) : Except Fault Outcome :=
  match accountDeleteParams req with
  | none => answer server (rid (-255))
  | some (checkPwd, delUuid) =>
    withOnlineSession server fd fun session =>
      match dbAccountCheckUserIsOk server.store hash around.toAmbient session.basic.uuid checkPwd with
      | none => .ok (server.store, rid (-2))
      | some user =>
        if user.isAdmin then
          .ok (accountDeleteChild server.store around.toAmbient session.basic.uuid delUuid)
        else .ok (server.store, rid (-1))

def OnlineSession.listed (online : OnlineSession) : Reply :=
  [(ascii "uuid", online.basic.uuid), (ascii "nickname", online.basic.nickname),
    (ascii "comment", online.basic.comment), (ascii "created_time", online.basic.createdTime),
    (ascii "is_online", if online.isOnline then ascii "1" else ascii "0"),
    (ascii "ip", if online.net.ip = [] then ascii "0.0.0.0" else online.net.ip),
    (ascii "port", decimal online.net.port)]

def reqAccountList (around : Surroundings) : Except Fault Outcome :=
  withOnlineSession server fd fun session =>
    match dbAccountCheckUserExist server.store around.toAmbient session.basic.uuid with
    | none => .ok (server.store, rid (-256))
    | some user =>
      if user.isAdmin then
        match dbAccountListChildGet server.store session.basic.uuid none with
        | none => .ok (server.store, rid (-256))
        | some accounts => .ok (server.store, rid 0 ++ [(ascii "count", decimal accounts.length)] ++
          accounts.flatMap fun account =>
            ((onlineSessionTryGetChild server.sessions server.store session.basic.uuid
              account.uuid).map OnlineSession.listed).getD [])
      else .ok (server.store, rid (-1))

/-! ### Devices -/

/-- The fields of a device that are read before the first check, over zeroes. -/
def deviceBasicParams : Option Device := do
  let uuid ← parserGet req "uuid"
  let pluginName ← parserGet req "plugin_name"
  let ip ← parserGet req "ip"
  let port ← parserGet req "port"
  let user ← parserGet req "user"
  let pwd ← parserGet req "pwd"
  let channel ← parserGet req "channel"
  return ⟨uuid.take 38, pluginName.take 16, ip.take 16, atoi port, user.take 32, pwd.take 32,
    atoi channel, [], 0, 0, [], [], [], false, []⟩

def deviceSegmentParams (device : Device) : Option Device := do
  let segFolder ← parserGet req "seg_folder"
  let segInCount ← parserGet req "seg_in_count"
  let segPerSec ← parserGet req "seg_per_sec"
  return { device with
    segFolder := segFolder.take 32, segInCount := atoi segInCount, segPerSec := atoi segPerSec }

/-- `ref_parent_uuid` is asked for below the top level only. -/
def deviceTreeParams (device : Device) : Option Device := do
  let nickname := (parserGet req "nickname").getD []
  let comment := (parserGet req "comment").getD []
  let isTopLevel ← parserGet req "is_top_level"
  let refParentUuid ← if atoi isTopLevel ≠ 0 then some [] else parserGet req "ref_parent_uuid"
  return { device with
    nickname := nickname.take 64, comment := comment.take 256,
    isTopLevel := decide (atoi isTopLevel ≠ 0), refParentUuid := refParentUuid.take 16 }

/-- The rest of `req_device_create`, for an admin. -/
def deviceCreate (store : Store) (ambient : Ambient) (uuid : Bytes) : Store × Reply :=
  match deviceBasicParams req with
  | none => (store, rid (-255))
  | some device =>
    if dbAccountDeviceCheckExist store uuid device.ip device.port device.channel then
      (store, rid (-2))
    else if (dbAccountDeviceGet store uuid (some device.uuid)).isSome then (store, rid (-2))
    else
      match deviceSegmentParams req device with
      | none => (store, rid (-255))
      | some device =>
        if dbAccountDeviceWorkpathValid store device.segFolder then (store, rid (-3))
        else
          match deviceTreeParams req device with
          | none => (store, rid (-255))
          | some device =>
            let (r, store) := dbAccountDeviceAdd store ambient uuid device
            (store, rid (if r then 0 else -256))

def reqDeviceCreate (around : Surroundings) : Except Fault Outcome :=
  withOnlineSession server fd fun session =>
    if isAdminAccount server.store around.toAmbient session.basic.uuid then
      .ok (deviceCreate req server.store around.toAmbient session.basic.uuid)
    else .ok (server.store, rid (-1))

/-- The rest of `req_device_delete`, for an admin. -/
def deviceDelete (store : Store) (uuid delUuid : Bytes) : Store × Reply :=
  if (dbAccountDeviceGet store uuid (some delUuid)).isSome then
    let (r, store) := dbAccountDeviceDel store uuid (some delUuid)
    (store, rid (if r then 0 else -256))
  else (store, rid (-2))

def reqDeviceDelete (around : Surroundings) : Except Fault Outcome :=
  match parserGet req "uuid" with
  | none => answer server (rid (-255))
  | some delUuid =>
    withOnlineSession server fd fun session =>
      if isAdminAccount server.store around.toAmbient session.basic.uuid then
        .ok (deviceDelete server.store session.basic.uuid delUuid)
      else .ok (server.store, rid (-1))

/-- The address is sent as the port, too. -/
def listedDevice (device : Device) : Reply :=
  [(ascii "uuid", device.uuid), (ascii "plugin_name", device.pluginName), (ascii "ip", device.ip),
    (ascii "port", device.ip), (ascii "user", device.user), (ascii "pwd", device.pwd),
    (ascii "channel", decimal device.channel), (ascii "seg_folder", device.segFolder),
    (ascii "seg_in_count", decimal device.segInCount),
    (ascii "seg_per_sec", decimal device.segPerSec), (ascii "created_time", device.createdTime),
    (ascii "nickname", device.nickname), (ascii "comment", device.comment),
    (ascii "is_top_level", decimal (if device.isTopLevel then 1 else 0)),
    (ascii "ref_parent_uuid", device.refParentUuid)]

def reqDeviceList (around : Surroundings) : Except Fault Outcome :=
  withOnlineSession server fd fun session =>
    match dbAccountCheckUserExist server.store around.toAmbient session.basic.uuid with
    | none => .ok (server.store, rid (-256))
    | some user =>
      if user.isAdmin then
        let devices := (dbAccountDeviceGet server.store session.basic.uuid none).getD []
        .ok (server.store, rid 0 ++ [(ascii "count", decimal devices.length)] ++
          devices.flatMap listedDevice)
      else .ok (server.store, rid (-1))

/-! ### Playing -/

/-- Whose devices a session plays. -/
def playAdminUuid (session : OnlineSession) : Bytes :=
  if session.isAdmin then session.basic.uuid else session.refAdminUuid

/-- The handlers for playing; none of them gives its reference back. -/
def reqPlay (work : Store → List DeviceEntry → Bytes → List DeviceEntry × Reply) :
    Except Fault Outcome :=
  match parserGet req "uuid" with
  | none => answer server (rid (-255))
  | some uuid =>
    match onlineSessionRef server.sessions fd with
    | none => sessionExpired server
    | some (_, session, sessions) =>
      if (dbAccountDeviceGet server.store (playAdminUuid session) (some uuid)).isSome then
        let (devices, reply) := work server.store server.devices uuid
        .ok ⟨{ server with sessions, devices }, some reply, some (some session)⟩
      else .ok ⟨{ server with sessions }, some (rid (-1)), some (some session)⟩

def reqPlayDevice : Except Fault Outcome :=
  reqPlay server fd req fun _ devices uuid =>
    let (work, devices) := sessionDeviceRefWork uuid devices
    (devices, rid work)

/-- The reply is about `r`, which is 1 here, and not about the references left. -/
def reqPlayStop : Except Fault Outcome :=
  reqPlay server fd req fun _ devices uuid => ((sessionDeviceDref uuid devices).2, rid 0)

def reqPlayTouch : Except Fault Outcome :=
  reqPlay server fd req fun store devices uuid =>
    let work := sessionDeviceTouch store devices uuid
    (devices, rid work ++
      if work > 0 then [(ascii "path", []), (ascii "elapsed", ascii "0")] else [])

end

/-- The registered handlers. -/
inductive Handler where
  | versionCheck
  | heartbeat
  | accountLogin
  | accountLogout
  | accountCreate
  | accountModify
  | accountDelete
  | accountList
  | deviceCreate
  | deviceDelete
  | deviceList
  | playDevice
  | playStop
  | playTouch
  deriving DecidableEq

/-- A request of one connection. -/
structure Request where
  handler : Handler
  fd : Int
  req : Option RpcReq
  deriving DecidableEq

def Request.run (hash : Bytes → Bytes) (around : Surroundings) (server : Server)
    (request : Request) : Except Fault Outcome :=
  match request.handler with
  | .versionCheck => reqVersionCheck server request.req
  | .heartbeat => reqHeartbeat server request.fd
  | .accountLogin => reqAccountLogin server request.fd request.req hash around
  | .accountLogout => reqAccountLogout server request.fd
  | .accountCreate => reqAccountCreate server request.fd request.req hash around
  | .accountModify => reqAccountModify server request.fd request.req hash around
  | .accountDelete => reqAccountDelete server request.fd request.req hash around
  | .accountList => reqAccountList server request.fd around
  | .deviceCreate => reqDeviceCreate server request.fd request.req around
  | .deviceDelete => reqDeviceDelete server request.fd request.req around
  | .deviceList => reqDeviceList server request.fd around
  | .playDevice => reqPlayDevice server request.fd request.req
  | .playStop => reqPlayStop server request.fd request.req
  | .playTouch => reqPlayTouch server request.fd request.req

/-- The session that a request on a descriptor is about. -/
def sessionAt (server : Server) (fd : Int) : Option OnlineSession :=
  (onlineSessionRef server.sessions fd).map fun found => found.2.1

/-! ### The shapes of a handler -/

section
variable {server : Server} {fd : Int} {outcome : Outcome}

theorem withOnlineSession_cases {body : OnlineSession → Except Fault (Store × Reply)}
    (done : withOnlineSession server fd body = .ok outcome) :
    (onlineSessionRef server.sessions fd = none ∧
      outcome = ⟨server, some (rid (-300)), some none⟩) ∨
    ∃ index session held store reply,
      onlineSessionRef server.sessions fd = some (index, session, held) ∧
      body session = .ok (store, reply) ∧
      outcome = ⟨{ server with store }, some reply, some (some session)⟩ := by
  unfold withOnlineSession at done
  split at done
  · rename_i absent
    exact .inl ⟨absent, (Except.ok.inj done).symm⟩
  · rename_i index session held found
    obtain ⟨⟨store, reply⟩, ran, same⟩ := bind_ok done
    obtain rfl := Except.ok.inj same
    refine .inr ⟨index, session, held, store, reply, found, ran, ?_⟩
    rw [onlineSessionDref_ref found]

theorem reqPlay_cases {req : Option RpcReq}
    {work : Store → List DeviceEntry → Bytes → List DeviceEntry × Reply}
    (done : reqPlay server fd req work = .ok outcome) :
    (parserGet req "uuid" = none ∧ outcome = ⟨server, some (rid (-255)), none⟩) ∨
    (parserGet req "uuid" ≠ none ∧ onlineSessionRef server.sessions fd = none ∧
      outcome = ⟨server, some (rid (-300)), some none⟩) ∨
    (parserGet req "uuid" ≠ none ∧ ∃ index session held devices reply,
      onlineSessionRef server.sessions fd = some (index, session, held) ∧
      outcome = ⟨⟨server.store, held, devices⟩, some reply, some (some session)⟩) := by
  unfold reqPlay at done
  split at done
  · rename_i absent
    exact .inl ⟨absent, (Except.ok.inj done).symm⟩
  · rename_i uuid given
    have known : parserGet req "uuid" ≠ none := by
      rw [given]
      exact Option.some_ne_none uuid
    split at done
    · rename_i absent
      exact .inr (.inl ⟨known, absent, (Except.ok.inj done).symm⟩)
    · rename_i index session held found
      dsimp only at done
      split at done
      · exact .inr (.inr ⟨known, index, session, held, _, _, found, (Except.ok.inj done).symm⟩)
      · exact .inr (.inr ⟨known, index, session, held, _, _, found, (Except.ok.inj done).symm⟩)

/-- A login is refused, or makes a session; then it waits for a session in conflict, or adds its own. -/
theorem reqAccountLogin_cases {req : Option RpcReq} {hash : Bytes → Bytes} {around : Surroundings}
    (done : reqAccountLogin server fd req hash around = .ok outcome) :
    outcome = ⟨server, some (rid (-255)), none⟩ ∨ outcome = ⟨server, some (rid (-1)), none⟩ ∨
    ∃ uuid pwd user session kept,
      loginParams req = some (uuid, pwd) ∧
      dbAccountCheckUserIsOk server.store hash around.toAmbient uuid pwd = some user ∧
      newSession server fd around uuid user = .ok session ∧
      (evictConflicts session server.sessions = (false, kept) ∧
        outcome = ⟨{ server with sessions := kept }, none, none⟩ ∨
      evictConflicts session server.sessions = (true, kept) ∧ ∃ more,
        outcome = ⟨{ server with sessions := kept ++ [⟨session, 0, false⟩] },
          some (rid 0 ++ more), none⟩) := by
  unfold reqAccountLogin at done
  split at done
  · exact .inl (Except.ok.inj done).symm
  · rename_i uuid pwd given
    split at done
    · exact .inr (.inl (Except.ok.inj done).symm)
    · rename_i user checked
      obtain ⟨session, made, added⟩ := bind_ok done
      unfold onlineSessionAdd at added
      refine .inr (.inr ⟨uuid, pwd, user, session, (evictConflicts session server.sessions).2, given,
        checked, made, ?_⟩)
      cases evicted : evictConflicts session server.sessions with
      | mk released kept =>
        rw [evicted] at added
        cases released with
        | false => exact .inl ⟨rfl, (Except.ok.inj added).symm⟩
        | true =>
          rw [List.append_assoc] at added
          exact .inr ⟨rfl, _, (Except.ok.inj added).symm⟩

theorem reqVersionCheck_server {req : Option RpcReq} (done : reqVersionCheck server req = .ok outcome) :
    outcome.server = server := by
  unfold reqVersionCheck at done
  split at done
  · obtain rfl := Except.ok.inj done
    rfl
  · cases done
  · split at done <;> (obtain rfl := Except.ok.inj done; rfl)

end

end Livezure.Service
