import Livezure.Db.Printing
import Livezure.Service.Handlers

/-! The statements that each request has printed, with the texts in them. -/
namespace Livezure.Service
open Livezure.Core Db Rpc

section
variable (server : Server) (fd : Int) (req : Option RpcReq) (ambient : Ambient)

/-! ### The handlers -/

def accountLoginPrints (hash : Bytes → Bytes) : List Statement :=
  match loginParams req with
  | none => []
  | some (uuid, pwd) =>
    userIsOkPrints server.store hash true true uuid pwd ++
      match dbAccountCheckUserIsOk server.store hash ambient uuid pwd with
      | none => []
      | some user => [listOnePrint user uuid]

def accountCreatePrints (hash : Bytes → Bytes) : List Statement :=
  match accountCreateParams req with
  | none => []
  | some account =>
    userExistPrints server.store false false account.uuid ++
      if (dbAccountCheckUserExist server.store ambient account.uuid).isSome then []
      else
        match sessionAt server fd with
        | none => []
        | some session =>
          if session.isAdmin then
            childAddPrints server.store ambient hash session.basic.uuid account
          else []

def accountModifyPrints (hash : Bytes → Bytes) : List Statement :=
  match accountModifyParams req with
  | none => []
  | some (oldPwd, newPwd) =>
    match sessionAt server fd with
    | none => []
    | some session =>
      userIsOkPrints server.store hash false false session.basic.uuid oldPwd ++
        match dbAccountCheckUserIsOk server.store hash ambient session.basic.uuid oldPwd with
        | none => []
        | some _ => updatePrints server.store ambient hash session.basic.uuid
            ⟨session.basic.uuid, newPwd, session.basic.nickname, session.basic.comment⟩

/-- The rest of `req_account_delete`, for an admin. -/
def accountDeleteChildPrints (store : Store) (uuid delUuid : Bytes) : List Statement :=
  if worldTolower delUuid = worldTolower uuid then []
  else
    .listChildGetOne uuid delUuid ::
      if ((dbAccountListChildGet store uuid (some delUuid)).getD []).length ≠ 1 then []
      else
        userExistPrints store true false delUuid ++
          if isAdminAccount store ambient delUuid then [] else childDelPrints uuid delUuid

def accountDeletePrints (hash : Bytes → Bytes) : List Statement :=
  match accountDeleteParams req with
  | none => []
  | some (checkPwd, delUuid) =>
    match sessionAt server fd with
    | none => []
    | some session =>
      userIsOkPrints server.store hash true false session.basic.uuid checkPwd ++
        match dbAccountCheckUserIsOk server.store hash ambient session.basic.uuid checkPwd with
        | none => []
        | some user =>
          if user.isAdmin then
            accountDeleteChildPrints ambient server.store session.basic.uuid delUuid
          else []

/-- `online_session_try_get_child`, which asks the tables for a child that is not online. -/
def tryGetChildPrints (sessions : List SessionEntry) (refAdminUuid uuid : Bytes) : List Statement :=
  match sessions.find? fun entry => !entry.session.isAdmin &&
      decide (entry.session.refAdminUuid = refAdminUuid) &&
      decide (entry.session.basic.uuid = uuid) with
  | some _ => []
  | none => [.listChildGetOne refAdminUuid uuid]

def accountListPrints : List Statement :=
  match sessionAt server fd with
  | none => []
  | some session =>
    userExistPrints server.store true false session.basic.uuid ++
      if isAdminAccount server.store ambient session.basic.uuid then
        .listChildGetAll session.basic.uuid ::
          ((dbAccountListChildGet server.store session.basic.uuid none).getD []).flatMap
            fun account => tryGetChildPrints server.sessions session.basic.uuid account.uuid
      else []

/-- The rest of `req_device_create`, for an admin. -/
def deviceCreateRestPrints (store : Store) (uuid : Bytes) : List Statement :=
  match deviceBasicParams req with
  | none => []
  | some device =>
    .deviceCheckExist device.ip device.port device.channel uuid ::
      if dbAccountDeviceCheckExist store uuid device.ip device.port device.channel then []
      else
        .deviceGetOne uuid device.uuid ::
          if (dbAccountDeviceGet store uuid (some device.uuid)).isSome then []
          else
            match deviceSegmentParams req device with
            | none => []
            | some device =>
              .deviceWorkpathValid device.segFolder ::
                if dbAccountDeviceWorkpathValid store device.segFolder then []
                else
                  match deviceTreeParams req device with
                  | none => []
                  | some device => deviceAddPrints store ambient uuid device

def deviceCreatePrints : List Statement :=
  match sessionAt server fd with
  | none => []
  | some session =>
    userExistPrints server.store true false session.basic.uuid ++
      if isAdminAccount server.store ambient session.basic.uuid then
        deviceCreateRestPrints req ambient server.store session.basic.uuid
      else []

/-- The uuid is as the client has sent it. -/
def deviceDeletePrints : List Statement :=
  match parserGet req "uuid" with
  | none => []
  | some delUuid =>
    match sessionAt server fd with
    | none => []
    | some session =>
      userExistPrints server.store true false session.basic.uuid ++
        if isAdminAccount server.store ambient session.basic.uuid then
          .deviceGetOne session.basic.uuid delUuid ::
            if (dbAccountDeviceGet server.store session.basic.uuid (some delUuid)).isSome then
              deviceDelPrints session.basic.uuid delUuid
            else []
        else []

def deviceListPrints : List Statement :=
  match sessionAt server fd with
  | none => []
  | some session =>
    userExistPrints server.store true false session.basic.uuid ++
      if isAdminAccount server.store ambient session.basic.uuid then
        [.deviceGetAll session.basic.uuid]
      else []

/-- What a handler for playing has printed, with `work` for what it does with its device. -/
def playPrints (work : Bytes → List Statement) : List Statement :=
  match parserGet req "uuid" with
  | none => []
  | some uuid =>
    match sessionAt server fd with
    | none => []
    | some session =>
      .deviceGetOne (playAdminUuid session) uuid ::
        if (dbAccountDeviceGet server.store (playAdminUuid session) (some uuid)).isSome then work uuid
        else []

/-- The loop over the admins in `session_device_touch`. -/
def touchAdminsPrints (store : Store) (uuid : Bytes) : List AccountBasic → List Statement
  | [] => []
  | admin :: rest =>
    .deviceGetAll admin.uuid ::
      if (dbAccountDeviceGet store admin.uuid none).any fun devices =>
          devices.head?.any fun device => decide (device.uuid = uuid) then []
      else touchAdminsPrints store uuid rest

def touchPrints (uuid : Bytes) : List Statement :=
  match server.devices.find? fun entry => decide (entry.deviceUuid = uuid) with
  | some _ => []
  | none =>
    .listAdminGetAll ::
      touchAdminsPrints server.store uuid ((dbAccountListAdminGet server.store none).getD [])

end

/-- The statements that a request has printed, in their order. -/
def Request.prints (hash : Bytes → Bytes) (ambient : Ambient) (server : Server) (request : Request) :
    List Statement :=
  match request.handler with
  | .versionCheck | .heartbeat | .accountLogout => []
  | .accountLogin => accountLoginPrints server request.req ambient hash
  | .accountCreate => accountCreatePrints server request.fd request.req ambient hash
  | .accountModify => accountModifyPrints server request.fd request.req ambient hash
  | .accountDelete => accountDeletePrints server request.fd request.req ambient hash
  | .accountList => accountListPrints server request.fd ambient
  | .deviceCreate => deviceCreatePrints server request.fd request.req ambient
  | .deviceDelete => deviceDeletePrints server request.fd request.req ambient
  | .deviceList => deviceListPrints server request.fd ambient
  | .playDevice | .playStop => playPrints server request.fd request.req fun _ => []
  | .playTouch => playPrints server request.fd request.req (touchPrints server)

/-- No text that the request prints into a statement has a quote. -/
def Request.Literal (hash : Bytes → Bytes) (ambient : Ambient) (server : Server)
    (request : Request) : Prop :=
  ∀ statement ∈ request.prints hash ambient server, statement.Literal

instance (hash : Bytes → Bytes) (ambient : Ambient) (server : Server) (request : Request) :
    Decidable (request.Literal hash ambient server) :=
  inferInstanceAs (Decidable (∀ statement ∈ request.prints hash ambient server, _))

end Livezure.Service
