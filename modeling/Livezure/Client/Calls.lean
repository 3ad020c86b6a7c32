import Livezure.Client.TextPairs
import Livezure.Rpc.Request
import Livezure.Service.Handlers

/-! The functions of the client (`media_api_*.c`) that ask the server for one thing: the pairs that
they send, and what they make of the reply. -/
namespace Livezure.Client
open Livezure.Core Db Rpc Service

/-- `mc_status`. -/
inductive McCode where
  | ok
  | serverNotResponse
  | syntaxError
  | internalError
  | noPermission
  | sessionExpired
  | invalidUuidOrPwd
  | oldPwdNotCorrect
  | uuidExist
  | deleteCannotBeOwner
  | uuidNotExist
  | workfolderExist
  deriving DecidableEq

/-- `mc_session_t`, without its timer. -/
structure McIdentity where
  uuid : Bytes
  isAdmin : Bool
  refAdminUuid : Bytes
  deriving DecidableEq

/-- What a function stores through its pointers. -/
inductive McOut where
  | nothing
  | version (newVer updateLogs : Bytes) (forceUpdate : Bool)
  | session (session : McIdentity)
  | uuid (uuid : Bytes)
  | rid (rid : Int)
  /-- `rid`, and the device with `fullpath` and `elapsed`. -/
  | touched (rid : Int) (fullpath : Bytes) (elapsed : Int)
  deriving DecidableEq

structure McAnswer where
  status : McCode
  out : McOut
  deriving DecidableEq

/-- A function up to `rpc_request_new`, and from the reply of `rpc_request_ok` on. -/
structure McFunction where
  /-- The status of a function that asks nothing. -/
  request : Except McCode (RpcKind × List (Bytes × Bytes))
  initial : McOut := .nothing
  answer : Option RpcReq → McAnswer

def switchRid (cases : List (Int × McCode)) (otherwise : McCode) (req : Option RpcReq) : McCode :=
  (cases.lookup (checkRid req "rid")).getD otherwise

def answerRid (cases : List (Int × McCode)) (otherwise : McCode) (req : Option RpcReq) : McAnswer :=
  ⟨switchRid cases otherwise req, .nothing⟩

/-! ### Platform -/

/-- `e_platfrom_id`. -/
inductive Platform where
  | pcWin
  | androidPhone
  | androidPad
  | iosPhone
  | iosPad
  deriving DecidableEq

def Platform.number : Platform → Int
  | .pcWin => 100
  | .androidPhone => 200
  | .androidPad => 201
  | .iosPhone => 300
  | .iosPad => 301

def mcCurrentVersion : Bytes := ascii "1.0.0.0"

def mcCheckVersion (pid : Platform) : McFunction where
  request := .ok (⟨0, 0⟩, [(ascii "pid", decimal pid.number), (ascii "ver", mcCurrentVersion)])
  answer req :=
    match parserGet req "rid", parserGet req "new_ver", parserGet req "update_log",
        parserGet req "force_update" with
    | some _, some newVer, some updateLogs, some forceUpdate =>
      ⟨.ok, .version (newVer.take 63) (updateLogs.take 4095) (decide (atoi forceUpdate ≠ 0))⟩
    | _, _, _, _ => ⟨.internalError, .nothing⟩

def mcHeartbeat : McFunction where
  request := .ok (⟨0, 1⟩, [])
  answer := answerRid [(0, .ok)] .sessionExpired

/-! ### Accounts -/

def mcAccountLogin (uuid pwd : Bytes) (pid : Platform) : McFunction where
  request := .ok (⟨2, 0⟩, [(ascii "uuid", uuid), (ascii "pwd", pwd), (ascii "pid", decimal pid.number)])
  answer req :=
    if checkRid req "rid" = 0 then
      match parserGet req "is_admin" with
      | none => ⟨.internalError, .nothing⟩
      | some isAdmin =>
        if atoi isAdmin ≠ 0 then ⟨.ok, .session ⟨uuid.take 17, true, []⟩⟩
        else
          match parserGet req "ref_admin_uuid" with
          | none => ⟨.internalError, .nothing⟩
          | some refAdminUuid => ⟨.ok, .session ⟨uuid.take 17, false, refAdminUuid.take 17⟩⟩
    else answerRid [(-1, .invalidUuidOrPwd), (-255, .syntaxError), (-300, .sessionExpired)]
      .internalError req

/-- The session is freed before the request. -/
def mcAccountLogout : McFunction where
  request := .ok (⟨2, 1⟩, [])
  answer := answerRid [(0, .ok)] .sessionExpired

def mcAccountCreate (child : NewAccount) : McFunction where
  request :=
    if validUuid (some child.uuid) = none ∨ validPwd (some child.pwd) = none ∨
        validNickname (some child.nickname) = none ∨ validComment (some child.comment) = none then
      .error .syntaxError
    else .ok (⟨2, 2⟩, [(ascii "uuid", child.uuid), (ascii "pwd", child.pwd),
      (ascii "nickname", child.nickname), (ascii "comment", child.comment)])
  answer := answerRid [(0, .ok), (-1, .noPermission), (-2, .uuidExist), (-255, .syntaxError),
    (-300, .sessionExpired)] .internalError

def mcAccountModify (session : McIdentity) (oldPwd : Bytes) (basic : NewAccount) : McFunction where
  request :=
    -- `stricmp`
    if worldTolower session.uuid ≠ worldTolower basic.uuid then .error .syntaxError
    else .ok (⟨2, 3⟩, [(ascii "old_pwd", oldPwd), (ascii "new_pwd", basic.pwd),
      (ascii "nickname", basic.nickname), (ascii "comment", basic.comment)])
  answer := answerRid [(0, .ok), (-1, .oldPwdNotCorrect), (-255, .syntaxError),
    (-300, .sessionExpired)] .internalError

def mcAccountDelete (session : McIdentity) (oldPwd delUuid : Bytes) : McFunction where
  request :=
    if session.isAdmin then
      .ok (⟨2, 4⟩, [(ascii "check_pwd", oldPwd), (ascii "del_uuid", delUuid)])
    else .error .noPermission
  answer := answerRid [(0, .ok), (-1, .noPermission), (-2, .oldPwdNotCorrect),
    (-3, .deleteCannotBeOwner), (-4, .uuidNotExist), (-255, .syntaxError), (-300, .sessionExpired)]
    .internalError

/-! ### Devices -/

def sentIf (key : String) (text : Bytes) : List (Bytes × Bytes) :=
  if text = [] then [] else [(ascii key, text)]

/-- The pairs of `mc_device_add`; `guid` is what `guid_generate` gives. -/
def deviceAddPairs (device : Device) (guid : Bytes) : List (Bytes × Bytes) :=
  [(ascii "uuid", guid), (ascii "plugin_name", device.pluginName), (ascii "ip", device.ip),
      (ascii "port", decimal device.port), (ascii "user", device.user), (ascii "pwd", device.pwd),
      (ascii "channel", decimal device.channel), (ascii "seg_folder", device.segFolder),
      (ascii "seg_in_count", decimal device.segInCount),
      (ascii "seg_per_sec", decimal device.segPerSec)] ++
    sentIf "nickname" device.nickname ++ sentIf "comment" device.comment ++
    [(ascii "is_top_level", if device.isTopLevel then ascii "1" else ascii "0")] ++
    if device.isTopLevel then [] else [(ascii "ref_parent_uuid", device.refParentUuid)]

def mcDeviceAdd (device : Device) (guid : Bytes) : McFunction where
  request :=
    if device.pluginName = [] ∨ device.ip = [] ∨ device.port ≤ 0 ∨ device.user = [] ∨
        device.pwd = [] ∨ device.channel < 0 ∨ device.segFolder = [] ∨ device.segInCount < 0 ∨
        device.segPerSec < 0 then .error .syntaxError
    else if device.isTopLevel = false ∧ device.refParentUuid = [] then .error .syntaxError
    else .ok (⟨3, 0⟩, deviceAddPairs device guid)
  answer req :=
    let status := switchRid [(0, .ok), (-1, .noPermission), (-2, .uuidExist),
      (-3, .workfolderExist), (-300, .sessionExpired)] .internalError req
    ⟨status, if checkRid req "rid" = 0 then .uuid guid else .nothing⟩

def mcDeviceDel (uuid : Bytes) : McFunction where
  request := if uuid = [] then .error .syntaxError else .ok (⟨3, 2⟩, [(ascii "uuid", uuid)])
  answer := answerRid [(0, .ok), (-1, .noPermission), (-2, .uuidNotExist), (-300, .sessionExpired)]
    .internalError

/-! ### Playing -/

/-- A function that asks about a device and gives `rid`. -/
def mcPlay (subCategory : UInt8) (uuid : Bytes) : McFunction where
  request := .ok (⟨5, subCategory⟩, [(ascii "uuid", uuid)])
  initial := .rid (-5)
  answer req := ⟨.ok, .rid (checkRid req "rid")⟩

def mcPlayDevice (uuid : Bytes) : McFunction := mcPlay 0 uuid

def mcPlayStop (uuid : Bytes) : McFunction := mcPlay 1 uuid

def mcPlayTouch (uuid : Bytes) : McFunction where
  request := .ok (⟨5, 2⟩, [(ascii "uuid", uuid)])
  initial := .touched (-5) [] 0
  answer req :=
    let rid := checkRid req "rid"
    if rid > 0 then
      -- the server sends `elapsed`, which starts with `elapse`
      ⟨.ok, .touched rid (((parserGet req "path").getD []).take 259)
        (atoi ((parserGet req "elapse").getD (ascii "0")))⟩
    else ⟨.ok, .touched rid [] 0⟩

/-- A call of one of the functions. -/
inductive McCall where
  | checkVersion (pid : Platform)
  | heartbeat
  | accountLogin (uuid pwd : Bytes) (pid : Platform)
  | accountLogout
  | accountCreate (child : NewAccount)
  | accountModify (session : McIdentity) (oldPwd : Bytes) (basic : NewAccount)
  | accountDelete (session : McIdentity) (oldPwd delUuid : Bytes)
  | deviceAdd (device : Device) (guid : Bytes)
  | deviceDel (uuid : Bytes)
  | playDevice (uuid : Bytes)
  | playStop (uuid : Bytes)
  | playTouch (uuid : Bytes)
  deriving DecidableEq

def McCall.function : McCall → McFunction
  | .checkVersion pid => mcCheckVersion pid
  | .heartbeat => mcHeartbeat
  | .accountLogin uuid pwd pid => mcAccountLogin uuid pwd pid
  | .accountLogout => mcAccountLogout
  | .accountCreate child => mcAccountCreate child
  | .accountModify session oldPwd basic => mcAccountModify session oldPwd basic
  | .accountDelete session oldPwd delUuid => mcAccountDelete session oldPwd delUuid
  | .deviceAdd device guid => mcDeviceAdd device guid
  | .deviceDel uuid => mcDeviceDel uuid
  | .playDevice uuid => mcPlayDevice uuid
  | .playStop uuid => mcPlayStop uuid
  | .playTouch uuid => mcPlayTouch uuid

/-- `register_all_reqeust_handler`. -/
def registered : List (RpcKind × Handler) :=
  [(⟨0, 0⟩, .versionCheck), (⟨0, 1⟩, .heartbeat), (⟨2, 0⟩, .accountLogin), (⟨2, 1⟩, .accountLogout),
    (⟨2, 2⟩, .accountCreate), (⟨2, 3⟩, .accountModify), (⟨2, 4⟩, .accountDelete),
    (⟨2, 5⟩, .accountList), (⟨3, 0⟩, .deviceCreate), (⟨3, 2⟩, .deviceDelete), (⟨3, 3⟩, .deviceList),
    (⟨5, 0⟩, .playDevice), (⟨5, 1⟩, .playStop), (⟨5, 2⟩, .playTouch)]

/-! ### What they look for -/

section Same
variable {left right : Option RpcReq} (same : SameTexts left right)
include same

theorem SameTexts.checkRid : checkRid left "rid" = checkRid right "rid" := by
  rw [Client.checkRid, Client.checkRid, same "rid" (by decide)]

theorem SameTexts.switchRid (cases : List (Int × McCode)) (otherwise : McCode) :
    switchRid cases otherwise left = switchRid cases otherwise right := by
  rw [Client.switchRid, Client.switchRid, same.checkRid]

theorem SameTexts.answerRid (cases : List (Int × McCode)) (otherwise : McCode) :
    answerRid cases otherwise left = answerRid cases otherwise right := by
  rw [Client.answerRid, Client.answerRid, same.switchRid]

/-- The answer of a function is about the texts of the reply. -/
theorem McCall.answer_same (call : McCall) : call.function.answer left = call.function.answer right := by
  cases call with
  | checkVersion pid =>
    simp only [McCall.function, mcCheckVersion, same "rid" (by decide), same "new_ver" (by decide),
      same "update_log" (by decide), same "force_update" (by decide)]
  | heartbeat => exact same.answerRid _ _
  | accountLogin uuid pwd pid =>
    simp only [McCall.function, mcAccountLogin, same.checkRid, same "is_admin" (by decide),
      same "ref_admin_uuid" (by decide), same.answerRid]
  | accountLogout => exact same.answerRid _ _
  | accountCreate child => exact same.answerRid _ _
  | accountModify session oldPwd basic => exact same.answerRid _ _
  | accountDelete session oldPwd delUuid => exact same.answerRid _ _
  | deviceAdd device guid =>
    simp only [McCall.function, mcDeviceAdd, same.checkRid, same.switchRid]
  | deviceDel uuid => exact same.answerRid _ _
  | playDevice uuid => exact congrArg (fun rid => McAnswer.mk .ok (.rid rid)) same.checkRid
  | playStop uuid => exact congrArg (fun rid => McAnswer.mk .ok (.rid rid)) same.checkRid
  | playTouch uuid =>
    simp only [McCall.function, mcPlayTouch, same.checkRid, same "path" (by decide),
      same "elapse" (by decide)]

/-- What a handler does is about the texts of the request. -/
theorem Request.run_same (hash : Bytes → Bytes) (around : Surroundings) (server : Server)
    (handler : Handler) (fd : Int) :
    (Request.mk handler fd left).run hash around server =
      (Request.mk handler fd right).run hash around server := by
  cases handler
  case versionCheck =>
    simp only [Request.run, reqVersionCheck, same "ver" (by decide), same "pid" (by decide)]
  case heartbeat => rfl
  case accountLogin =>
    simp only [Request.run, reqAccountLogin, loginParams, same "pid" (by decide),
      same "uuid" (by decide), same "pwd" (by decide)]
  case accountLogout => rfl
  case accountCreate =>
    simp only [Request.run, reqAccountCreate, accountCreateParams, same "uuid" (by decide),
      same "pwd" (by decide), same "nickname" (by decide), same "comment" (by decide)]
  case accountModify =>
    simp only [Request.run, reqAccountModify, accountModifyParams, same "old_pwd" (by decide),
      same "new_pwd" (by decide), same "nickname" (by decide), same "comment" (by decide)]
  case accountDelete =>
    simp only [Request.run, reqAccountDelete, accountDeleteParams, same "del_uuid" (by decide),
      same "check_pwd" (by decide)]
  case accountList => rfl
  case deviceCreate =>
    simp only [Request.run, reqDeviceCreate, deviceCreate, deviceBasicParams, deviceSegmentParams,
      deviceTreeParams, same "uuid" (by decide), same "plugin_name" (by decide),
      same "ip" (by decide), same "port" (by decide), same "user" (by decide),
      same "pwd" (by decide), same "channel" (by decide), same "seg_folder" (by decide),
      same "seg_in_count" (by decide), same "seg_per_sec" (by decide), same "nickname" (by decide),
      same "comment" (by decide), same "is_top_level" (by decide),
      same "ref_parent_uuid" (by decide)]
  case deviceDelete => simp only [Request.run, reqDeviceDelete, same "uuid" (by decide)]
  case deviceList => rfl
  case playDevice => simp only [Request.run, reqPlayDevice, reqPlay, same "uuid" (by decide)]
  case playStop => simp only [Request.run, reqPlayStop, reqPlay, same "uuid" (by decide)]
  case playTouch => simp only [Request.run, reqPlayTouch, reqPlay, same "uuid" (by decide)]

end Same

/-! ### What they send -/

/-- Keys that are found again. -/
def CleanKeys (keys : List Bytes) : Prop := ∀ key ∈ keys, 0 ∉ key ∧ 58 ∉ key

instance (keys : List Bytes) : Decidable (CleanKeys keys) :=
  inferInstanceAs (Decidable (∀ key ∈ keys, _))

theorem CleanKeys.texts {pairs : List (Bytes × Bytes)} (clean : CleanKeys (pairs.map Prod.fst)) :
    ∀ pair ∈ pairs, TextPair pair := by
  intro pair member
  obtain ⟨key_clean, uncoloned⟩ := clean pair.1 (List.mem_map_of_mem member)
  exact ⟨key_clean, uncoloned⟩

theorem sentIf_clean {key : String} (clean : CleanKeys [ascii key]) (text : Bytes) :
    CleanKeys ((sentIf key text).map Prod.fst) := by
  unfold sentIf
  split
  · exact fun _ member => absurd member List.not_mem_nil
  · exact clean

theorem CleanKeys.append {left right : List (Bytes × Bytes)} (first : CleanKeys (left.map Prod.fst))
    (second : CleanKeys (right.map Prod.fst)) : CleanKeys ((left ++ right).map Prod.fst) := by
  intro key member
  rw [List.map_append, List.mem_append] at member
  exact member.elim (first key) (second key)

theorem deviceAddPairs_clean (device : Device) (guid : Bytes) :
    CleanKeys ((deviceAddPairs device guid).map Prod.fst) := by
  refine .append (.append (.append (.append ?_ ?_) ?_) ?_) ?_
  · change CleanKeys (["uuid", "plugin_name", "ip", "port", "user", "pwd", "channel", "seg_folder",
      "seg_in_count", "seg_per_sec"].map ascii)
    decide
  · exact sentIf_clean (by decide) _
  · exact sentIf_clean (by decide) _
  · change CleanKeys [ascii "is_top_level"]
    decide
  · split
    · exact fun _ member => absurd member List.not_mem_nil
    · change CleanKeys [ascii "ref_parent_uuid"]
      decide

/-- Every key that a function sends is found again. -/
theorem McCall.sends_texts {call : McCall} {kind : RpcKind} {pairs : List (Bytes × Bytes)}
    (sends : call.function.request = .ok (kind, pairs)) : ∀ pair ∈ pairs, TextPair pair := by
  apply CleanKeys.texts
  cases call with
  | checkVersion pid =>
    obtain ⟨rfl, rfl⟩ := Prod.mk.inj (Except.ok.inj sends)
    change CleanKeys (["pid", "ver"].map ascii)
    decide
  | heartbeat =>
    obtain ⟨rfl, rfl⟩ := Prod.mk.inj (Except.ok.inj sends)
    decide
  | accountLogin uuid pwd pid =>
    obtain ⟨rfl, rfl⟩ := Prod.mk.inj (Except.ok.inj sends)
    change CleanKeys (["uuid", "pwd", "pid"].map ascii)
    decide
  | accountLogout =>
    obtain ⟨rfl, rfl⟩ := Prod.mk.inj (Except.ok.inj sends)
    decide
  | accountCreate child =>
    simp only [McCall.function, mcAccountCreate] at sends
    split at sends
    · cases sends
    · obtain ⟨rfl, rfl⟩ := Prod.mk.inj (Except.ok.inj sends)
      change CleanKeys (["uuid", "pwd", "nickname", "comment"].map ascii)
      decide
  | accountModify session oldPwd basic =>
    simp only [McCall.function, mcAccountModify] at sends
    split at sends
    · cases sends
    · obtain ⟨rfl, rfl⟩ := Prod.mk.inj (Except.ok.inj sends)
      change CleanKeys (["old_pwd", "new_pwd", "nickname", "comment"].map ascii)
      decide
  | accountDelete session oldPwd delUuid =>
    simp only [McCall.function, mcAccountDelete] at sends
    split at sends
    · obtain ⟨rfl, rfl⟩ := Prod.mk.inj (Except.ok.inj sends)
      change CleanKeys (["check_pwd", "del_uuid"].map ascii)
      decide
    · cases sends
  | deviceAdd device guid =>
    simp only [McCall.function, mcDeviceAdd] at sends
    split at sends
    · cases sends
    · split at sends
      · cases sends
      · obtain ⟨rfl, rfl⟩ := Prod.mk.inj (Except.ok.inj sends)
        exact deviceAddPairs_clean device guid
  | deviceDel uuid =>
    simp only [McCall.function, mcDeviceDel] at sends
    split at sends
    · cases sends
    · obtain ⟨rfl, rfl⟩ := Prod.mk.inj (Except.ok.inj sends)
      change CleanKeys [ascii "uuid"]
      decide
  | playDevice uuid =>
    obtain ⟨rfl, rfl⟩ := Prod.mk.inj (Except.ok.inj sends)
    change CleanKeys [ascii "uuid"]
    decide
  | playStop uuid =>
    obtain ⟨rfl, rfl⟩ := Prod.mk.inj (Except.ok.inj sends)
    change CleanKeys [ascii "uuid"]
    decide
  | playTouch uuid =>
    obtain ⟨rfl, rfl⟩ := Prod.mk.inj (Except.ok.inj sends)
    change CleanKeys [ascii "uuid"]
    decide

/-! ### What the handlers reply -/

def CleanReply (outcome : Service.Outcome) : Prop :=
  ∀ reply ∈ outcome.reply, CleanKeys (reply.map Prod.fst)

private theorem rid_clean (result : Int) : CleanKeys ((rid result).map Prod.fst) := by
  change CleanKeys [ascii "rid"]
  decide

private theorem answer_clean {server : Server} {reply : Reply} {outcome : Service.Outcome}
    (clean : CleanKeys (reply.map Prod.fst)) (done : answer server reply = .ok outcome) :
    CleanReply outcome := by
  obtain rfl := Except.ok.inj done
  intro other member
  obtain rfl := Option.some.inj member
  exact clean

private theorem withOnlineSession_clean {server : Server} {fd : Int}
    {body : OnlineSession → Except Fault (Store × Reply)} {outcome : Service.Outcome}
    (each : ∀ session store reply, body session = .ok (store, reply) → CleanKeys (reply.map Prod.fst))
    (done : withOnlineSession server fd body = .ok outcome) : CleanReply outcome := by
  rcases withOnlineSession_cases done with ⟨_, rfl⟩ | ⟨_, session, _, store, reply, _, ran, rfl⟩
  · intro other member
    obtain rfl := Option.some.inj member
    exact rid_clean _
  · intro other member
    obtain rfl := Option.some.inj member
    exact each session store reply ran

theorem CleanKeys.flatMap {Item : Type} {items : List Item} {pairsOf : Item → Reply}
    (each : ∀ item ∈ items, CleanKeys ((pairsOf item).map Prod.fst)) :
    CleanKeys ((items.flatMap pairsOf).map Prod.fst) := by
  intro key member
  obtain ⟨pair, inside, rfl⟩ := List.mem_map.mp member
  obtain ⟨item, listed, of_item⟩ := List.mem_flatMap.mp inside
  exact each item listed pair.1 (List.mem_map_of_mem of_item)

private theorem count_clean (number : Int) : CleanKeys ((rid 0 ++ [(ascii "count", decimal number)]).map Prod.fst) := by
  change CleanKeys [ascii "rid", ascii "count"]
  decide

private theorem listed_keys (online : OnlineSession) : CleanKeys (online.listed.map Prod.fst) := by
  change CleanKeys (["uuid", "nickname", "comment", "created_time", "is_online", "ip", "port"].map ascii)
  decide

private theorem listedDevice_keys (device : Device) : CleanKeys ((listedDevice device).map Prod.fst) := by
  change CleanKeys (["uuid", "plugin_name", "ip", "port", "user", "pwd", "channel", "seg_folder",
    "seg_in_count", "seg_per_sec", "created_time", "nickname", "comment", "is_top_level",
    "ref_parent_uuid"].map ascii)
  decide

private theorem reqPlay_clean {server : Server} {fd : Int} {req : Option RpcReq}
    {work : Store → List DeviceEntry → Bytes → List DeviceEntry × Reply} {outcome : Service.Outcome}
    (each : ∀ store devices uuid, CleanKeys ((work store devices uuid).2.map Prod.fst))
    (done : reqPlay server fd req work = .ok outcome) : CleanReply outcome := by
  unfold reqPlay at done
  split at done
  · exact answer_clean (rid_clean _) done
  · split at done
    · obtain rfl := Except.ok.inj done
      intro other member
      obtain rfl := Option.some.inj member
      exact rid_clean _
    · dsimp only at done
      split at done
      · obtain rfl := Except.ok.inj done
        intro other member
        obtain rfl := Option.some.inj member
        exact each _ _ _
      · obtain rfl := Except.ok.inj done
        intro other member
        obtain rfl := Option.some.inj member
        exact rid_clean _

private theorem reqAccountLogin_clean {server : Server} {fd : Int} {req : Option RpcReq} {hash : Bytes → Bytes}
    {around : Surroundings} {outcome : Service.Outcome}
    (done : reqAccountLogin server fd req hash around = .ok outcome) : CleanReply outcome := by
  unfold reqAccountLogin at done
  split at done
  · exact answer_clean (rid_clean _) done
  · split at done
    · exact answer_clean (rid_clean _) done
    · rename_i user _
      obtain ⟨session, _, done⟩ := bind_ok done
      split at done
      · obtain rfl := Except.ok.inj done
        intro other member
        cases member
      · obtain rfl := Except.ok.inj done
        intro other member
        obtain rfl := Option.some.inj member
        refine .append ?_ ?_
        · change CleanKeys [ascii "rid", ascii "is_admin"]
          decide
        · split
          · exact fun _ member => absurd member List.not_mem_nil
          · change CleanKeys [ascii "ref_admin_uuid"]
            decide

private theorem deviceCreate_clean {req : Option RpcReq} {store : Store} {ambient : Ambient} {uuid : Bytes} :
    CleanKeys ((deviceCreate req store ambient uuid).2.map Prod.fst) := by
  unfold deviceCreate
  split
  · exact rid_clean _
  · split
    · exact rid_clean _
    · split
      · exact rid_clean _
      · split
        · exact rid_clean _
        · split
          · exact rid_clean _
          · split
            · exact rid_clean _
            · exact rid_clean _

private theorem accountDeleteChild_clean {store : Store} {ambient : Ambient} {uuid delUuid : Bytes} :
    CleanKeys ((accountDeleteChild store ambient uuid delUuid).2.map Prod.fst) := by
  unfold accountDeleteChild
  split
  · exact rid_clean _
  · split
    · exact rid_clean _
    · split
      · exact rid_clean _
      · exact rid_clean _

private theorem deviceDelete_clean {store : Store} {uuid delUuid : Bytes} :
    CleanKeys ((deviceDelete store uuid delUuid).2.map Prod.fst) := by
  unfold deviceDelete
  split
  · exact rid_clean _
  · exact rid_clean _

private theorem replied_clean {server : Server} {reply : Reply} {session : Option (Option OnlineSession)}
    {outcome : Service.Outcome} (clean : CleanKeys (reply.map Prod.fst))
    (done : (.ok ⟨server, some reply, session⟩ : Except Fault Service.Outcome) = .ok outcome) :
    CleanReply outcome := by
  obtain rfl := Except.ok.inj done
  intro other member
  obtain rfl := Option.some.inj member
  exact clean

private theorem body_clean {store after : Store} {reply sent : Reply} (clean : CleanKeys (sent.map Prod.fst))
    (ran : (.ok (store, sent) : Except Fault (Store × Reply)) = .ok (after, reply)) :
    CleanKeys (reply.map Prod.fst) := by
  obtain ⟨_, rfl⟩ := Prod.mk.inj (Except.ok.inj ran)
  exact clean

/-- Every key that a handler sends is found again. -/
theorem Request.run_clean {hash : Bytes → Bytes} {around : Surroundings} {server : Server}
    {request : Request} {outcome : Service.Outcome} (done : request.run hash around server = .ok outcome) :
    CleanReply outcome := by
  obtain ⟨handler, fd, req⟩ := request
  cases handler
  case versionCheck =>
    simp only [Request.run, reqVersionCheck] at done
    split at done
    · exact answer_clean (rid_clean _) done
    · cases done
    · split at done
      · refine answer_clean ?_ done
        change CleanKeys (["rid", "new_ver", "update_log", "force_update"].map ascii)
        decide
      · exact answer_clean (rid_clean _) done
  case heartbeat =>
    simp only [Request.run, reqHeartbeat] at done
    split at done
    · exact replied_clean (rid_clean _) done
    · exact replied_clean (rid_clean _) done
  case accountLogin => exact reqAccountLogin_clean done
  case accountLogout =>
    simp only [Request.run, reqAccountLogout] at done
    split at done
    · exact replied_clean (rid_clean _) done
    · exact replied_clean (rid_clean _) done
  case accountCreate =>
    simp only [Request.run, reqAccountCreate] at done
    split at done
    · exact answer_clean (rid_clean _) done
    · split at done
      · exact answer_clean (rid_clean _) done
      · apply withOnlineSession_clean _ done
        intro session store reply ran
        split at ran
        · split at ran
          · exact body_clean (rid_clean _) ran
          · exact body_clean (rid_clean _) ran
        · exact body_clean (rid_clean _) ran
  case accountModify =>
    simp only [Request.run, reqAccountModify] at done
    split at done
    · exact answer_clean (rid_clean _) done
    · apply withOnlineSession_clean _ done
      intro session store reply ran
      split at ran
      · exact body_clean (rid_clean _) ran
      · obtain ⟨updated, _, ran⟩ := bind_ok ran
        exact body_clean (rid_clean _) ran
  case accountDelete =>
    simp only [Request.run, reqAccountDelete] at done
    split at done
    · exact answer_clean (rid_clean _) done
    · apply withOnlineSession_clean _ done
      intro session store reply ran
      split at ran
      · exact body_clean (rid_clean _) ran
      · split at ran
        · exact body_clean accountDeleteChild_clean ran
        · exact body_clean (rid_clean _) ran
  case accountList =>
    simp only [Request.run, reqAccountList] at done
    apply withOnlineSession_clean _ done
    intro session store reply ran
    split at ran
    · exact body_clean (rid_clean _) ran
    · split at ran
      · split at ran
        · exact body_clean (rid_clean _) ran
        · refine body_clean (.append (count_clean _) (.flatMap fun account _ => ?_)) ran
          cases onlineSessionTryGetChild server.sessions server.store session.basic.uuid account.uuid with
          | none => exact fun _ member => absurd member List.not_mem_nil
          | some online => exact listed_keys online
      · exact body_clean (rid_clean _) ran
  case deviceCreate =>
    simp only [Request.run, reqDeviceCreate] at done
    apply withOnlineSession_clean _ done
    intro session store reply ran
    split at ran
    · exact body_clean deviceCreate_clean ran
    · exact body_clean (rid_clean _) ran
  case deviceDelete =>
    simp only [Request.run, reqDeviceDelete] at done
    split at done
    · exact answer_clean (rid_clean _) done
    · apply withOnlineSession_clean _ done
      intro session store reply ran
      split at ran
      · exact body_clean deviceDelete_clean ran
      · exact body_clean (rid_clean _) ran
  case deviceList =>
    simp only [Request.run, reqDeviceList] at done
    apply withOnlineSession_clean _ done
    intro session store reply ran
    split at ran
    · exact body_clean (rid_clean _) ran
    · split at ran
      · exact body_clean (.append (count_clean _) (.flatMap fun device _ => listedDevice_keys device)) ran
      · exact body_clean (rid_clean _) ran
  case playDevice =>
    simp only [Request.run, reqPlayDevice] at done
    exact reqPlay_clean (fun _ _ _ => rid_clean _) done
  case playStop =>
    simp only [Request.run, reqPlayStop] at done
    exact reqPlay_clean (fun _ _ _ => rid_clean _) done
  case playTouch =>
    simp only [Request.run, reqPlayTouch] at done
    apply reqPlay_clean _ done
    intro store devices uuid
    refine .append (rid_clean _) ?_
    split
    · change CleanKeys [ascii "path", ascii "elapsed"]
      decide
    · exact fun _ member => absurd member List.not_mem_nil

end Livezure.Client
