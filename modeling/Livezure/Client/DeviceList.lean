import Livezure.Client.Records

/-! What `mc_device_list` (`media_api_device.c`) makes of the reply of `req_device_list`. -/
namespace Livezure.Client
open Livezure.Core Db Rpc Service

/-! ### The client -/

/-- What `xcalloc` leaves in a device. -/
def zeroDevice : Device := ⟨[], [], [], 0, [], [], 0, [], 0, 0, [], [], [], false, []⟩

/-- The branches of the loop that write to the last device. -/
def mcDeviceField (key : Bytes) (value : Option Bytes) : Option (Device → Except Fault Device) :=
  if key = ascii "plugin_name" then some fun device =>
    return { device with pluginName := ← strncpy value 16 }
  else if key = ascii "ip" then some fun device => return { device with ip := ← strncpy value 16 }
  else if key = ascii "port" then some fun device => return { device with port := ← atoiAt value }
  else if key = ascii "user" then some fun device =>
    return { device with user := ← strncpy value 32 }
  else if key = ascii "pwd" then some fun device => return { device with pwd := ← strncpy value 32 }
  else if key = ascii "channel" then some fun device =>
    return { device with channel := ← atoiAt value }
  else if key = ascii "seg_folder" then some fun device =>
    return { device with segFolder := ← strncpy value 32 }
  else if key = ascii "seg_in_count" then some fun device =>
    return { device with segInCount := ← atoiAt value }
  else if key = ascii "seg_per_sec" then some fun device =>
    return { device with segPerSec := ← atoiAt value }
  else if key = ascii "created_time" then some fun device =>
    return { device with createdTime := ← strncpy value 63 }
  else if key = ascii "nickname" then some fun device =>
    return { device with nickname := ← strncpy value 64 }
  else if key = ascii "comment" then some fun device =>
    return { device with comment := ← strncpy value 256 }
  else if key = ascii "is_top_level" then some fun device => do
    -- `is_top_level, atoi(value)`: a comma for the assignment
    let _ ← atoiAt value
    return device
  else if key = ascii "ref_parent_uuid" then some fun device =>
    return { device with refParentUuid := ← strncpy (some (value.getD [])) 16 }
  else none

/-- What `uuid` starts. -/
def startDevice (value : Option Bytes) : Except Fault Device := do
  let uuid ← strncpy value 38
  return { zeroDevice with uuid }

def mcDeviceLoop (count : Nat) (pairs : RpcReq) : Except Fault (List Device) :=
  recordLoop startDevice mcDeviceField count pairs []

def mcDeviceList (pointerSize : Nat) (req : Option RpcReq) : Except Fault (Listing Device) :=
  mcList pointerSize mcDeviceLoop req

def Listed (pointerSize : Nat) (reply : Reply) (devices : List Device) : Prop :=
  ∃ (req : RpcReq) (listing : Listing Device), parserAddAll reply = .ok req ∧
    mcDeviceList pointerSize (some req) = .ok listing ∧ listing.count = devices.length ∧
    ∀ (index : Nat) (device : Device), devices[index]? = some device →
      listing.records[index]? = some device

/-- What arrives of a device. -/
def arrived (device : Device) : Device where
  uuid := (cstring device.uuid).take 38
  pluginName := (cstring device.pluginName).take 16
  ip := (cstring device.ip).take 16
  port := atoi (cstring device.ip)
  user := (cstring device.user).take 32
  pwd := (cstring device.pwd).take 32
  channel := toInt device.channel
  segFolder := (cstring device.segFolder).take 32
  segInCount := toInt device.segInCount
  segPerSec := toInt device.segPerSec
  createdTime := (cstring device.createdTime).take 63
  nickname := (cstring device.nickname).take 64
  comment := (cstring device.comment).take 256
  isTopLevel := false
  refParentUuid := (cstring device.refParentUuid).take 16

def deviceListReply (devices : List Device) : Reply :=
  rid 0 ++ [(ascii "count", decimal devices.length)] ++ devices.flatMap listedDevice

def storedDevices (store : Store) (uuid : Bytes) : List Device :=
  (dbAccountDeviceGet store uuid none).getD []

section
variable {server : Server} {fd : Int} {index : Nat} {session : OnlineSession}
  {sessions : List SessionEntry}

theorem reqDeviceList_reply (around : Surroundings)
    (online : onlineSessionRef server.sessions fd = some (index, session, sessions))
    (admin : isAdminAccount server.store around.toAmbient session.basic.uuid = true) :
    ∃ outcome, reqDeviceList server fd around = .ok outcome ∧
      outcome.reply = some (deviceListReply (storedDevices server.store session.basic.uuid)) := by
  obtain ⟨user, account, isAdmin⟩ := userExist_of_isAdminAccount admin
  unfold reqDeviceList withOnlineSession
  simp only [online, account, isAdmin, if_true]
  exact ⟨_, rfl, rfl⟩

end

end Livezure.Client
