import Livezure.Service.Handlers

/-! Which rows a request may touch. -/
namespace Livezure.Service
open Livezure.Core Db Rpc

/-- A row of one of the tables. -/
inductive Row where
  | basic (row : AccountBasic)
  | admin (row : AccountAdmin)
  | child (row : AccountChild)
  | deviceBasic (row : DeviceBasic)
  | accountDevice (row : AccountDevice)

def Has (store : Store) : Row → Prop
  | .basic row => row ∈ store.basic.rows
  | .admin row => row ∈ store.admin.rows
  | .child row => row ∈ store.child.rows
  | .deviceBasic row => row ∈ store.deviceBasic.rows
  | .accountDevice row => row ∈ store.accountDevice.rows

instance (store : Store) : (row : Row) → Decidable (Has store row)
  | .basic row => inferInstanceAs (Decidable (row ∈ store.basic.rows))
  | .admin row => inferInstanceAs (Decidable (row ∈ store.admin.rows))
  | .child row => inferInstanceAs (Decidable (row ∈ store.child.rows))
  | .deviceBasic row => inferInstanceAs (Decidable (row ∈ store.deviceBasic.rows))
  | .accountDevice row => inferInstanceAs (Decidable (row ∈ store.accountDevice.rows))

/-- The tenant of an account: itself if it is an admin, and otherwise its admin. -/
def tenantOf (store : Store) (uuid : Bytes) : Option Bytes :=
  if uuid ∈ store.admin.keys then some uuid
  else (store.child.select fun row => decide (row.uuid = uuid)).head?.map AccountChild.refAdminUuid

def IsTenant (store : Store) (tenant : Bytes) : Prop := ∃ uuid, tenantOf store uuid = some tenant

def Owns (store : Store) (tenant : Bytes) : Row → Prop
  | .basic row => row ∈ store.basic.rows ∧
      (row.uuid = tenant ∨ ∃ child ∈ store.child.rows, child.refAdminUuid = tenant ∧
        child.uuid = row.uuid)
  | .admin row => row ∈ store.admin.rows ∧ row.uuid = tenant
  | .child row => row ∈ store.child.rows ∧ row.refAdminUuid = tenant
  | .deviceBasic row => row ∈ store.deviceBasic.rows ∧
      ∃ device ∈ store.accountDevice.rows, device.refAdminUuid = tenant ∧ device.uuid = row.uuid
  | .accountDevice row => row ∈ store.accountDevice.rows ∧ row.refAdminUuid = tenant

/-- The account's own row in `t_account_basic`. -/
def IsBasicOf (uuid : Bytes) : Row → Prop
  | .basic row => row.uuid = uuid
  | _ => False

/-- The tenant of that session's account. -/
def sessionTenant (server : Server) (fd : Int) : Option Bytes :=
  (sessionAt server fd).bind fun session => tenantOf server.store session.basic.uuid

/-- What a session may make of the tables. -/
inductive Change (hash : Bytes → Bytes) (ambient : Ambient) (before : Store)
    (session : OnlineSession) : Store → Prop where
  | create (account : NewAccount) : session.isAdmin = true →
      Change hash ambient before session
        (dbAccountChildAdd before hash ambient session.basic.uuid account).2
  | modify {account : NewAccount} {r : Bool} {after : Store} :
      dbAccountUpdate before hash ambient session.basic.uuid account = .ok (r, after) →
      Change hash ambient before session after
  | delete (child : AccountChild) : session.basic.uuid ∈ before.admin.keys →
      child ∈ before.child.rows → child.refAdminUuid = session.basic.uuid →
      Change hash ambient before session
        (dbAccountChildDel before session.basic.uuid (some child.uuid)).2
  | deviceCreate (device : Device) : session.basic.uuid ∈ before.admin.keys →
      Change hash ambient before session
        (dbAccountDeviceAdd before ambient session.basic.uuid device).2
  | deviceDelete (uuid : Bytes) : session.basic.uuid ∈ before.admin.keys →
      Change hash ambient before session
        (dbAccountDeviceDel before session.basic.uuid (some uuid)).2

/-- The tables are as before, or as the session of the request has changed them. -/
def Changed (hash : Bytes → Bytes) (ambient : Ambient) (server : Server) (fd : Int)
    (after : Store) : Prop :=
  after = server.store ∨
    ∃ session, sessionAt server fd = some session ∧ Change hash ambient server.store session after

private theorem isAdminAccount_admin {store : Store} {ambient : Ambient} {uuid : Bytes}
    (isAdmin : isAdminAccount store ambient uuid = true) : uuid ∈ store.admin.keys := by
  obtain ⟨user, found, isAdmin⟩ := userExist_of_isAdminAccount isAdmin
  exact (dbAccountCheckUserExist_isAdmin found).mp isAdmin

section Changed
variable {hash : Bytes → Bytes} {around : Surroundings} {server : Server} {fd : Int}
  {req : Option RpcReq} {outcome : Outcome}

private theorem withOnlineSession_changed {body : OnlineSession → Except Fault (Store × Reply)}
    (done : withOnlineSession server fd body = .ok outcome)
    (allowed : ∀ session store reply, body session = .ok (store, reply) →
      store = server.store ∨ Change hash around.toAmbient server.store session store) :
    Changed hash around.toAmbient server fd outcome.server.store := by
  rcases withOnlineSession_cases done with
    ⟨_, rfl⟩ | ⟨index, session, held, store, reply, found, ran, rfl⟩
  · exact .inl rfl
  · refine (allowed session store reply ran).imp_right fun change => ⟨session, ?_, change⟩
    rw [sessionAt, found]
    rfl

private theorem withOnlineSession_store {body : OnlineSession → Except Fault (Store × Reply)}
    (done : withOnlineSession server fd body = .ok outcome)
    (same : ∀ session store reply, body session = .ok (store, reply) → store = server.store) :
    outcome.server.store = server.store := by
  rcases withOnlineSession_cases done with
    ⟨_, rfl⟩ | ⟨index, session, held, store, reply, _, ran, rfl⟩
  · rfl
  · exact same session store reply ran

private theorem reqPlay_store {work : Store → List DeviceEntry → Bytes → List DeviceEntry × Reply}
    (done : reqPlay server fd req work = .ok outcome) : outcome.server.store = server.store := by
  rcases reqPlay_cases done with ⟨_, rfl⟩ | ⟨_, _, rfl⟩ | ⟨_, _, _, _, _, _, _, rfl⟩ <;> rfl

private theorem reqAccountLogin_store (done : reqAccountLogin server fd req hash around = .ok outcome) :
    outcome.server.store = server.store := by
  rcases reqAccountLogin_cases done with rfl | rfl | ⟨_, _, _, _, _, _, _, _, ⟨_, rfl⟩ | ⟨_, _, rfl⟩⟩
  · rfl
  · rfl
  · rfl
  · rfl

private theorem reqAccountCreate_changed (done : reqAccountCreate server fd req hash around = .ok outcome) :
    Changed hash around.toAmbient server fd outcome.server.store := by
  unfold reqAccountCreate at done
  split at done
  · obtain rfl := Except.ok.inj done
    exact .inl rfl
  · rename_i account params
    split at done
    · obtain rfl := Except.ok.inj done
      exact .inl rfl
    · refine withOnlineSession_changed done fun session store reply ran => ?_
      split at ran
      · rename_i isAdmin
        refine .inr ?_
        have change : Change hash around.toAmbient server.store session
            (dbAccountChildAdd server.store hash around.toAmbient session.basic.uuid account).2 :=
          .create account isAdmin
        split at ran
        · rename_i after added
          obtain ⟨rfl, _⟩ := Prod.mk.inj (Except.ok.inj ran)
          rwa [added] at change
        · rename_i after added
          obtain ⟨rfl, _⟩ := Prod.mk.inj (Except.ok.inj ran)
          rwa [added] at change
      · exact .inl (Prod.mk.inj (Except.ok.inj ran)).1.symm

private theorem reqAccountModify_changed (done : reqAccountModify server fd req hash around = .ok outcome) :
    Changed hash around.toAmbient server fd outcome.server.store := by
  unfold reqAccountModify at done
  split at done
  · obtain rfl := Except.ok.inj done
    exact .inl rfl
  · refine withOnlineSession_changed done fun session store reply ran => ?_
    split at ran
    · exact .inl (Prod.mk.inj (Except.ok.inj ran)).1.symm
    · obtain ⟨⟨r, after⟩, updated, same⟩ := bind_ok ran
      obtain ⟨rfl, _⟩ := Prod.mk.inj (Except.ok.inj same)
      exact .inr (.modify updated)

private theorem accountDeleteChild_changed (hash : Bytes → Bytes) (ambient : Ambient) (delUuid : Bytes)
    {store : Store} {session : OnlineSession} (isAdmin : session.basic.uuid ∈ store.admin.keys) :
    (accountDeleteChild store ambient session.basic.uuid delUuid).1 = store ∨
      Change hash ambient store session
        (accountDeleteChild store ambient session.basic.uuid delUuid).1 := by
  unfold accountDeleteChild
  split
  · exact .inl rfl
  · split
    · exact .inl rfl
    · rename_i one
      split
      · exact .inl rfl
      · refine .inr ?_
        -- the child that was counted is one of the session's account
        cases listed : dbAccountListChildGet store session.basic.uuid (some delUuid) with
        | none => exact absurd (by simp [listed]) one
        | some accounts =>
          obtain ⟨child, member, ref, rfl⟩ := dbAccountListChildGet_child listed
          exact .delete child isAdmin member ref

private theorem reqAccountDelete_changed (done : reqAccountDelete server fd req hash around = .ok outcome) :
    Changed hash around.toAmbient server fd outcome.server.store := by
  unfold reqAccountDelete at done
  split at done
  · obtain rfl := Except.ok.inj done
    exact .inl rfl
  · rename_i checkPwd delUuid _
    refine withOnlineSession_changed done fun session store reply ran => ?_
    split at ran
    · exact .inl (Prod.mk.inj (Except.ok.inj ran)).1.symm
    · rename_i user checked
      split at ran
      · rename_i isAdmin
        have known := (dbAccountCheckUserIsOk_isAdmin checked).mp isAdmin
        have changed := accountDeleteChild_changed hash around.toAmbient delUuid known
        rw [Except.ok.inj ran] at changed
        exact changed
      · exact .inl (Prod.mk.inj (Except.ok.inj ran)).1.symm

private theorem reqAccountList_store (done : reqAccountList server fd around = .ok outcome) :
    outcome.server.store = server.store := by
  refine withOnlineSession_store done fun session store reply ran => ?_
  split at ran
  · exact (Prod.mk.inj (Except.ok.inj ran)).1.symm
  · split at ran
    · split at ran <;> exact (Prod.mk.inj (Except.ok.inj ran)).1.symm
    · exact (Prod.mk.inj (Except.ok.inj ran)).1.symm

private theorem deviceCreate_changed (hash : Bytes → Bytes) (ambient : Ambient) (req : Option RpcReq)
    {store : Store} {session : OnlineSession} (isAdmin : session.basic.uuid ∈ store.admin.keys) :
    (deviceCreate req store ambient session.basic.uuid).1 = store ∨
      Change hash ambient store session (deviceCreate req store ambient session.basic.uuid).1 := by
  unfold deviceCreate
  split
  · exact .inl rfl
  · split
    · exact .inl rfl
    · split
      · exact .inl rfl
      · split
        · exact .inl rfl
        · split
          · exact .inl rfl
          · split
            · exact .inl rfl
            · rename_i device _
              exact .inr (.deviceCreate device isAdmin)

private theorem reqDeviceCreate_changed (done : reqDeviceCreate server fd req around = .ok outcome) :
    Changed hash around.toAmbient server fd outcome.server.store := by
  refine withOnlineSession_changed done fun session store reply ran => ?_
  split at ran
  · rename_i isAdmin
    have changed := deviceCreate_changed hash around.toAmbient req (isAdminAccount_admin isAdmin)
    rw [Except.ok.inj ran] at changed
    exact changed
  · exact .inl (Prod.mk.inj (Except.ok.inj ran)).1.symm

private theorem reqDeviceDelete_changed (done : reqDeviceDelete server fd req around = .ok outcome) :
    Changed hash around.toAmbient server fd outcome.server.store := by
  unfold reqDeviceDelete at done
  split at done
  · obtain rfl := Except.ok.inj done
    exact .inl rfl
  · rename_i delUuid _
    refine withOnlineSession_changed done fun session store reply ran => ?_
    split at ran
    · rename_i isAdmin
      unfold deviceDelete at ran
      split at ran
      · obtain ⟨rfl, _⟩ := Prod.mk.inj (Except.ok.inj ran)
        exact .inr (.deviceDelete delUuid (isAdminAccount_admin isAdmin))
      · exact .inl (Prod.mk.inj (Except.ok.inj ran)).1.symm
    · exact .inl (Prod.mk.inj (Except.ok.inj ran)).1.symm

private theorem reqDeviceList_store (done : reqDeviceList server fd around = .ok outcome) :
    outcome.server.store = server.store := by
  refine withOnlineSession_store done fun session store reply ran => ?_
  split at ran
  · exact (Prod.mk.inj (Except.ok.inj ran)).1.symm
  · split at ran <;> exact (Prod.mk.inj (Except.ok.inj ran)).1.symm

private theorem reqHeartbeat_store (done : reqHeartbeat server fd = .ok outcome) :
    outcome.server.store = server.store := by
  unfold reqHeartbeat at done
  split at done <;> (obtain rfl := Except.ok.inj done; rfl)

private theorem reqAccountLogout_store (done : reqAccountLogout server fd = .ok outcome) :
    outcome.server.store = server.store := by
  unfold reqAccountLogout at done
  split at done <;> (obtain rfl := Except.ok.inj done; rfl)

end Changed

/-- What any request does to the tables. -/
theorem Request.changed {hash : Bytes → Bytes} {around : Surroundings} {server : Server}
    {request : Request} {outcome : Outcome}
    (done : request.run hash around server = .ok outcome) :
    Changed hash around.toAmbient server request.fd outcome.server.store := by
  unfold Request.run at done
  cases handler : request.handler <;> rw [handler] at done
  case versionCheck => exact .inl (congrArg Server.store (reqVersionCheck_server done))
  case heartbeat => exact .inl (reqHeartbeat_store done)
  case accountLogin => exact .inl (reqAccountLogin_store done)
  case accountLogout => exact .inl (reqAccountLogout_store done)
  case accountCreate => exact reqAccountCreate_changed done
  case accountModify => exact reqAccountModify_changed done
  case accountDelete => exact reqAccountDelete_changed done
  case accountList => exact .inl (reqAccountList_store done)
  case deviceCreate => exact reqDeviceCreate_changed done
  case deviceDelete => exact reqDeviceDelete_changed done
  case deviceList => exact .inl (reqDeviceList_store done)
  case playDevice => exact .inl (reqPlay_store done)
  case playStop => exact .inl (reqPlay_store done)
  case playTouch => exact .inl (reqPlay_store done)

/-! ### Rows that stay -/

theorem Owns.has {store : Store} {tenant : Bytes} {row : Row} (owned : Owns store tenant row) :
    Has store row := by
  cases row <;> exact owned.1

private theorem insertBasic_has {store : Store} (new : AccountBasic) {row : Row} (has : Has store row) :
    Has (insertBasic store new).2 row := by
  unfold insertBasic
  split
  · exact has
  · rename_i basic inserted
    cases row
    case basic row => exact Table.mem_of_insert inserted has
    all_goals exact has

private theorem insertChild_has {store : Store} (new : AccountChild) {row : Row} (has : Has store row) :
    Has (insertChild store new).2 row := by
  unfold insertChild
  split
  · exact has
  · rename_i child inserted
    cases row
    case child row => exact Table.mem_of_insert inserted has
    all_goals exact has

private theorem dbAccountChildAdd_has {store : Store} (hash : Bytes → Bytes) (ambient : Ambient)
    (refAdminUuid : Bytes) (account : NewAccount) {row : Row} (has : Has store row) :
    Has (dbAccountChildAdd store hash ambient refAdminUuid account).2 row := by
  unfold dbAccountChildAdd
  dsimp only
  split
  · exact has
  · split
    · rename_i after refused
      have kept := insertBasic_has
        ⟨worldTolower (strncpyUuid account.uuid ambient.junk), hash account.pwd, account.nickname,
          account.comment, ambient.now⟩ has
      rwa [refused] at kept
    · rename_i after added
      have kept := insertBasic_has
        ⟨worldTolower (strncpyUuid account.uuid ambient.junk), hash account.pwd, account.nickname,
          account.comment, ambient.now⟩ has
      rw [added] at kept
      exact insertChild_has _ kept

private theorem dbAccountDeviceAdd_has {store : Store} (ambient : Ambient) (refAdminUuid : Bytes)
    (device : Device) {row : Row} (has : Has store row) :
    Has (dbAccountDeviceAdd store ambient refAdminUuid device).2 row := by
  unfold dbAccountDeviceAdd
  split
  · split
    · exact has
    · split
      · exact has
      · rename_i deviceBasic first
        split
        · cases row
          case deviceBasic row => exact Table.mem_of_insert first has
          all_goals exact has
        · rename_i accountDevice second
          cases row
          case deviceBasic row => exact Table.mem_of_insert first has
          case accountDevice row => exact Table.mem_of_insert second has
          all_goals exact has
  · exact has

private theorem dbAccountUpdate_has {store after : Store} {hash : Bytes → Bytes} {ambient : Ambient}
    {uuid : Bytes} {account : NewAccount} {r : Bool}
    (updated : dbAccountUpdate store hash ambient uuid account = .ok (r, after)) {row : Row}
    (foreign : ¬IsBasicOf uuid row) : Has after row ↔ Has store row := by
  rcases dbAccountUpdate_ok updated with rfl | ⟨_, change, keeps, rfl⟩
  · exact Iff.rfl
  · cases row
    case basic row => exact Table.mem_updateKey keeps foreign
    all_goals exact Iff.rfl

/-! ### Tenants -/

theorem tenantOf_admin {store : Store} {uuid : Bytes} (isAdmin : uuid ∈ store.admin.keys) :
    tenantOf store uuid = some uuid := if_pos isAdmin

theorem tenantOf_child {store : Store} {child : AccountChild} (member : child ∈ store.child.rows)
    (noAdmin : child.uuid ∉ store.admin.keys) :
    tenantOf store child.uuid = some child.refAdminUuid := by
  rw [tenantOf, if_neg noAdmin, Table.head_selectKey member]
  rfl

private theorem owns_own {store : Store} {uuid : Bytes} {row : AccountBasic}
    (known : uuid ∈ store.admin.keys ∨ uuid ∈ store.child.keys) (member : row ∈ store.basic.rows)
    (same : row.uuid = uuid) :
    ∃ tenant, tenantOf store uuid = some tenant ∧ Owns store tenant (.basic row) := by
  by_cases isAdmin : uuid ∈ store.admin.keys
  · exact ⟨uuid, tenantOf_admin isAdmin, member, .inl same⟩
  · obtain ⟨child, listed, rfl⟩ := Table.mem_keys.mp (known.resolve_left isAdmin)
    exact ⟨child.refAdminUuid, tenantOf_child listed isAdmin, member,
      .inr ⟨child, listed, rfl, same.symm⟩⟩

section Change
variable {hash : Bytes → Bytes} {ambient : Ambient} {store after : Store} {session : OnlineSession}
  (change : Change hash ambient store session after) {row : Row}
include change

/-- A row that goes or changes is the tenant's. -/
theorem Change.has (has : Has store row)
    (foreign : ∀ tenant, tenantOf store session.basic.uuid = some tenant →
      ¬Owns store tenant row) : Has after row := by
  cases change with
  | create account _ => exact dbAccountChildAdd_has _ _ _ _ has
  | modify updated =>
    by_cases own : IsBasicOf session.basic.uuid row
    · rcases dbAccountUpdate_ok updated with rfl | ⟨known, _⟩
      · exact has
      · cases row with
        | basic row =>
          obtain ⟨tenant, tenantOf, owned⟩ := owns_own known has own
          exact absurd owned (foreign tenant tenantOf)
        | _ => exact own.elim
    · exact (dbAccountUpdate_has updated own).mpr has
  | delete gone isAdmin member ref =>
    have free := foreign _ (tenantOf_admin isAdmin)
    cases row with
    | basic row =>
      refine Table.mem_deleteWhere.mpr ⟨has, decide_eq_false fun same => ?_⟩
      exact free ⟨has, .inr ⟨gone, member, ref, same.symm⟩⟩
    | child row =>
      refine Table.mem_deleteWhere.mpr ⟨has, ?_⟩
      rw [Bool.and_eq_false_iff]
      exact .inl (decide_eq_false fun same => free ⟨has, same⟩)
    | _ => exact has
  | deviceCreate device _ => exact dbAccountDeviceAdd_has _ _ _ has
  | deviceDelete uuid isAdmin =>
    have free := foreign _ (tenantOf_admin isAdmin)
    cases row with
    | deviceBasic row =>
      refine Table.mem_deleteWhere.mpr ⟨has, decide_eq_false fun selected => ?_⟩
      obtain ⟨device, chosen, same⟩ := List.mem_map.mp selected
      obtain ⟨member, owned⟩ := Table.mem_select.mp chosen
      rw [ownsDevice, Bool.and_eq_true, decide_eq_true_iff] at owned
      exact free ⟨has, device, member, owned.1, same⟩
    | accountDevice row =>
      refine Table.mem_deleteWhere.mpr ⟨has, ?_⟩
      rw [ownsDevice, Bool.and_eq_false_iff]
      exact .inl (decide_eq_false fun same => free ⟨has, same⟩)
    | _ => exact has

/-- An account that is not an admin leaves all rows but its own. -/
theorem Change.has_child (noAdmin : session.basic.uuid ∉ store.admin.keys)
    (foreign : ¬IsBasicOf session.basic.uuid row) (has : Has store row) : Has after row := by
  cases change with
  | create account _ => exact dbAccountChildAdd_has _ _ _ _ has
  | modify updated => exact (dbAccountUpdate_has updated foreign).mpr has
  | delete _ isAdmin _ _ => exact absurd isAdmin noAdmin
  | deviceCreate _ isAdmin => exact absurd isAdmin noAdmin
  | deviceDelete _ isAdmin => exact absurd isAdmin noAdmin

theorem Change.added_child (noAdmin : session.basic.uuid ∉ store.admin.keys)
    (foreign : ¬IsBasicOf session.basic.uuid row) (has : Has after row) (unmarked : session.isAdmin = false) :
    Has store row := by
  cases change with
  | create _ marked =>
    rw [unmarked] at marked
    cases marked
  | modify updated => exact (dbAccountUpdate_has updated foreign).mp has
  | delete _ isAdmin _ _ => exact absurd isAdmin noAdmin
  | deviceCreate _ isAdmin => exact absurd isAdmin noAdmin
  | deviceDelete _ isAdmin => exact absurd isAdmin noAdmin

end Change

/-- A request leaves every row that the tenant of its session's account does not own. An
account that is no admin changes no row but its own, and adds rows only in a session that
is marked as an admin's. -/
theorem Request.isolated (hash : Bytes → Bytes) (around : Surroundings) (server : Server)
    (request : Request) (outcome : Outcome) (done : request.run hash around server = .ok outcome) :
    (∀ row, (∀ tenant, sessionTenant server request.fd = some tenant →
        ¬Owns server.store tenant row) →
      Has server.store row → Has outcome.server.store row) ∧
    ∀ session, sessionAt server request.fd = some session →
      session.basic.uuid ∉ server.store.admin.keys → ∀ row, ¬IsBasicOf session.basic.uuid row →
        (Has server.store row → Has outcome.server.store row) ∧
        (session.isAdmin = false → Has outcome.server.store row → Has server.store row) := by
  rcases Request.changed done with same | ⟨session, online, change⟩
  · rw [same]
    exact ⟨fun _ _ has => has, fun _ _ _ _ _ => ⟨fun has => has, fun _ has => has⟩⟩
  · constructor
    · intro row foreign has
      refine change.has has fun tenant belongs => foreign tenant ?_
      rw [sessionTenant, online]
      exact belongs
    · intro own isOwn noAdmin row foreign
      obtain rfl := Option.some.inj (online.symm.trans isOwn)
      exact ⟨change.has_child noAdmin foreign, fun unmarked has =>
        change.added_child noAdmin foreign has unmarked⟩

/-- A row of `t_account_basic` with the password "p". -/
def plainAccount (uuid : Bytes) : AccountBasic := ⟨uuid, [112], [], [], [50]⟩

theorem nestedStore_admin :
    ([⟨[97], 0, [], [], [50]⟩] : List AccountAdmin).map AccountAdmin.uuid |>.Nodup := by
  decide

/-- An admin "a" with a child "b", and a child "c" of that child. -/
def nestedStore : Store where
  basic := ⟨[plainAccount [97], plainAccount [98], plainAccount [99]], by decide⟩
  admin := ⟨[⟨[97], 0, [], [], [50]⟩], nestedStore_admin⟩
  child := ⟨[⟨[98], [97], [50]⟩, ⟨[99], [98], [50]⟩], by decide⟩
  deviceBasic := .empty
  accountDevice := .empty
  order := ⟨[], [], []⟩

/-- A session of an account on descriptor 5. -/
def sessionOf (account : AccountBasic) (refAdminUuid : Bytes) (isAdmin : Bool) : SessionEntry :=
  ⟨⟨account, refAdminUuid, isAdmin, true, ⟨5, [], 0, true⟩⟩, 0, false⟩

def param (key : String) (value : Bytes) : RpcReqEntry := ⟨ascii key, some value, value.length⟩

/-- "a" deletes "b", and the row of "c" stays. -/
theorem Request.isolated_delete :
    let around : Surroundings := ⟨⟨[50], [], []⟩, none⟩
    let delete : Request := ⟨.accountDelete, 5, some [param "del_uuid" [98], param "check_pwd" [112]]⟩
    let server : Server := ⟨nestedStore, [sessionOf (plainAccount [97]) [] true], []⟩
    ∃ outcome, delete.run id around server = .ok outcome ∧
      Has outcome.server.store (.basic (plainAccount [99])) := by
  intro around delete server
  refine ⟨_, rfl, (Request.isolated id around server delete _ rfl).1 _ ?_ (by decide +kernel)⟩
  intro tenant belongs
  have own : sessionTenant server 5 = some [97] := rfl
  obtain rfl : [97] = tenant := Option.some.inj (own.symm.trans belongs)
  simp [server, Owns, nestedStore, plainAccount]

/-- "a" deletes "b", the tenant of "c". And a child of "c" is created in a session of "c" that
is marked as an admin's. -/
theorem Request.nested_not_isolated :
    let around : Surroundings := ⟨⟨[50], [], []⟩, none⟩
    let delete : Request := ⟨.accountDelete, 5, some [param "del_uuid" [98], param "check_pwd" [112]]⟩
    let create : Request := ⟨.accountCreate, 5, some [param "uuid" [100], param "pwd" [112]]⟩
    let server : Server := ⟨nestedStore, [sessionOf (plainAccount [97]) [] true], []⟩
    let stale : Server := ⟨nestedStore, [sessionOf (plainAccount [99]) [98] true], []⟩
    (∃ outcome, delete.run id around server = .ok outcome ∧ IsTenant nestedStore [98] ∧
      sessionTenant server 5 = some [97] ∧ Owns nestedStore [98] (.basic (plainAccount [98])) ∧
      ¬Has outcome.server.store (.basic (plainAccount [98]))) ∧
    ∃ outcome, create.run id around stale = .ok outcome ∧ [99] ∉ nestedStore.admin.keys ∧
      Has outcome.server.store (.child ⟨[100], [99], [50]⟩) ∧
      ¬Has nestedStore (.child ⟨[100], [99], [50]⟩) := by
  intro around delete create server stale
  refine ⟨⟨_, rfl, ⟨[99], ?_⟩, ?_, ⟨?_, .inl rfl⟩, ?_⟩, ⟨_, rfl, ?_, ?_, ?_⟩⟩
  · rfl
  · rfl
  · decide +kernel
  · decide +kernel
  · decide
  · decide +kernel
  · decide +kernel
end Livezure.Service
