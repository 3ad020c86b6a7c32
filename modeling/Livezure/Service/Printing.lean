import Livezure.Db.Devices
import Livezure.Db.HashKey
import Livezure.Service.Connections
import Livezure.Service.DeviceCreation
import Livezure.Service.Prints
import Livezure.Service.SessionLookup

/-! Which of the statements that a request has printed the handlers' checks keep within `sqlbuf`. -/
namespace Livezure.Service
open Livezure.Core Db Rpc

/-! ### Texts that no check cuts -/

/-- What a client can log in with. -/
def UserRow (hash : Bytes → Bytes) (store : Store) (uuid pwd : Bytes) : Prop :=
  ∃ row ∈ store.basic.rows, row.uuid = uuid ∧ row.pwd = hash pwd

/-- The texts that no check has cut are short: above all a device's uuid as a client sends it,
together with the uuid of the admin. -/
def Request.ShortTexts (hash : Bytes → Bytes) (ambient : Ambient) (server : Server)
    (request : Request) : Prop :=
  match request.handler with
  | .deviceDelete => ∀ uuid ∈ parserGet request.req "uuid", ∀ session ∈ sessionAt server request.fd,
      server.store.IsAdmin session.basic.uuid → session.basic.uuid.length + uuid.length ≤ 490
  | .playDevice | .playStop | .playTouch => ∀ uuid ∈ parserGet request.req "uuid",
      ∀ session ∈ sessionAt server request.fd, (playAdminUuid session).length + uuid.length ≤ 490
  | .accountLogin => ∀ login ∈ loginParams request.req,
      UserRow hash server.store login.1 login.2 → RefShort server.store ambient login.1
  | .accountModify => ∀ pwds ∈ accountModifyParams request.req,
      ∀ session ∈ sessionAt server request.fd, UserRow hash server.store session.basic.uuid pwds.1 →
        RefShort server.store ambient session.basic.uuid
  | .accountCreate => ∀ account ∈ accountCreateParams request.req,
      account.uuid ∉ server.store.basic.keys → ∀ session ∈ sessionAt server request.fd,
        session.isAdmin = true →
          CopiesShort hash server.store ambient session.basic.uuid account
  | _ => True

/-! ### What sessions hold -/

/-- The members of a session are cut to their sizes. -/
structure OnlineSession.Cut (session : OnlineSession) : Prop where
  uuid : session.basic.uuid.length ≤ 16
  nickname : session.basic.nickname.length ≤ 64
  comment : session.basic.comment.length ≤ 256
  refAdminUuid : session.refAdminUuid.length ≤ 17

def SessionsCut (sessions : List SessionEntry) : Prop := ∀ entry ∈ sessions, entry.session.Cut

private theorem fetchAll_cut {rows accounts : List AccountBasic} (fetched : fetchAll rows = some accounts) :
    ∀ account ∈ accounts, account.uuid.length ≤ 16 ∧ account.nickname.length ≤ 64 ∧
      account.comment.length ≤ 256 := by
  unfold fetchAll at fetched
  split at fetched
  · cases fetched
  · obtain rfl := Option.some.inj fetched
    intro account member
    obtain ⟨row, _, rfl⟩ := List.mem_map.mp member
    exact ⟨List.length_take_le .., List.length_take_le .., List.length_take_le ..⟩

private theorem newSession_cut {server : Server} {fd : Int} {around : Surroundings} {uuid : Bytes}
    {user : UserExist} {session : OnlineSession}
    (made : newSession server fd around uuid user = .ok session) : session.Cut := by
  obtain ⟨basic, _, _, found, rfl⟩ := newSession_made made
  obtain ⟨accounts, listed, head⟩ := Option.bind_eq_some_iff.mp found
  obtain ⟨rows, fetched⟩ : ∃ rows, fetchAll rows = some accounts := by
    split at listed
    · exact ⟨_, listed⟩
    · exact ⟨_, listed⟩
  obtain ⟨short, nickname, comment⟩ :=
    fetchAll_cut fetched basic (List.mem_of_mem_head? (Option.mem_def.mpr head))
  refine ⟨short, nickname, comment, ?_⟩
  dsimp only
  split
  · exact Nat.zero_le _
  · exact List.length_take_le ..

theorem StaysFrom.cut {before : List SessionEntry} {entry : SessionEntry}
    (stays : StaysFrom before entry) (cut : SessionsCut before) : entry.session.Cut := by
  obtain ⟨old, listed, same, _⟩ := stays
  obtain ⟨uuid, nickname, comment, refAdminUuid⟩ := cut old listed
  have basic := congrArg OnlineSession.basic same
  have ref := congrArg OnlineSession.refAdminUuid same
  change old.session.basic = entry.session.basic at basic
  change old.session.refAdminUuid = entry.session.refAdminUuid at ref
  rw [basic] at uuid nickname comment
  rw [ref] at refAdminUuid
  exact ⟨uuid, nickname, comment, refAdminUuid⟩

theorem Request.sessionsCut {hash : Bytes → Bytes} {around : Surroundings} {server : Server}
    {request : Request} {outcome : Outcome} (cut : SessionsCut server.sessions)
    (done : request.run hash around server = .ok outcome) : SessionsCut outcome.server.sessions := by
  intro entry member
  by_cases login : request.handler = .accountLogin
  · obtain ⟨handler, fd, req⟩ := request
    obtain rfl := login
    rcases reqAccountLogin_entry done entry member with old | ⟨uuid, user, made⟩
    · exact cut entry old
    · exact newSession_cut made
  · rcases (Request.relisted done).entries entry member with stays | ⟨loggedIn, _⟩
    · exact stays.cut cut
    · exact absurd (of_decide_eq_true (Bool.and_eq_true_iff.mp loggedIn).1) login

theorem Network.sessionsCut {hash : Bytes → Bytes} {network : Network}
    {guard : Network → NetworkAction → Prop} (reached : (system hash).Reachable guard network) :
    SessionsCut network.server.sessions := by
  refine reached.invariant (fun network => SessionsCut network.server.sessions) ?_ ?_
  · rintro _ ⟨store, rfl⟩
    exact fun _ member => absurd member List.not_mem_nil
  · intro before action after cut _ step
    change next hash before action = some after at step
    cases action with
    | accept fd =>
      simp only [next] at step
      split at step
      · cases step
      · obtain rfl := Option.some.inj step
        exact cut
    | close connection =>
      obtain rfl := Option.some.inj step
      exact cut
    | arrive connection handler req =>
      simp only [next] at step
      split at step
      · cases step
      · obtain rfl := Option.some.inj step
        exact cut
    | handle index around =>
      simp only [next] at step
      split at step
      · cases step
      · split at step
        · cases step
        · rename_i outcome done
          obtain rfl := Option.some.inj step
          exact Request.sessionsCut cut done
    | tick =>
      simp only [next] at step
      split at step
      · cases step
      · obtain rfl := Option.some.inj step
        intro entry member
        exact ((onlineSessionCheckAllHearbeat_stays before.server.sessions).2 entry member).cut cut

private theorem sessionAt_cut {server : Server} {fd : Int} {session : OnlineSession}
    (cut : SessionsCut server.sessions) (found : sessionAt server fd = some session) :
    session.Cut := by
  obtain ⟨⟨index, _, held⟩, ref, rfl⟩ := Option.map_eq_some_iff.mp found
  obtain ⟨entry, listed, rfl, _⟩ := onlineSessionRef_some ref
  exact cut entry (List.mem_of_getElem? listed)

/-! ### What the checks admit -/

theorem upTo_length {size : Nat} {text : Option Bytes} {valid : Bytes}
    (checked : upTo size text = some valid) : valid.length ≤ size :=
  of_decide_eq_true (Option.filter_eq_some_iff.mp checked).2

section Params
variable {req : Option RpcReq}

private theorem loginParams_cut {uuid pwd : Bytes} (given : loginParams req = some (uuid, pwd)) :
    uuid.length ≤ 16 ∧ pwd.length ≤ 16 := by
  obtain ⟨_, _, given⟩ := Option.bind_eq_some_iff.mp given
  obtain ⟨_, _, given⟩ := Option.bind_eq_some_iff.mp given
  obtain ⟨_, validUuid, given⟩ := Option.bind_eq_some_iff.mp given
  obtain ⟨_, validPwd, given⟩ := Option.bind_eq_some_iff.mp given
  obtain ⟨rfl, rfl⟩ := Prod.mk.inj (Option.some.inj given)
  exact ⟨upTo_length validUuid, upTo_length validPwd⟩

private theorem accountCreateParams_cut {account : NewAccount}
    (given : accountCreateParams req = some account) :
    account.uuid.length ≤ 16 ∧ account.pwd.length ≤ 16 := by
  obtain ⟨_, validUuid, given⟩ := Option.bind_eq_some_iff.mp given
  obtain ⟨_, validPwd, given⟩ := Option.bind_eq_some_iff.mp given
  obtain ⟨_, _, given⟩ := Option.bind_eq_some_iff.mp given
  obtain ⟨_, _, given⟩ := Option.bind_eq_some_iff.mp given
  obtain rfl := Option.some.inj given
  exact ⟨upTo_length validUuid, upTo_length validPwd⟩

private theorem accountModifyParams_cut {oldPwd newPwd : Bytes}
    (given : accountModifyParams req = some (oldPwd, newPwd)) :
    oldPwd.length ≤ 16 ∧ newPwd.length ≤ 16 := by
  obtain ⟨_, validOld, given⟩ := Option.bind_eq_some_iff.mp given
  obtain ⟨_, validNew, given⟩ := Option.bind_eq_some_iff.mp given
  obtain ⟨_, _, given⟩ := Option.bind_eq_some_iff.mp given
  obtain ⟨_, _, given⟩ := Option.bind_eq_some_iff.mp given
  obtain ⟨rfl, rfl⟩ := Prod.mk.inj (Option.some.inj given)
  exact ⟨upTo_length validOld, upTo_length validNew⟩

private theorem accountDeleteParams_cut {checkPwd delUuid : Bytes}
    (given : accountDeleteParams req = some (checkPwd, delUuid)) :
    checkPwd.length ≤ 16 ∧ delUuid.length ≤ 16 := by
  obtain ⟨_, validUuid, given⟩ := Option.bind_eq_some_iff.mp given
  obtain ⟨_, validPwd, given⟩ := Option.bind_eq_some_iff.mp given
  obtain ⟨rfl, rfl⟩ := Prod.mk.inj (Option.some.inj given)
  exact ⟨upTo_length validPwd, upTo_length validUuid⟩

private theorem atoi_isInt (text : Bytes) : IsInt (atoi text) := toInt_isInt _

private theorem deviceBasicParams_cut {device : Device} (given : deviceBasicParams req = some device) :
    device.Cut := by
  obtain ⟨uuid, _, given⟩ := Option.bind_eq_some_iff.mp given
  obtain ⟨pluginName, _, given⟩ := Option.bind_eq_some_iff.mp given
  obtain ⟨ip, _, given⟩ := Option.bind_eq_some_iff.mp given
  obtain ⟨port, _, given⟩ := Option.bind_eq_some_iff.mp given
  obtain ⟨user, _, given⟩ := Option.bind_eq_some_iff.mp given
  obtain ⟨pwd, _, given⟩ := Option.bind_eq_some_iff.mp given
  obtain ⟨channel, _, given⟩ := Option.bind_eq_some_iff.mp given
  obtain rfl := Option.some.inj given
  refine ⟨⟨List.length_take_le .., List.length_take_le .., List.length_take_le ..,
    List.length_take_le .., List.length_take_le .., Nat.zero_le _, Nat.zero_le _, Nat.zero_le _,
    Nat.zero_le _⟩, ?_⟩
  simp only [List.forall_mem_cons, List.not_mem_nil, false_implies, implies_true, and_true]
  exact ⟨atoi_isInt port, atoi_isInt channel, by decide, by decide⟩

private theorem deviceSegmentParams_cut {device segmented : Device}
    (given : deviceSegmentParams req device = some segmented) (cut : device.Cut) :
    segmented.Cut := by
  obtain ⟨segFolder, _, given⟩ := Option.bind_eq_some_iff.mp given
  obtain ⟨segInCount, _, given⟩ := Option.bind_eq_some_iff.mp given
  obtain ⟨segPerSec, _, given⟩ := Option.bind_eq_some_iff.mp given
  obtain rfl := Option.some.inj given
  obtain ⟨fits, numbers⟩ := cut
  refine ⟨{ fits with segFolder := List.length_take_le .. }, ?_⟩
  simp only [List.forall_mem_cons, List.not_mem_nil, false_implies, implies_true, and_true]
    at numbers ⊢
  exact ⟨numbers.1, numbers.2.1, atoi_isInt segInCount, atoi_isInt segPerSec⟩

private theorem deviceTreeParams_cut {device whole : Device}
    (given : deviceTreeParams req device = some whole) (cut : device.Cut) : whole.Cut := by
  obtain ⟨isTopLevel, _, given⟩ := Option.bind_eq_some_iff.mp given
  obtain ⟨refParentUuid, same⟩ : ∃ refParentUuid : Bytes,
      { device with
        nickname := ((parserGet req "nickname").getD []).take 64
        comment := ((parserGet req "comment").getD []).take 256
        isTopLevel := decide (atoi isTopLevel ≠ 0)
        refParentUuid := refParentUuid.take 16 } = whole := by
    dsimp only at given
    split at given
    · exact ⟨[], Option.some.inj given⟩
    · obtain ⟨refParentUuid, _, given⟩ := Option.bind_eq_some_iff.mp given
      exact ⟨refParentUuid, Option.some.inj given⟩
  rw [← same]
  exact ⟨{ cut.fits with
    nickname := List.length_take_le ..
    comment := List.length_take_le ..
    refParentUuid := List.length_take_le .. }, cut.numbers⟩

end Params

/-! ### The statements of each handler -/

/-- `hashpwd[33]`: what is made of a password that was checked, in either build. -/
def HashFits (hash : Bytes → Bytes) : Prop := ∀ pwd : Bytes, pwd.length ≤ 16 → (hash pwd).length ≤ 32

theorem hashFits_accountGenHashKey (digests : Digests) (before : KeyBuffer) :
    HashFits (accountGenHashKey digests before) :=
  fun pwd _ => accountGenHashKey_length digests before pwd

private theorem hashFits_nothing : HashFits id := fun _ short => Nat.le_trans short (by decide)

private theorem forall_mem_some_iff {α : Type} {one : α} {holds : α → Prop} :
    (∀ other ∈ some one, holds other) ↔ holds one := by
  simp only [Option.mem_some_iff, forall_eq']

section Handlers
variable {server : Server} {fd : Int} {req : Option RpcReq} {ambient : Ambient}
variable {hash : Bytes → Bytes}

private theorem userRow_iff {store : Store} {uuid pwd : Bytes} :
    (dbAccountCheckUserIsOk store hash ambient uuid pwd).isSome ↔ UserRow hash store uuid pwd :=
  dbAccountCheckUserIsOk_isSome store hash ambient uuid pwd

private theorem accountLoginPrints_fit_iff (hashed : HashFits hash) :
    (∀ statement ∈ accountLoginPrints server req ambient hash, statement.Fits) ↔
      ∀ login ∈ loginParams req, UserRow hash server.store login.1 login.2 →
        RefShort server.store ambient login.1 := by
  unfold accountLoginPrints
  cases given : loginParams req with
  | none => exact iff_of_true fits_nil fun _ member => absurd member (Option.not_mem_none _)
  | some login =>
    obtain ⟨uuid, pwd⟩ := login
    obtain ⟨short, shortPwd⟩ := loginParams_cut given
    have room := hashed pwd shortPwd
    dsimp only
    rw [List.forall_mem_append, and_iff_right (userIsOkPrints_fit (by omega) (by omega)),
      forall_mem_some_iff, ← @userRow_iff ambient]
    dsimp only
    cases ok : dbAccountCheckUserIsOk server.store hash ambient uuid pwd with
    | none => exact iff_of_true fits_nil fun never => absurd never Bool.false_ne_true
    | some user =>
      rw [forall_prop_of_true Option.isSome_some, List.forall_mem_singleton]
      exact listOnePrint_fits (dbAccountCheckUserExist_ok ok) (by omega)

private theorem accountCreatePrints_fit_iff :
    (∀ statement ∈ accountCreatePrints server fd req ambient hash, statement.Fits) ↔
      ∀ account ∈ accountCreateParams req, account.uuid ∉ server.store.basic.keys →
        ∀ session ∈ sessionAt server fd, session.isAdmin = true →
          CopiesShort hash server.store ambient session.basic.uuid account := by
  unfold accountCreatePrints
  cases given : accountCreateParams req with
  | none => exact iff_of_true fits_nil fun _ member => absurd member (Option.not_mem_none _)
  | some account =>
    have short := (accountCreateParams_cut given).1
    dsimp only
    rw [List.forall_mem_append, and_iff_right (userExistPrints_fit (by omega)),
      forall_mem_some_iff, ← dbAccountCheckUserExist_isSome server.store ambient]
    split
    · rename_i known
      exact iff_of_true fits_nil fun unknown => absurd known unknown
    · rename_i unknown
      rw [forall_prop_of_true unknown]
      cases sessionAt server fd with
      | none => exact iff_of_true fits_nil fun _ member => absurd member (Option.not_mem_none _)
      | some session =>
        dsimp only
        rw [forall_mem_some_iff]
        split
        · rename_i isAdmin
          rw [forall_prop_of_true isAdmin]
          exact childAddPrints_fit_iff
        · rename_i notAdmin
          exact iff_of_true fits_nil fun isAdmin => absurd isAdmin notAdmin

private theorem accountModifyPrints_fit_iff (hashed : HashFits hash) (cut : SessionsCut server.sessions) :
    (∀ statement ∈ accountModifyPrints server fd req ambient hash, statement.Fits) ↔
      ∀ pwds ∈ accountModifyParams req, ∀ session ∈ sessionAt server fd,
        UserRow hash server.store session.basic.uuid pwds.1 →
          RefShort server.store ambient session.basic.uuid := by
  unfold accountModifyPrints
  cases given : accountModifyParams req with
  | none => exact iff_of_true fits_nil fun _ member => absurd member (Option.not_mem_none _)
  | some pwds =>
    obtain ⟨oldPwd, newPwd⟩ := pwds
    obtain ⟨shortOld, shortNew⟩ := accountModifyParams_cut given
    have roomOld := hashed oldPwd shortOld
    have roomNew := hashed newPwd shortNew
    dsimp only
    rw [forall_mem_some_iff]
    cases found : sessionAt server fd with
    | none => exact iff_of_true fits_nil fun _ member => absurd member (Option.not_mem_none _)
    | some session =>
      obtain ⟨uuid, nickname, comment, _⟩ := sessionAt_cut cut found
      dsimp only
      rw [forall_mem_some_iff, List.forall_mem_append,
        and_iff_right (userIsOkPrints_fit (by omega) (by omega)), ← @userRow_iff ambient]
      cases ok : dbAccountCheckUserIsOk server.store hash ambient session.basic.uuid oldPwd with
      | none => exact iff_of_true fits_nil fun never => absurd never Bool.false_ne_true
      | some user =>
        have known : session.basic.uuid ∈ server.store.basic.keys := by
          rw [← dbAccountCheckUserExist_isSome server.store ambient, dbAccountCheckUserExist_ok ok]
          rfl
        rw [forall_prop_of_true Option.isSome_some]
        exact updatePrints_fit_iff known (Nat.le_trans uuid (by decide))
          (Nat.le_trans roomNew (by decide)) (Nat.le_trans nickname (by decide)) comment

private theorem accountDeletePrints_fit (hashed : HashFits hash) (cut : SessionsCut server.sessions) :
    ∀ statement ∈ accountDeletePrints server fd req ambient hash, statement.Fits := by
  unfold accountDeletePrints
  split
  · exact fits_nil
  · rename_i checkPwd delUuid given
    obtain ⟨shortPwd, shortDel⟩ := accountDeleteParams_cut given
    have room := hashed checkPwd shortPwd
    split
    · exact fits_nil
    · rename_i session found
      have short := (sessionAt_cut cut found).uuid
      rw [List.forall_mem_append]
      refine ⟨userIsOkPrints_fit (by omega) (by omega), ?_⟩
      split
      · exact fits_nil
      · split
        · unfold accountDeleteChildPrints
          split
          · exact fits_nil
          · rw [List.forall_mem_cons, listChildGetOne_fits]
            refine ⟨by omega, ?_⟩
            split
            · exact fits_nil
            · rw [List.forall_mem_append]
              refine ⟨userExistPrints_fit (by omega), ?_⟩
              split
              · exact fits_nil
              · exact childDelPrints_fit (by omega) (by omega)
        · exact fits_nil

private theorem accountListPrints_fit (cut : SessionsCut server.sessions) :
    ∀ statement ∈ accountListPrints server fd ambient, statement.Fits := by
  unfold accountListPrints
  split
  · exact fits_nil
  · rename_i session found
    have short := (sessionAt_cut cut found).uuid
    rw [List.forall_mem_append]
    refine ⟨userExistPrints_fit (by omega), ?_⟩
    split
    · rw [List.forall_mem_cons]
      refine ⟨fits_one rfl (Nat.le_trans short (by decide)) rfl rfl, ?_⟩
      intro statement member
      obtain ⟨account, listed, printed⟩ := List.mem_flatMap.mp member
      cases accounts : dbAccountListChildGet server.store session.basic.uuid none with
      | none =>
        rw [accounts] at listed
        cases listed
      | some rows =>
        rw [accounts] at listed
        have child := (fetchAll_cut accounts account listed).1
        unfold tryGetChildPrints at printed
        split at printed
        · cases printed
        · rw [List.mem_singleton.mp printed, listChildGetOne_fits]
          omega
    · exact fits_nil

private theorem deviceCreatePrints_fit (cut : SessionsCut server.sessions) :
    ∀ statement ∈ deviceCreatePrints server fd req ambient, statement.Fits := by
  unfold deviceCreatePrints
  split
  · exact fits_nil
  · rename_i session found
    have short := (sessionAt_cut cut found).uuid
    rw [List.forall_mem_append]
    refine ⟨userExistPrints_fit (by omega), ?_⟩
    split
    · unfold deviceCreateRestPrints
      split
      · exact fits_nil
      · rename_i device given
        have cut := deviceBasicParams_cut given
        have uuid := cut.fits.uuid
        have ip := cut.fits.ip
        have checked : (Statement.deviceCheckExist device.ip device.port device.channel
            session.basic.uuid).Cut := by
          constructor
          · change ∀ text ∈ [device.ip, session.basic.uuid], text.length ≤ 256
            rw [List.forall_mem_cons, List.forall_mem_singleton]
            omega
          · change ∀ value ∈ [device.port, device.channel], IsInt value
            rw [List.forall_mem_cons, List.forall_mem_singleton]
            exact ⟨cut.numbers _ (by simp), cut.numbers _ (by simp)⟩
        rw [List.forall_mem_cons]
        refine ⟨checked.fits rfl, ?_⟩
        split
        · exact fits_nil
        · rw [List.forall_mem_cons, deviceGetOne_fits]
          refine ⟨by omega, ?_⟩
          split
          · exact fits_nil
          · split
            · exact fits_nil
            · rename_i segmented givenSegment
              have cutSegment := deviceSegmentParams_cut givenSegment cut
              have folder := cutSegment.fits.segFolder
              rw [List.forall_mem_cons]
              refine ⟨fits_one rfl (Nat.le_trans folder (by decide)) rfl rfl, ?_⟩
              split
              · exact fits_nil
              · split
                · exact fits_nil
                · rename_i whole givenTree
                  exact deviceAddPrints_fit (by omega) (deviceTreeParams_cut givenTree cutSegment)
    · exact fits_nil

/-- A device that exists has been found by its uuid, which is in a statement of 1024 bytes. -/
theorem deviceDeletePrints_fit_iff (cut : SessionsCut server.sessions) :
    (∀ statement ∈ deviceDeletePrints server fd req ambient, statement.Fits) ↔
      ∀ uuid ∈ parserGet req "uuid", ∀ session ∈ sessionAt server fd,
        server.store.IsAdmin session.basic.uuid → session.basic.uuid.length + uuid.length ≤ 490 := by
  unfold deviceDeletePrints
  cases parserGet req "uuid" with
  | none => exact iff_of_true fits_nil fun _ member => absurd member (Option.not_mem_none _)
  | some delUuid =>
    dsimp only
    rw [forall_mem_some_iff]
    cases found : sessionAt server fd with
    | none => exact iff_of_true fits_nil fun _ member => absurd member (Option.not_mem_none _)
    | some session =>
      have short := (sessionAt_cut cut found).uuid
      dsimp only
      rw [forall_mem_some_iff, List.forall_mem_append,
        and_iff_right (userExistPrints_fit (by omega)), ← @isAdminAccount_isAdmin server.store ambient]
      split
      · rename_i isAdmin
        rw [forall_prop_of_true isAdmin, List.forall_mem_cons, deviceGetOne_fits]
        refine and_iff_left_of_imp fun room => ?_
        split
        · exact deviceDelPrints_fit (by omega) (by omega)
        · exact fits_nil
      · rename_i notAdmin
        exact iff_of_true fits_nil fun isAdmin => absurd isAdmin notAdmin

private theorem deviceListPrints_fit (cut : SessionsCut server.sessions) :
    ∀ statement ∈ deviceListPrints server fd ambient, statement.Fits := by
  unfold deviceListPrints
  split
  · exact fits_nil
  · rename_i session found
    have short := (sessionAt_cut cut found).uuid
    rw [List.forall_mem_append]
    refine ⟨userExistPrints_fit (by omega), ?_⟩
    split
    · rw [List.forall_mem_singleton, deviceGetAll_fits]
      omega
    · exact fits_nil

private theorem playPrints_fit_iff {work : Bytes → List Statement}
    (works : ∀ uuid, ∀ statement ∈ work uuid, statement.Fits) :
    (∀ statement ∈ playPrints server fd req work, statement.Fits) ↔
      ∀ uuid ∈ parserGet req "uuid", ∀ session ∈ sessionAt server fd,
        (playAdminUuid session).length + uuid.length ≤ 490 := by
  unfold playPrints
  cases parserGet req "uuid" with
  | none => exact iff_of_true fits_nil fun _ member => absurd member (Option.not_mem_none _)
  | some uuid =>
    dsimp only
    rw [forall_mem_some_iff]
    cases sessionAt server fd with
    | none => exact iff_of_true fits_nil fun _ member => absurd member (Option.not_mem_none _)
    | some session =>
      dsimp only
      rw [forall_mem_some_iff, List.forall_mem_cons, deviceGetOne_fits]
      refine and_iff_left ?_
      split
      · exact works uuid
      · exact fits_nil

private theorem touchAdminsPrints_fit {store : Store} {uuid : Bytes} {admins : List AccountBasic}
    (short : ∀ admin ∈ admins, admin.uuid.length ≤ 16) :
    ∀ statement ∈ touchAdminsPrints store uuid admins, statement.Fits := by
  induction admins with
  | nil => exact fits_nil
  | cons admin rest ih =>
    have first := short admin List.mem_cons_self
    rw [touchAdminsPrints, List.forall_mem_cons, deviceGetAll_fits]
    refine ⟨by omega, ?_⟩
    split
    · exact fits_nil
    · exact ih fun other member => short other (List.mem_cons_of_mem _ member)

private theorem touchPrints_fit (uuid : Bytes) :
    ∀ statement ∈ touchPrints server uuid, statement.Fits := by
  unfold touchPrints
  split
  · exact fits_nil
  · rw [List.forall_mem_cons]
    refine ⟨Statement.fits_of_texts rfl nofun rfl rfl, ?_⟩
    cases admins : dbAccountListAdminGet server.store none with
    | none => exact fits_nil
    | some accounts =>
      exact touchAdminsPrints_fit fun admin member => (fetchAll_cut admins admin member).1

end Handlers

theorem Request.texts_fit_iff {hash : Bytes → Bytes} (hashed : HashFits hash) {server : Server}
    (cut : SessionsCut server.sessions) (ambient : Ambient) (request : Request) :
    (∀ statement ∈ request.prints hash ambient server, statement.Fits) ↔
      request.ShortTexts hash ambient server := by
  obtain ⟨handler, fd, req⟩ := request
  cases handler
  case versionCheck => exact iff_of_true fits_nil trivial
  case heartbeat => exact iff_of_true fits_nil trivial
  case accountLogout => exact iff_of_true fits_nil trivial
  case accountLogin => exact accountLoginPrints_fit_iff hashed
  case accountCreate => exact accountCreatePrints_fit_iff
  case accountModify => exact accountModifyPrints_fit_iff hashed cut
  case accountDelete => exact iff_of_true (accountDeletePrints_fit hashed cut) trivial
  case accountList => exact iff_of_true (accountListPrints_fit cut) trivial
  case deviceCreate => exact iff_of_true (deviceCreatePrints_fit cut) trivial
  case deviceDelete => exact deviceDeletePrints_fit_iff cut
  case deviceList => exact iff_of_true (deviceListPrints_fit cut) trivial
  case playDevice => exact playPrints_fit_iff fun _ => fits_nil
  case playStop => exact playPrints_fit_iff fun _ => fits_nil
  case playTouch => exact playPrints_fit_iff touchPrints_fit

/-- Every request whose texts have no quote, in every state that the server comes to by requests whose
statements mean what they should. -/
theorem Network.prints_fit_iff {hash : Bytes → Bytes} (hashed : HashFits hash) {network : Network}
    (reached : (system hash).Reachable (PlainTexts hash) network) (ambient : Ambient)
    (request : Request) (literal : request.Literal hash ambient network.server) :
    ((∀ statement ∈ request.prints hash ambient network.server, statement.Fits) ↔
      request.ShortTexts hash ambient network.server) ∧
    (request.ShortTexts hash ambient network.server →
      AllDenote (request.prints hash ambient network.server)) := by
  have fit_iff := request.texts_fit_iff hashed (sessionsCut reached) ambient
  refine ⟨fit_iff, fun short => allDenote_iff.mpr fun statement member => ?_⟩
  exact ⟨literal statement member, fit_iff.mpr short statement member⟩

/-- A request about a device, whose uuid has that many characters. -/
private def aboutDevice (length : Nat) : Option RpcReq :=
  some [⟨ascii "uuid", some (List.replicate length 65), length⟩]

/-- A uuid of 38 characters, as devices have it. -/
theorem Network.prints_fit_ordinary : ∃ network, (system id).run oneAdmin adminLogin = some network ∧
    ∀ statement ∈ Request.prints id quiet.toAmbient network.server
      ⟨.deviceDelete, 5, aboutDevice 38⟩, statement.Fits := by
  have started : (system id).Reachable (PlainTexts id) oneAdmin := .start ⟨_, rfl⟩
  have plain : (system id).Guarded (PlainTexts id) oneAdmin adminLogin := by decide +kernel
  have reached := started.run plain rfl
  refine ⟨_, rfl, (prints_fit_iff hashFits_nothing reached quiet.toAmbient
    ⟨.deviceDelete, 5, aboutDevice 38⟩ (by decide +kernel)).1.mpr ?_⟩
  intro uuid given session found _
  obtain rfl := Option.some.inj given
  obtain rfl := Option.some.inj found
  decide

/-- The admin `a` asks for a device whose uuid has 490 characters: the NUL behind the statement is
written past `sqlbuf`. -/
theorem Network.not_prints_fit : ∃ network, (system id).Reachable (PlainTexts id) network ∧
    Request.Literal id quiet.toAmbient network.server ⟨.deviceDelete, 5, aboutDevice 490⟩ ∧
      ¬∀ statement ∈ Request.prints id quiet.toAmbient network.server ⟨.deviceDelete, 5, aboutDevice 490⟩,
        statement.Fits := by
  have started : (system id).Reachable (PlainTexts id) oneAdmin := .start ⟨_, rfl⟩
  have plain : (system id).Guarded (PlainTexts id) oneAdmin adminLogin := by decide +kernel
  have reached := started.run plain rfl
  refine ⟨_, reached, by decide +kernel, fun fits => ?_⟩
  have exact_ := @deviceDeletePrints_fit_iff _ 5 (aboutDevice 490) quiet.toAmbient
    (sessionsCut reached)
  have room := exact_.mp fits (cstring (List.replicate 490 65)) rfl _ rfl
    ⟨List.mem_singleton_self _, List.mem_singleton_self _⟩
  have whole (count : Nat) : cstring (List.replicate count 65) = List.replicate count 65 := by
    have clean : 0 ∉ List.replicate count (65 : UInt8) := fun member =>
      absurd (List.eq_of_mem_replicate member) (by decide)
    have same := cstring_append (List.replicate count 65) [] clean
    rwa [List.append_nil, show cstring [] = [] from rfl, List.append_nil] at same
  rw [whole, List.length_replicate] at room
  exact absurd room (by decide)

end Livezure.Service
