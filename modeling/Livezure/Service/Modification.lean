import Livezure.Service.Prints

/-! What `req_account_modify` makes of an account. The new row is put together from the request
and from the copy of the account that the session took at its login. -/
namespace Livezure.Service
open Livezure.Core Db Rpc

/-- The account's row as a valid request asks for it: what was not sent stays as it is stored. -/
def requestedRow (hash : Bytes → Bytes) (req : Option RpcReq) (newPwd : Bytes)
    (row : AccountBasic) : AccountBasic :=
  { row with
    pwd := hash newPwd
    nickname := (parserGet req "nickname").getD row.nickname
    comment := (parserGet req "comment").getD row.comment }

/-- The account's row as the handler makes it. -/
def snapshotRow (hash : Bytes → Bytes) (session : OnlineSession) (newPwd : Bytes)
    (row : AccountBasic) : AccountBasic :=
  { row with
    pwd := hash newPwd, nickname := session.basic.nickname, comment := session.basic.comment }

/-- The account's row is as requested, and no other row has changed. -/
structure Modified (hash : Bytes → Bytes) (req : Option RpcReq) (newPwd uuid : Bytes)
    (before after : Store) : Prop where
  known : uuid ∈ before.basic.keys
  changed : after = { before with
    basic := before.basic.updateWhere (fun row => decide (row.uuid = uuid))
      (requestedRow hash req newPwd) fun _ => rfl }

/-- An answer 0 to a valid request of a session says that the account is as requested. -/
def ModifyFaithful (hash : Bytes → Bytes) (around : Surroundings) (server : Server) (fd : Int)
    (req : Option RpcReq) : Prop :=
  ∀ oldPwd newPwd session outcome, accountModifyParams req = some (oldPwd, newPwd) →
    sessionAt server fd = some session →
    reqAccountModify server fd req hash around = .ok outcome → outcome.reply = some (rid 0) →
    Modified hash req newPwd session.basic.uuid server.store outcome.server.store

/-- `db_account_update` finds one row for the account by the list functions. -/
def Listed (store : Store) (ambient : Ambient) (uuid : Bytes) : Prop :=
  ∃ user, dbAccountCheckUserExist store ambient uuid = some user ∧
    ((if user.isAdmin then dbAccountListAdminGet store (some uuid)
      else dbAccountListChildGet store user.refAdminUuid (some uuid)).getD []).length = 1

/-- Where the old password is right, the session has the nickname and the comment that are asked
for; or else, those that are stored if none are. -/
def AsksForSnapshot (hash : Bytes → Bytes) (around : Surroundings) (server : Server) (fd : Int)
    (req : Option RpcReq) : Prop :=
  ∀ oldPwd newPwd session, accountModifyParams req = some (oldPwd, newPwd) →
    sessionAt server fd = some session →
    Listed server.store around.toAmbient session.basic.uuid →
    ∀ row ∈ server.store.basic.rows, row.uuid = session.basic.uuid → row.pwd = hash oldPwd →
      session.basic.nickname = (parserGet req "nickname").getD row.nickname ∧
        session.basic.comment = (parserGet req "comment").getD row.comment

section Modify
variable {hash : Bytes → Bytes} {around : Surroundings} {server : Server} {fd : Int}
  {req : Option RpcReq}

private theorem dbAccountUpdate_listed {store : Store} {ambient : Ambient} {uuid : Bytes}
    (listed : Listed store ambient uuid) (account : NewAccount) :
    dbAccountUpdate store hash ambient uuid account =
      .ok (true, { store with
        basic := store.basic.updateWhere (fun row => decide (row.uuid = uuid))
          (fun row => { row with
            pwd := hash account.pwd, nickname := account.nickname, comment := account.comment })
          fun _ => rfl }) := by
  obtain ⟨user, found, one⟩ := listed
  unfold dbAccountUpdate
  rw [found]
  dsimp only
  revert one
  generalize (if user.isAdmin then dbAccountListAdminGet store (some uuid)
    else dbAccountListChildGet store user.refAdminUuid (some uuid)) = old
  intro one
  match old with
  | some [_] => rfl
  | none | some [] | some (_ :: _ :: _) => simp at one

private theorem listed_of_dbAccountUpdate {store after : Store} {ambient : Ambient} {uuid : Bytes}
    {account : NewAccount} (updated : dbAccountUpdate store hash ambient uuid account = .ok (true, after)) :
    Listed store ambient uuid := by
  unfold dbAccountUpdate at updated
  split at updated
  · cases updated
  · rename_i user found
    refine ⟨user, found, ?_⟩
    dsimp only at updated
    split at updated
    · rename_i one
      rw [one]
      rfl
    · cases updated

variable (hash around) in
/-- The handler for a valid request of a session: 0 after an update of the account it logged in
with, by a new password and what the session remembers. -/
theorem reqAccountModify_eq {oldPwd newPwd : Bytes} {session : OnlineSession}
    (valid : accountModifyParams req = some (oldPwd, newPwd))
    (found : sessionAt server fd = some session) :
    ∃ held, reqAccountModify server fd req hash around =
      if (dbAccountCheckUserIsOk server.store hash around.toAmbient session.basic.uuid
          oldPwd).isSome then do
        let (r, store) ← dbAccountUpdate server.store hash around.toAmbient session.basic.uuid
          ⟨session.basic.uuid, newPwd, session.basic.nickname, session.basic.comment⟩
        return ⟨{ server with store, sessions := held }, some (rid (if r then 0 else -256)),
          some (some session)⟩
      else .ok ⟨{ server with sessions := held }, some (rid (-1)), some (some session)⟩ := by
  obtain ⟨⟨index, other, held⟩, ref, same⟩ := Option.map_eq_some_iff.mp found
  dsimp only at same
  subst same
  refine ⟨onlineSessionDref held index, ?_⟩
  simp only [reqAccountModify, valid, withOnlineSession, ref]
  cases dbAccountCheckUserIsOk server.store hash around.toAmbient other.basic.uuid oldPwd with
  | none => rfl
  | some user =>
    simp only [Option.isSome_some, if_true]
    cases dbAccountUpdate server.store hash around.toAmbient other.basic.uuid
        ⟨other.basic.uuid, newPwd, other.basic.nickname, other.basic.comment⟩ with
    | error fault => rfl
    | ok updated => rfl

/-- Updates of the rows with one uuid are the same if they make the same of each. -/
theorem updateWhere_eq_iff {table : Table AccountBasic.uuid} {uuid : Bytes}
    (left right : AccountBasic → AccountBasic) (keepsLeft : ∀ row, (left row).uuid = row.uuid)
    (keepsRight : ∀ row, (right row).uuid = row.uuid) :
    table.updateWhere (fun row => decide (row.uuid = uuid)) left keepsLeft =
        table.updateWhere (fun row => decide (row.uuid = uuid)) right keepsRight ↔
      ∀ row ∈ table.rows, row.uuid = uuid → left row = right row := by
  rw [Table.ext_iff]
  simp only [Table.updateWhere, List.map_inj_left, decide_eq_true_eq]
  refine forall₂_congr fun row _ => ?_
  by_cases same : row.uuid = uuid
  · simp [same]
  · simp [same]

private theorem snapshot_eq_iff {store : Store} {session : OnlineSession} {newPwd uuid : Bytes} :
    ({ store with
      basic := store.basic.updateWhere (fun row => decide (row.uuid = uuid))
        (snapshotRow hash session newPwd) fun _ => rfl } : Store) =
    { store with
      basic := store.basic.updateWhere (fun row => decide (row.uuid = uuid))
        (requestedRow hash req newPwd) fun _ => rfl } ↔
      ∀ row ∈ store.basic.rows, row.uuid = uuid →
        session.basic.nickname = (parserGet req "nickname").getD row.nickname ∧
          session.basic.comment = (parserGet req "comment").getD row.comment := by
  have rows : ∀ row, snapshotRow hash session newPwd row = requestedRow hash req newPwd row ↔
      session.basic.nickname = (parserGet req "nickname").getD row.nickname ∧
        session.basic.comment = (parserGet req "comment").getD row.comment := by
    intro row
    simp [snapshotRow, requestedRow]
  simp only [← rows, ← updateWhere_eq_iff (snapshotRow hash session newPwd)
    (requestedRow hash req newPwd) (fun _ => rfl) fun _ => rfl]
  exact ⟨congrArg Store.basic, congrArg fun basic => { store with basic }⟩

private theorem modifyFaithful_iff :
    ModifyFaithful hash around server fd req ↔ AsksForSnapshot hash around server fd req := by
  constructor
  · intro faithful oldPwd newPwd session valid found listed row member same right
    obtain ⟨held, run⟩ := reqAccountModify_eq hash around valid found
    have isOk := (dbAccountCheckUserIsOk_isSome server.store hash around.toAmbient _ oldPwd).mpr
      ⟨row, member, same, right⟩
    rw [if_pos isOk, dbAccountUpdate_listed listed] at run
    have modified := faithful oldPwd newPwd session _ valid found run rfl
    exact snapshot_eq_iff.mp modified.changed row member same
  · intro asks oldPwd newPwd session outcome valid found run zero
    obtain ⟨held, same⟩ := reqAccountModify_eq hash around valid found
    rw [same] at run
    split at run
    · rename_i isOk
      obtain ⟨row, member, own, right⟩ :=
        (dbAccountCheckUserIsOk_isSome server.store hash around.toAmbient _ oldPwd).mp isOk
      obtain ⟨⟨r, store⟩, updated, done⟩ := bind_ok run
      obtain rfl := Except.ok.inj done
      cases r with
      | false =>
        have differ : rid (-256) ≠ rid 0 := by decide
        exact absurd (Option.some.inj zero) differ
      | true =>
        have listed := listed_of_dbAccountUpdate updated
        rw [dbAccountUpdate_listed listed] at updated
        obtain ⟨_, rfl⟩ := Prod.mk.inj (Except.ok.inj updated)
        refine ⟨own ▸ Table.key_mem member, snapshot_eq_iff.mpr fun other known sameUuid => ?_⟩
        obtain rfl := Table.row_unique known member (sameUuid.trans own.symm)
        exact asks oldPwd newPwd session valid found listed other member own right
    · obtain rfl := Except.ok.inj run
      have differ : rid (-1) ≠ rid 0 := by decide
      exact absurd (Option.some.inj zero) differ

end Modify

/-- By statements that mean it, the answer 0 is right exactly if the nickname and the comment asked
for are those that the session remembers. -/
theorem reqAccountModify_faithful_iff (hash : Bytes → Bytes) (around : Surroundings)
    (server : Server) (fd : Int) (req : Option RpcReq)
    (plain : AllPlain (accountModifyPrints server fd req around.toAmbient hash)) :
    AllDenote (accountModifyPrints server fd req around.toAmbient hash) ∧
      (ModifyFaithful hash around server fd req ↔ AsksForSnapshot hash around server fd req) :=
  ⟨allDenote_iff.mpr plain, modifyFaithful_iff⟩

/-- The admin `a`, online on descriptor 5 since it was called `n`. -/
private def namedOnline : Server where
  store := (dbAccountAdminAdd .init id ⟨[50], [], []⟩ ⟨ascii "a", ascii "w", ascii "n", []⟩).2
  sessions := [⟨⟨⟨ascii "a", ascii "w", ascii "n", [], [50]⟩, [], true, true, ⟨5, [], 0, true⟩⟩, 0, false⟩]
  devices := []

/-- It asks for a new password and a name. -/
private def renameTo (nickname : String) : Option RpcReq :=
  some [⟨ascii "old_pwd", some (ascii "w"), 1⟩, ⟨ascii "new_pwd", some (ascii "v"), 1⟩,
    ⟨ascii "nickname", some (ascii nickname), 1⟩]

/-- It keeps its name. -/
theorem modifyFaithful_same :
    ModifyFaithful id ⟨⟨[50], [], []⟩, none⟩ namedOnline 5 (renameTo "n") := by
  refine (reqAccountModify_faithful_iff id _ namedOnline 5 (renameTo "n") (by decide)).2.mpr ?_
  intro oldPwd newPwd session valid found _ row member _ _
  have stored : ∀ row ∈ namedOnline.store.basic.rows, row = ⟨ascii "a", ascii "w", ascii "n", [], [50]⟩ := by
    decide
  obtain rfl := stored row member
  cases found
  decide

/-- It asks to be called `m`, and is answered 0: it is still called `n`. -/
theorem not_modifyFaithful :
    let req := renameTo "m"
    let around : Surroundings := ⟨⟨[50], [], []⟩, none⟩
    (∃ outcome, reqAccountModify namedOnline 5 req id around = .ok outcome ∧
      outcome.reply = some (rid 0) ∧
      outcome.server.store.basic.rows = [⟨ascii "a", ascii "v", ascii "n", [], [50]⟩]) ∧
    ¬ModifyFaithful id around namedOnline 5 req := by
  intro req around
  refine ⟨⟨_, rfl, rfl, by decide⟩, fun faithful => ?_⟩
  have modified := faithful (ascii "w") (ascii "v") _ _ (by decide) rfl rfl rfl
  have rows := congrArg (fun store => store.basic.rows) modified.changed
  exact absurd rows (by decide)

end Livezure.Service
