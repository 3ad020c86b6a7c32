import Livezure.Client.Records
import Livezure.Service.Prints

/-! What `mc_account_list` (`media_api_account.c`) makes of the reply of `req_account_list`. -/
namespace Livezure.Client
open Livezure.Core Db Rpc Service

/-! ### The client -/

/-- What `xcalloc` leaves in an account. -/
def zeroAccount : OnlineSession := ⟨⟨[], [], [], [], []⟩, [], false, false, ⟨0, [], 0, false⟩⟩

/-- What `uuid` starts for the user who asks. -/
def startAccount (own : Bytes) (value : Option Bytes) : Except Fault OnlineSession := do
  let uuid ← strncpy value 16
  let refAdminUuid ← strncpy (some own) 16
  return { zeroAccount with basic.uuid := uuid, refAdminUuid }

/-- The branches of the loop that write to the last account. -/
def mcAccountField (key : Bytes) (value : Option Bytes) :
    Option (OnlineSession → Except Fault OnlineSession) :=
  if key = ascii "nickname" then some fun account =>
    return { account with basic.nickname := ← strncpy value 64 }
  else if key = ascii "comment" then some fun account =>
    return { account with basic.comment := ← strncpy value 256 }
  else if key = ascii "created_time" then some fun account =>
    return { account with basic.createdTime := ← strncpy value 64 }
  else if key = ascii "is_online" then some fun account =>
    return { account with isOnline := decide ((← atoiAt value) ≠ 0) }
  else if key = ascii "ip" then some fun account =>
    -- no `continue` here, but no other key matches
    return { account with net.ip := ← strncpy value 16 }
  else if key = ascii "port" then some fun account =>
    return { account with net.port := ← atoiAt value }
  else none

def mcAccountLoop (own : Bytes) (count : Nat) (pairs : RpcReq) :
    Except Fault (List OnlineSession) :=
  recordLoop (startAccount own) mcAccountField count pairs []

def mcAccountList (pointerSize : Nat) (own : Bytes) (req : Option RpcReq) :
    Except Fault (Listing OnlineSession) :=
  mcList pointerSize (mcAccountLoop own) req

/-! ### What there is to list -/

/-- What the list shows of an account. -/
structure ChildView where
  uuid : Bytes
  nickname : Bytes
  comment : Bytes
  createdTime : Bytes
  isOnline : Bool
  ip : Bytes
  port : Int
  deriving DecidableEq

def viewOf (account : OnlineSession) : ChildView :=
  ⟨account.basic.uuid, account.basic.nickname, account.basic.comment, account.basic.createdTime,
    account.isOnline, account.net.ip, account.net.port⟩

/-- The children stored for an admin, in the order in which the query gets them. -/
def storedChildren (store : Store) (refAdminUuid : Bytes) : List AccountBasic :=
  store.basic.selectIn store.order.children fun row => decide (row.uuid ∈
    (store.child.select fun row => decide (row.refAdminUuid = refAdminUuid)).map AccountChild.uuid)

def childEntry (sessions : List SessionEntry) (refAdminUuid uuid : Bytes) : Option SessionEntry :=
  sessions.find? fun entry => !entry.session.isAdmin &&
    decide (entry.session.refAdminUuid = refAdminUuid) && decide (entry.session.basic.uuid = uuid)

/-- The address that stands for none. -/
def shownIp (ip : Bytes) : Bytes := if ip = [] then ascii "0.0.0.0" else ip

/-- A child: its row, and the connection of a child that is online. -/
def childView (sessions : List SessionEntry) (refAdminUuid : Bytes) (row : AccountBasic) : ChildView :=
  match childEntry sessions refAdminUuid row.uuid with
  | some entry => ⟨row.uuid, row.nickname, row.comment, row.createdTime, entry.session.isOnline,
    shownIp entry.session.net.ip, entry.session.net.port⟩
  | none => ⟨row.uuid, row.nickname, row.comment, row.createdTime, false, shownIp [], 0⟩

def ListedChildren (pointerSize : Nat) (own : Bytes) (reply : Reply) (children : List ChildView) : Prop :=
  ∃ (req : RpcReq) (listing : Listing OnlineSession), parserAddAll reply = .ok req ∧
    mcAccountList pointerSize own (some req) = .ok listing ∧ listing.status = .ok ∧
    listing.count = children.length ∧
    ∀ (index : Nat) (child : ChildView), children[index]? = some child →
      listing.records[index]?.map viewOf = some child

/-- A text that is sent for a stored one, into a field for `size` characters. -/
def Carries (size : Nat) (sent stored : Bytes) : Prop :=
  sent ≠ [] ∧ (cstring sent).take size = stored

instance (size : Nat) (sent stored : Bytes) : Decidable (Carries size sent stored) :=
  instDecidableAnd

/-- The texts that the server reads for a child: those of its session before those of its row. -/
def readBasic (sessions : List SessionEntry) (refAdminUuid : Bytes) (row : AccountBasic) :
    AccountBasic :=
  ((childEntry sessions refAdminUuid row.uuid).map fun entry => entry.session.basic).getD row

/-- A child that comes through. -/
structure ChildListable (sessions : List SessionEntry) (refAdminUuid : Bytes) (row : AccountBasic) :
    Prop where
  uuid : Carries 16 row.uuid row.uuid
  nickname : Carries 64 (readBasic sessions refAdminUuid row).nickname row.nickname
  comment : Carries 256 (readBasic sessions refAdminUuid row).comment row.comment
  createdTime : Carries 64 (readBasic sessions refAdminUuid row).createdTime row.createdTime
  net : ∀ entry ∈ childEntry sessions refAdminUuid row.uuid,
    FitsField 16 entry.session.net.ip ∧ IsInt entry.session.net.port

private theorem carries_self {size : Nat} {text : Bytes} :
    Carries size text text ↔ text ≠ [] ∧ FitsField size text := by
  rw [Carries, fitsField_iff]

private theorem carries_take {size : Nat} (room : 0 < size) {sent stored : Bytes} :
    Carries size (sent.take size) stored ↔ Carries size sent stored := by
  have sent_iff : sent.take size ≠ [] ↔ sent ≠ [] := by
    rw [ne_eq, List.take_eq_nil_iff, not_or]
    exact and_iff_right (by omega)
  rw [Carries, Carries, sent_iff, cstring_take, List.take_take, Nat.min_self]

/-! ### One account -/

/-- The texts that the client reads without looking for NULL. -/
def accountTexts (account : OnlineSession) : List Bytes :=
  [account.basic.uuid, account.basic.nickname, account.basic.comment, account.basic.createdTime]

/-- What arrives of an account. -/
def arrivedAccount (own : Bytes) (account : OnlineSession) : OnlineSession where
  basic :=
    { uuid := (cstring account.basic.uuid).take 16
      pwd := []
      nickname := (cstring account.basic.nickname).take 64
      comment := (cstring account.basic.comment).take 256
      createdTime := (cstring account.basic.createdTime).take 64 }
  refAdminUuid := (cstring own).take 16
  isAdmin := false
  isOnline := account.isOnline
  net := ⟨0, (cstring (shownIp account.net.ip)).take 16, toInt account.net.port, false⟩

/-- The fields of an account behind its uuid. -/
def accountFields (account : OnlineSession) : Reply := account.listed.tail

theorem accountFields_isField (account : OnlineSession) :
    ∀ pair ∈ (accountFields account).map entryOf, IsField pair.key := by
  intro entry member
  obtain ⟨pair, listed, rfl⟩ := List.mem_map.mp member
  have keys : ∀ key ∈ (accountFields account).map Prod.fst, IsField key := by
    change ∀ key ∈ ["nickname", "comment", "created_time", "is_online", "ip", "port"].map ascii,
      IsField key
    unfold IsField
    decide
  exact keys _ (List.mem_map_of_mem listed)

theorem shownIp_ne_nil (ip : Bytes) : shownIp ip ≠ [] := by
  unfold shownIp
  split
  · decide
  · assumption

private theorem assignPairs_isOnline {rest : RpcReq} {account result : OnlineSession} (isOnline : Bool) :
    assignPairs mcAccountField
        (entryOf (ascii "is_online", if isOnline then ascii "1" else ascii "0") :: rest) account =
      .ok result ↔ assignPairs mcAccountField rest { account with isOnline } = .ok result := by
  have sent : (if isOnline then ascii "1" else ascii "0") ≠ [] := by
    cases isOnline <;> decide
  have read : decide (atoi (cstring (if isOnline then ascii "1" else ascii "0")) ≠ 0) = isOnline := by
    cases isOnline <;> decide
  rw [assignPairs_number (fun account number => { account with isOnline := decide (number ≠ 0) }) rfl,
    and_iff_right sent, read]

/-- The fields behind the uuid arrive unless a text that the client reads is empty. -/
theorem assignPairs_accountFields {own : Bytes} {result : OnlineSession}
    (account start : OnlineSession) (started : startAccount own (pointer account.basic.uuid) = .ok start) :
    assignPairs mcAccountField ((accountFields account).map entryOf) start = .ok result ↔
      (∀ text ∈ accountTexts account, text ≠ []) ∧ arrivedAccount own account = result := by
  have fields : (accountFields account).map entryOf = [_, _, _, _, _, _] := rfl
  obtain ⟨_, first, started⟩ := bind_ok started
  obtain ⟨known, rfl⟩ := strncpy_ok.mp first
  obtain rfl := Except.ok.inj started
  rw [fields, assignPairs_text (fun account nickname => { account with basic.nickname := nickname }) 64 rfl,
    assignPairs_text (fun account comment => { account with basic.comment := comment }) 256 rfl,
    assignPairs_text (fun account time => { account with basic.createdTime := time }) 64 rfl,
    assignPairs_isOnline,
    assignPairs_text (fun account ip => { account with net.ip := ip }) 16 rfl,
    assignPairs_decimal (fun account port => { account with net.port := port }) rfl]
  change _ ∧ _ ∧ _ ∧ shownIp account.net.ip ≠ [] ∧
    (Except.ok (arrivedAccount own account) : Except Fault OnlineSession) = .ok result ↔ _
  rw [and_iff_right (shownIp_ne_nil account.net.ip)]
  simp only [accountTexts, List.forall_mem_cons, List.not_mem_nil, false_imp_iff, implies_true,
    and_true, and_iff_right known, Except.ok.injEq, and_assoc]

private theorem recordLoop_account {own : Bytes} {count : Nat} {rest : RpcReq}
    {accounts result : List OnlineSession} (room : accounts.length < count) (account : OnlineSession) :
    recordLoop (startAccount own) mcAccountField count (account.listed.map entryOf ++ rest) accounts =
        .ok result ↔
      (∀ text ∈ accountTexts account, text ≠ []) ∧
        recordLoop (startAccount own) mcAccountField count rest
          (accounts ++ [arrivedAccount own account]) = .ok result := by
  have pairs : account.listed.map entryOf ++ rest =
      entryOf (ascii "uuid", account.basic.uuid) :: ((accountFields account).map entryOf ++ rest) := rfl
  have other : ¬ (ascii "uuid" = ascii "rid" ∨ ascii "uuid" = ascii "count") := by decide
  rw [pairs, recordLoop]
  simp only [entryOf, if_neg other, if_true, if_pos room, bind_ok_iff,
    recordLoop_fields (accountFields_isField account)]
  constructor
  · rintro ⟨start, started, _, fields, done⟩
    obtain ⟨sent, rfl⟩ := (assignPairs_accountFields account start started).mp fields
    exact ⟨sent, done⟩
  · rintro ⟨sent, done⟩
    have started : startAccount own (pointer account.basic.uuid) = .ok _ :=
      bind_ok_iff.mpr ⟨_, strncpy_ok.mpr ⟨sent _ List.mem_cons_self, rfl⟩, rfl⟩
    exact ⟨_, started, _, (assignPairs_accountFields account _ started).mpr ⟨sent, rfl⟩, done⟩

/-! ### The server -/

def readChild (sessions : List SessionEntry) (refAdminUuid : Bytes) (row : AccountBasic) :
    OnlineSession :=
  match childEntry sessions refAdminUuid row.uuid with
  | some entry => entry.session
  | none => ⟨row.fetched, refAdminUuid, false, false, ⟨0, [], 0, false⟩⟩

section Server
variable {store : Store} {sessions : List SessionEntry} {refAdminUuid : Bytes} {row : AccountBasic}

theorem childEntry_uuid {uuid : Bytes} {entry : SessionEntry}
    (found : childEntry sessions refAdminUuid uuid = some entry) : entry.session.basic.uuid = uuid := by
  have known := List.find?_some found
  rw [Bool.and_eq_true, decide_eq_true_iff] at known
  exact known.2

/-- A stored child is the only one of its uuid. -/
theorem dbAccountListChildGet_child (member : row ∈ storedChildren store refAdminUuid) :
    dbAccountListChildGet store refAdminUuid (some row.uuid) = some [row.fetched] := by
  obtain ⟨stored, child⟩ := Table.mem_selectIn.mp member
  obtain ⟨link, selected, same⟩ := List.mem_map.mp (of_decide_eq_true child)
  obtain ⟨linked, admin⟩ := Table.mem_select.mp selected
  have others : ∀ other : AccountBasic, other.uuid ∈ (store.child.select fun link =>
      decide (link.refAdminUuid = refAdminUuid) && decide (link.uuid = row.uuid)).map
        AccountChild.uuid ↔ other.uuid = row.uuid := by
    intro other
    constructor
    · intro known
      obtain ⟨found, selected, same⟩ := List.mem_map.mp known
      have met := (Table.mem_select.mp selected).2
      rw [Bool.and_eq_true, decide_eq_true_iff, decide_eq_true_iff] at met
      rw [← same, met.2]
    · intro equal
      have met : (decide (link.refAdminUuid = refAdminUuid) && decide (link.uuid = row.uuid)) = true := by
        rw [admin, decide_eq_true same]
        rfl
      rw [equal]
      exact List.mem_map.mpr ⟨link, Table.mem_select.mpr ⟨linked, met⟩, same⟩
  have one : (store.basic.select fun other => true && decide (other.uuid = row.uuid)) = [row] :=
    Table.select_key stored fun _ => true
  unfold dbAccountListChildGet
  simp only [others]
  simp only [Bool.true_and] at one
  rw [Table.selectIn_key fun other _ => of_decide_eq_true, one]
  rfl

private theorem onlineSessionTryGetChild_child (member : row ∈ storedChildren store refAdminUuid)
    (short : row.uuid.length ≤ 16) :
    onlineSessionTryGetChild sessions store refAdminUuid row.fetched.uuid =
      some (readChild sessions refAdminUuid row) := by
  have same : row.fetched.uuid = row.uuid := List.take_of_length_le short
  rw [same, onlineSessionTryGetChild, readChild, childEntry, dbAccountListChildGet_child member]
  cases sessions.find? _ <;> rfl

variable {server : Server} {fd : Int} {index : Nat} {session : OnlineSession}
  {held : List SessionEntry}

/-- The pairs of an answer to an admin who has children. -/
def accountListReply (sessions : List SessionEntry) (store : Store) (refAdminUuid : Bytes) : Reply :=
  let accounts := (storedChildren store refAdminUuid).map AccountBasic.fetched
  rid 0 ++ [(ascii "count", decimal accounts.length)] ++ accounts.flatMap fun account =>
    ((onlineSessionTryGetChild sessions store refAdminUuid account.uuid).map
      OnlineSession.listed).getD []

theorem reqAccountList_reply (around : Surroundings)
    (online : onlineSessionRef server.sessions fd = some (index, session, held))
    (admin : isAdminAccount server.store around.toAmbient session.basic.uuid = true) :
    ∃ outcome, reqAccountList server fd around = .ok outcome ∧
      outcome.reply = some (if storedChildren server.store session.basic.uuid = [] then rid (-256)
        else accountListReply server.sessions server.store session.basic.uuid) := by
  obtain ⟨user, account, isAdmin⟩ := userExist_of_isAdminAccount admin
  have listed : dbAccountListChildGet server.store session.basic.uuid none =
      fetchAll (storedChildren server.store session.basic.uuid) := by
    unfold dbAccountListChildGet storedChildren
    simp only [Bool.and_true]
  unfold reqAccountList withOnlineSession
  simp only [online, account, isAdmin, if_true, listed, fetchAll]
  by_cases none : storedChildren server.store session.basic.uuid = []
  · rw [if_pos none, if_pos none]
    exact ⟨_, rfl, rfl⟩
  · rw [if_neg none, if_neg none]
    exact ⟨_, rfl, rfl⟩

/-- The pairs are those of what is read, unless a uuid was cut short. -/
theorem accountListReply_eq
    (short : ∀ row ∈ storedChildren store refAdminUuid, row.uuid.length ≤ 16) :
    accountListReply sessions store refAdminUuid =
      listReply ((storedChildren store refAdminUuid).map (readChild sessions refAdminUuid))
        OnlineSession.listed := by
  have read : ∀ row ∈ storedChildren store refAdminUuid,
      ((onlineSessionTryGetChild sessions store refAdminUuid row.fetched.uuid).map
        OnlineSession.listed).getD [] = (readChild sessions refAdminUuid row).listed := by
    intro row member
    rw [onlineSessionTryGetChild_child member (short row member)]
    rfl
  simp only [accountListReply, listReply, List.length_map, List.flatMap_map]
  congr 1
  exact List.flatMap_congr read

/-! ### The whole list -/

theorem listed_clean (account : OnlineSession) : ∀ pair ∈ account.listed, 0 ∉ pair.1 := by
  intro pair member
  have named : ∀ key ∈ account.listed.map Prod.fst, 0 ∉ key := by
    change ∀ key ∈ ["uuid", "nickname", "comment", "created_time", "is_online", "ip", "port"].map
      ascii, 0 ∉ key
    decide
  exact named _ (List.mem_map_of_mem member)

theorem mcAccountField_uuid {key : Bytes} {value : Option Bytes}
    {assign : OnlineSession → Except Fault OnlineSession} {before after : OnlineSession}
    (known : mcAccountField key value = some assign) (assigned : assign before = .ok after) :
    after.basic.uuid = before.basic.uuid := by
  have written : ∀ {α : Type} {read : Except Fault α} {set : α → OnlineSession},
      (read >>= fun value => pure (set value)) = .ok after →
      (∀ value, (set value).basic.uuid = before.basic.uuid) →
      after.basic.uuid = before.basic.uuid := by
    intro α read set done same
    obtain ⟨value, _, done⟩ := bind_ok done
    rw [← Except.ok.inj done]
    exact same value
  unfold mcAccountField at known
  -- one branch for each key
  repeat
    split at known
    · cases known
      exact written assigned fun _ => rfl
  cases known

theorem mcAccountLoop_uuid {own : Bytes} {count : Nat} {pairs : RpcReq} {result : List OnlineSession}
    (looped : mcAccountLoop own count pairs = .ok result) :
    ∀ account ∈ result, account.basic.uuid.length ≤ 16 := by
  refine recordLoop_forall (fun account : OnlineSession => account.basic.uuid.length ≤ 16) ?_ ?_
    (fun _ member => absurd member List.not_mem_nil) looped
  · intro value account started
    obtain ⟨uuid, copied, started⟩ := bind_ok started
    obtain rfl := Except.ok.inj started
    exact strncpy_length copied
  · intro key value assign before after known short assigned
    rw [mcAccountField_uuid known assigned]
    exact short

private theorem fitsField_shownIp {ip : Bytes} : FitsField 16 (shownIp ip) ↔ FitsField 16 ip := by
  unfold shownIp
  split
  · rename_i none
    rw [none]
    unfold FitsField
    decide
  · rfl

/-- An account is sent and arrives as it is to be seen: field by field. -/
theorem sent_arrived_iff (own : Bytes) (account : OnlineSession) (child : ChildView) :
    ((∀ text ∈ accountTexts account, text ≠ []) ∧ viewOf (arrivedAccount own account) = child) ↔
      Carries 16 account.basic.uuid child.uuid ∧ Carries 64 account.basic.nickname child.nickname ∧
        Carries 256 account.basic.comment child.comment ∧
        Carries 64 account.basic.createdTime child.createdTime ∧
        account.isOnline = child.isOnline ∧ (cstring (shownIp account.net.ip)).take 16 = child.ip ∧
        toInt account.net.port = child.port := by
  obtain ⟨uuid, nickname, comment, createdTime, isOnline, ip, port⟩ := child
  simp only [accountTexts, viewOf, arrivedAccount, ChildView.mk.injEq, List.forall_mem_cons,
    List.not_mem_nil, false_imp_iff, implies_true, and_true, Carries]
  tauto

/-- A child comes through if no text that is read is empty and what arrives is the child. -/
theorem childListable_iff (own : Bytes) :
    ChildListable sessions refAdminUuid row ↔
      (∀ text ∈ accountTexts (readChild sessions refAdminUuid row), text ≠ []) ∧
        viewOf (arrivedAccount own (readChild sessions refAdminUuid row)) =
          childView sessions refAdminUuid row := by
  rw [sent_arrived_iff]
  constructor
  · rintro ⟨uuid, nickname, comment, createdTime, net⟩
    unfold readBasic at nickname comment createdTime
    unfold readChild childView
    cases found : childEntry sessions refAdminUuid row.uuid with
    | none =>
      rw [found] at nickname comment createdTime
      exact ⟨(carries_take (by decide)).mpr uuid, (carries_take (by decide)).mpr nickname,
        (carries_take (by decide)).mpr comment, (carries_take (by decide)).mpr createdTime, rfl,
        (by decide : (cstring (shownIp [])).take 16 = shownIp []), (by decide : toInt 0 = 0)⟩
    | some entry =>
      rw [found] at nickname comment createdTime
      obtain ⟨ip, port⟩ := net entry found
      refine ⟨?_, nickname, comment, createdTime, rfl, ?_, toInt_of_isInt port⟩
      · rw [childEntry_uuid found]
        exact uuid
      · exact fitsField_iff.mp (fitsField_shownIp.mpr ip)
  · unfold readChild childView
    cases found : childEntry sessions refAdminUuid row.uuid with
    | none =>
      rintro ⟨uuid, nickname, comment, createdTime, _⟩
      refine ⟨(carries_take (by decide)).mp uuid, ?_, ?_, ?_, ?_⟩
      · rw [readBasic, found]
        exact (carries_take (by decide)).mp nickname
      · rw [readBasic, found]
        exact (carries_take (by decide)).mp comment
      · rw [readBasic, found]
        exact (carries_take (by decide)).mp createdTime
      · rintro entry known
        rw [found] at known
        cases known
    | some entry =>
      rintro ⟨uuid, nickname, comment, createdTime, _, ip, port⟩
      rw [childEntry_uuid found] at uuid
      refine ⟨uuid, ?_, ?_, ?_, ?_⟩
      · rw [readBasic, found]
        exact nickname
      · rw [readBasic, found]
        exact comment
      · rw [readBasic, found]
        exact createdTime
      · rintro entry known
        rw [found] at known
        cases known
        exact ⟨fitsField_shownIp.mp (fitsField_iff.mpr ip), toInt_eq_iff.mp port⟩

theorem ChildListable.short (listable : ChildListable sessions refAdminUuid row) :
    row.uuid.length ≤ 16 :=
  (carries_self.mp listable.uuid).2.2

/-- The client's list has an entry for each child. -/
theorem ListedChildren.entries {children : List ChildView} {records : List OnlineSession}
    (same : ∀ (index : Nat) (child : ChildView), children[index]? = some child →
      records[index]?.map viewOf = some child) : children.length ≤ records.length := by
  apply length_le_of_entries
  intro index child found
  obtain ⟨account, known, _⟩ := Option.map_eq_some_iff.mp (same index child found)
  exact ⟨account, known⟩

private theorem listedChildren_iff (pointerSize : ℕ+) (own : Bytes)
    (short : ∀ row ∈ storedChildren store refAdminUuid, row.uuid.length ≤ 16) :
    ListedChildren pointerSize own (accountListReply sessions store refAdminUuid)
        ((storedChildren store refAdminUuid).map (childView sessions refAdminUuid)) ↔
      (storedChildren store refAdminUuid).length * pointerSize < 2 ^ 31 ∧
        ∀ row ∈ storedChildren store refAdminUuid, ChildListable sessions refAdminUuid row := by
  have items := @mcList_items OnlineSession OnlineSession (startAccount own) mcAccountField
    OnlineSession.listed (arrivedAccount own) (fun account => ∀ text ∈ accountTexts account, text ≠ [])
    ((storedChildren store refAdminUuid).map (readChild sessions refAdminUuid))
    (fun account _ count rest accounts result room => recordLoop_account room account) pointerSize
  rw [List.length_map] at items
  rw [accountListReply_eq short]
  constructor
  · rintro ⟨req, listing, added, done, _, count, same⟩
    rw [parserAddAll_listReply fun account _ => listed_clean account] at added
    obtain rfl := Except.ok.inj added
    have whole := ListedChildren.entries same
    rw [List.length_map] at count whole
    obtain ⟨⟨few, sent⟩, rfl⟩ := (items listing).mp ⟨done, count, whole⟩
    refine ⟨few, fun row member => (childListable_iff own).mpr
      ⟨sent _ (List.mem_map_of_mem member), ?_⟩⟩
    obtain ⟨index, found⟩ := List.mem_iff_getElem?.mp member
    have arrives := same index (childView sessions refAdminUuid row) (by rw [List.getElem?_map, found]; rfl)
    simp only [List.getElem?_map, found, Option.map_some, Option.some.injEq] at arrives
    exact arrives
  · rintro ⟨few, listable⟩
    have sent : ∀ account ∈ (storedChildren store refAdminUuid).map (readChild sessions refAdminUuid),
        ∀ text ∈ accountTexts account, text ≠ [] := by
      intro account member
      obtain ⟨row, known, rfl⟩ := List.mem_map.mp member
      exact ((childListable_iff own).mp (listable row known)).1
    refine ⟨_, _, parserAddAll_listReply fun account _ => listed_clean account,
      ((items _).mpr ⟨⟨few, sent⟩, rfl⟩).1, rfl, ?_, ?_⟩
    · rw [List.length_map]
    · intro index child found
      rw [List.getElem?_map] at found
      obtain ⟨row, known, rfl⟩ := Option.map_eq_some_iff.mp found
      have arrives := ((childListable_iff own).mp (listable row (List.mem_of_getElem? known))).2
      simp only [List.getElem?_map, known, Option.map_some, arrives]

private theorem short_of_listed {pointerSize : Nat} {own : Bytes} {reply : Reply}
    (listed : ListedChildren pointerSize own reply
      ((storedChildren store refAdminUuid).map (childView sessions refAdminUuid))) :
    ∀ row ∈ storedChildren store refAdminUuid, row.uuid.length ≤ 16 := by
  intro row member
  obtain ⟨_, listing, _, done, _, _, same⟩ := listed
  obtain ⟨index, found⟩ := List.mem_iff_getElem?.mp member
  have arrives := same index (childView sessions refAdminUuid row)
    (by rw [List.getElem?_map, found, Option.map_some])
  obtain ⟨account, known, view⟩ := Option.map_eq_some_iff.mp arrives
  have uuid : account.basic.uuid = row.uuid := by
    have seen := congrArg ChildView.uuid view
    unfold childView at seen
    split at seen
    · exact seen
    · exact seen
  rw [← uuid]
  rcases mcList_records done with none | ⟨count, pairs, looped⟩
  · rw [none] at known
    cases known
  · exact mcAccountLoop_uuid looped account (List.mem_of_getElem? known)

private theorem not_listed_internal (pointerSize : Nat) (own : Bytes) (children : List ChildView) :
    ¬ ListedChildren pointerSize own (rid (-256)) children := by
  rintro ⟨req, listing, added, done, status, _⟩
  rw [parserAddAll_ok (by decide)] at added
  obtain rfl := Except.ok.inj added
  have failed : mcAccountList pointerSize own (some ((rid (-256)).map entryOf)) =
      .ok ⟨.internalError, [], 0⟩ := rfl
  rw [failed] at done
  obtain rfl := Except.ok.inj done
  cases status

/-- What an admin's client gets of the children stored for the admin, by statements that mean it. -/
theorem reqAccountList_listed_iff (pointerSize : ℕ+) (around : Surroundings) (own : Bytes)
    (online : onlineSessionRef server.sessions fd = some (index, session, held))
    (admin : isAdminAccount server.store around.toAmbient session.basic.uuid = true)
    (plain : AllPlain (accountListPrints server fd around.toAmbient)) :
    AllDenote (accountListPrints server fd around.toAmbient) ∧
    ∃ outcome reply, reqAccountList server fd around = .ok outcome ∧ outcome.reply = some reply ∧
      (ListedChildren pointerSize own reply ((storedChildren server.store session.basic.uuid).map
          (childView server.sessions session.basic.uuid)) ↔
        storedChildren server.store session.basic.uuid ≠ [] ∧
          (storedChildren server.store session.basic.uuid).length * pointerSize < 2 ^ 31 ∧
          ∀ row ∈ storedChildren server.store session.basic.uuid,
            ChildListable server.sessions session.basic.uuid row) := by
  obtain ⟨outcome, done, reply⟩ := reqAccountList_reply around online admin
  refine ⟨allDenote_iff.mpr plain, outcome, _, done, reply, ?_⟩
  by_cases none : storedChildren server.store session.basic.uuid = []
  · rw [if_pos none]
    exact iff_of_false (not_listed_internal pointerSize own _) fun known => known.1 none
  · rw [if_neg none, and_iff_right none]
    constructor
    · intro listed
      exact (listedChildren_iff pointerSize own (short_of_listed listed)).mp listed
    · intro known
      exact (listedChildren_iff pointerSize own fun row member => (known.2 row member).short).mpr known

end Server

private def parentSession : OnlineSession :=
  ⟨⟨ascii "a", ascii "w", [], [], [50]⟩, [], true, true, ⟨5, [], 0, true⟩⟩

private def parentStore : Store :=
  (dbAccountAdminAdd .init id ⟨[50], [], []⟩ ⟨ascii "a", ascii "w", [], []⟩).2

/-- The admin `a` is online on descriptor 5. -/
private def parentOnline (store : Store) : Server := ⟨store, [⟨parentSession, 0, false⟩], []⟩

private def childStore (nickname : Bytes) : Store :=
  (dbAccountChildAdd parentStore id ⟨[50], [], []⟩ (ascii "a")
    ⟨ascii "b", ascii "w", nickname, ascii "c"⟩).2

private def byDay : Surroundings := ⟨⟨[50], [], []⟩, none⟩

/-- A child with a nickname. -/
theorem listed_named_child : ∃ outcome reply,
    reqAccountList (parentOnline (childStore (ascii "n"))) 5 byDay = .ok outcome ∧
      outcome.reply = some reply ∧
      ListedChildren 8 (ascii "a") reply [⟨ascii "b", ascii "n", ascii "c", [50], false,
        ascii "0.0.0.0", 0⟩] := by
  have online : onlineSessionRef (parentOnline (childStore (ascii "n"))).sessions 5 =
      some (0, parentSession, [⟨parentSession, 1, false⟩]) := rfl
  obtain ⟨_, outcome, reply, done, sent, listed⟩ :=
    reqAccountList_listed_iff 8 byDay (ascii "a") online (by decide) (by decide +kernel)
  have stored : storedChildren (childStore (ascii "n")) (ascii "a") =
      [⟨ascii "b", ascii "w", ascii "n", ascii "c", [50]⟩] := by decide
  have shown : (storedChildren (childStore (ascii "n")) (ascii "a")).map
      (childView (parentOnline (childStore (ascii "n"))).sessions (ascii "a")) = [⟨ascii "b",
        ascii "n", ascii "c", [50], false, ascii "0.0.0.0", 0⟩] := by decide
  refine ⟨outcome, reply, done, sent, shown ▸ listed.mpr ⟨by decide, by decide, fun row member => ?_⟩⟩
  have member : row ∈ storedChildren (childStore (ascii "n")) (ascii "a") := member
  rw [stored] at member
  rw [List.mem_singleton.mp member]
  exact ⟨by decide, by decide, by decide, by decide, fun entry found => by cases found⟩

/-- Neither no child at all nor one without a nickname comes through. -/
theorem not_listed_empty :
    (∃ outcome reply, reqAccountList (parentOnline parentStore) 5 byDay = .ok outcome ∧
      outcome.reply = some reply ∧ storedChildren parentStore (ascii "a") = [] ∧
      ¬ ListedChildren 8 (ascii "a") reply []) ∧
    ∃ outcome reply, reqAccountList (parentOnline (childStore [])) 5 byDay = .ok outcome ∧
      outcome.reply = some reply ∧
      ¬ ListedChildren 8 (ascii "a") reply ((storedChildren (childStore []) (ascii "a")).map
        (childView (parentOnline (childStore [])).sessions (ascii "a"))) := by
  constructor
  · have online : onlineSessionRef (parentOnline parentStore).sessions 5 =
        some (0, parentSession, [⟨parentSession, 1, false⟩]) := rfl
    obtain ⟨outcome, done, reply⟩ := reqAccountList_reply byDay online (by decide)
    have none : storedChildren (parentOnline parentStore).store parentSession.basic.uuid = [] := by
      decide
    refine ⟨outcome, rid (-256), done, ?_, none, not_listed_internal _ _ _⟩
    rw [reply, if_pos none]
  · have online : onlineSessionRef (parentOnline (childStore [])).sessions 5 =
        some (0, parentSession, [⟨parentSession, 1, false⟩]) := rfl
    obtain ⟨outcome, done, reply⟩ := reqAccountList_reply byDay online (by decide)
    have some_ : ¬ storedChildren (parentOnline (childStore [])).store parentSession.basic.uuid = [] := by
      decide
    refine ⟨outcome, _, done, reply, fun listed => ?_⟩
    rw [if_neg some_] at listed
    have child : ⟨ascii "b", ascii "w", [], ascii "c", [50]⟩ ∈
        storedChildren (childStore []) (ascii "a") := by decide
    have nickname := (((listedChildren_iff 8 _ (short_of_listed listed)).mp listed).2 _ child).nickname
    exact absurd nickname (by decide)

end Livezure.Client
