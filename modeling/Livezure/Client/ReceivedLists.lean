import Livezure.Client.AccountList
import Livezure.Client.Conversation
import Livezure.Client.HostileList

/-! The lists of accounts and devices when the reply comes over a connection: each received key runs
on behind its separator, and the loops compare whole keys. -/
namespace Livezure.Client
open Livezure.Core Db Rpc Service

/-! ### The loops -/

section Loop
variable {Record : Type} {start : Option Bytes → Except Fault Record} {field : FieldOf Record}
  {fields : FieldKeys}

private theorem recordLoop_colons (branches : Branches start field fields)
    (plain : ∀ key ∈ fields.keys, 58 ∉ key) {count : Nat} {pairs : RpcReq} {records : List Record}
    (colons : ∀ pair ∈ pairs, 58 ∈ pair.key) :
    recordLoop start field count pairs records = .ok records := by
  induction pairs with
  | nil => rfl
  | cons pair rest ih =>
    have colon := colons pair List.mem_cons_self
    have other {key : Bytes} (clean : 58 ∉ key) : pair.key ≠ key := by
      intro same
      exact clean (same ▸ colon)
    have unknown : field pair.key pair.value = none :=
      branches.unknown _ _ fun known => plain _ known colon
    have control : ¬ (pair.key = ascii "rid" ∨ pair.key = ascii "count") :=
      not_or.mpr ⟨other (by decide), other (by decide)⟩
    rw [recordLoop, if_neg control, if_neg (other (by decide)), unknown]
    exact ih fun later member => colons later (List.mem_cons_of_mem _ member)

end Loop

/-- A list function that never enters its loop's branches. -/
def unfilled {Record : Type} (pointerSize : Nat) (req : Option RpcReq) : Except Fault (Listing Record) :=
  mcList pointerSize (fun _ _ => .ok []) req

section Received
variable {pairs : List (Bytes × Bytes)} (texts : ∀ pair ∈ pairs, TextPair pair) (tail : Bytes)
include texts

/-- The status and the count are looked up, and so arrive; no record does. -/
theorem mcList_received {Record : Type} {loop : Nat → RpcReq → Except Fault (List Record)}
    (skips : ∀ count req, (∀ entry ∈ req, 58 ∈ entry.key) → loop count req = .ok []) (pointerSize : Nat) :
    mcList pointerSize loop (receivedReq tail pairs) = unfilled pointerSize (addedReq pairs) := by
  have same := received_same texts tail
  have colons : ∀ req ∈ receivedReq tail pairs, ∀ entry ∈ req, 58 ∈ entry.key := by
    intro req held entry member
    unfold receivedReq at held
    split at held
    · cases held
    · obtain rfl := Option.some.inj held
      exact storedTexts_key (cTexts_texts texts) member
  have empty := receivedReq_none tail pairs
  unfold unfilled mcList
  cases received : receivedReq tail pairs with
  | none =>
    rw [empty.mp received]
  | some req =>
    cases added : addedReq pairs with
    | none =>
      cases received.symm.trans (empty.mpr added)
    | some other =>
      rw [received, added] at same
      have skipped := fun allocated => skips allocated req (colons req received)
      have number : checkRid (some req) "count" = checkRid (some other) "count" := by
        rw [checkRid, checkRid, same "count" (by decide)]
      simp only [same.checkRid, number, skipped]

end Received

private theorem mcAccountList_received {pairs : List (Bytes × Bytes)} (texts : ∀ pair ∈ pairs, TextPair pair)
    (tail : Bytes) (pointerSize : Nat) (own : Bytes) :
    mcAccountList pointerSize own (receivedReq tail pairs) = unfilled pointerSize (addedReq pairs) := by
  apply mcList_received texts tail
  intro count req colons
  exact recordLoop_colons (accountBranches own) (by decide) colons

private theorem mcDeviceList_received {pairs : List (Bytes × Bytes)} (texts : ∀ pair ∈ pairs, TextPair pair)
    (tail : Bytes) (pointerSize : Nat) :
    mcDeviceList pointerSize (receivedReq tail pairs) = unfilled pointerSize (addedReq pairs) := by
  apply mcList_received texts tail
  intro count req colons
  exact recordLoop_colons deviceBranches (by decide) colons

/-! ### The replies to an admin -/

theorem unfilled_counted {Record : Type} {pointerSize : ℕ+} {number : Nat}
    (few : number * pointerSize < 2 ^ 31) (items : Reply) :
    (unfilled pointerSize (addedReq (rid 0 ++ [(ascii "count", decimal number)] ++ items)) :
      Except Fault (Listing Record)) = .ok ⟨.ok, [], number⟩ := by
  let pairs := rid 0 ++ [(ascii "count", decimal number)] ++ items
  have accepted : checkRid (some ((cTexts pairs).map entryOf)) "rid" = 0 := rfl
  have found : checkRid (some ((cTexts pairs).map entryOf)) "count" =
      atoi (((pointer (cstring (decimal number))).map cstring).getD (ascii "-256")) := rfl
  have counted : checkRid (some ((cTexts pairs).map entryOf)) "count" = number := by
    have less : number ≤ number * pointerSize := Nat.le_mul_of_pos_right _ pointerSize.pos
    have small : IsInt (number : Int) := ⟨by omega, by omega⟩
    rw [found, cstring_of_clean (decimal_clean _), pointer, if_neg (decimal_ne_nil _), Option.map_some,
      Option.getD_some, cstring_of_clean (decimal_clean _), atoi_decimal, toInt_eq_iff.mpr small]
  have nonempty : pairs ≠ [] := List.cons_ne_nil _ _
  unfold unfilled mcList
  rw [addedReq, if_neg nonempty]
  simp only [pairs] at accepted counted
  dsimp only
  rw [accepted, counted, if_pos rfl]
  split
  · rename_i none
    rw [none]
  · have fits : Fits 32 ((number : Int) * (pointerSize : Nat)) := by
      rw [← Int.natCast_mul]
      exact ⟨by omega, by omega⟩
    rw [xcallocPointers_ok pointerSize.pos (Int.natCast_nonneg _) fits]
    rfl

private theorem dispatched_done {hash : Bytes → Bytes} {around : Surroundings} {server : Server}
    {outcome : Service.Outcome} {kind : RpcKind} {handler : Handler} {fd : Int} {req : Option RpcReq} {reply : Reply}
    (handles : (registered.find? fun entry => entry.1 == kind) = some (kind, handler))
    (ran : Request.run hash around server ⟨handler, fd, req⟩ = .ok outcome)
    (sent : outcome.reply = some reply) :
    dispatched hash around server kind fd req = some (outcome.server, reply) := by
  simp only [dispatched, handles, ran, sent, Option.map_some]

section Lists
variable {rpcIdEncrypt : BitVec 6} (known : RpcCryptType.ofField rpcIdEncrypt ≠ .unknown)
  (hash : Bytes → Bytes) {server : Server} {link : Link} {action : CallAction} {index : Nat}
  {session : OnlineSession} {held : List SessionEntry} (near : Idle link.near) (far : Idle link.far)
  (online : onlineSessionRef server.sessions link.fd = some (index, session, held))
  (admin : isAdminAccount server.store action.around.toAmbient session.basic.uuid = true)
  (asked : TextsFit rpcIdEncrypt link.far [])
include known near far online admin asked

private theorem accounts_received (pointerSize : ℕ+) (own : Bytes)
    (children : storedChildren server.store session.basic.uuid ≠ [])
    (few : (storedChildren server.store session.basic.uuid).length * pointerSize < 2 ^ 31)
    (fits : TextsFit rpcIdEncrypt link.near
      (accountListReply server.sessions server.store session.basic.uuid)) :
    ∃ after link' res, exchange rpcIdEncrypt hash server link action ⟨2, 5⟩ [] = some (after, link', res) ∧
      mcAccountList pointerSize own res = .ok ⟨.ok, [], (storedChildren server.store session.basic.uuid).length⟩ := by
  obtain ⟨outcome, ran, sent⟩ := reqAccountList_reply action.around online admin
  rw [if_neg children] at sent
  have done : dispatched hash action.around server ⟨2, 5⟩ link.fd (addedReq []) =
      some (outcome.server, accountListReply server.sessions server.store session.basic.uuid) :=
    @dispatched_done hash action.around server outcome ⟨2, 5⟩ .accountList link.fd _ _ rfl ran sent
  obtain ⟨link', tail, exchanged, _⟩ := exchange_replied known near far
    (fun _ member => absurd member List.not_mem_nil) asked done fits
  refine ⟨_, link', _, exchanged, ?_⟩
  rw [mcAccountList_received (dispatched_texts done)]
  have counted := @unfilled_counted OnlineSession pointerSize _ few ((storedChildren server.store
    session.basic.uuid).map AccountBasic.fetched |>.flatMap fun account =>
      ((onlineSessionTryGetChild server.sessions server.store session.basic.uuid account.uuid).map
        OnlineSession.listed).getD [])
  rw [accountListReply, List.length_map]
  exact counted

private theorem devices_received (pointerSize : ℕ+)
    (few : (storedDevices server.store session.basic.uuid).length * pointerSize < 2 ^ 31)
    (fits : TextsFit rpcIdEncrypt link.near (deviceListReply (storedDevices server.store session.basic.uuid))) :
    ∃ after link' res, exchange rpcIdEncrypt hash server link action ⟨3, 3⟩ [] = some (after, link', res) ∧
      mcDeviceList pointerSize res = .ok ⟨.ok, [], (storedDevices server.store session.basic.uuid).length⟩ := by
  obtain ⟨outcome, ran, sent⟩ := reqDeviceList_reply action.around online admin
  have done : dispatched hash action.around server ⟨3, 3⟩ link.fd (addedReq []) =
      some (outcome.server, deviceListReply (storedDevices server.store session.basic.uuid)) :=
    @dispatched_done hash action.around server outcome ⟨3, 3⟩ .deviceList link.fd _ _ rfl ran sent
  obtain ⟨link', tail, exchanged, _⟩ := exchange_replied known near far
    (fun _ member => absurd member List.not_mem_nil) asked done fits
  refine ⟨_, link', _, exchanged, ?_⟩
  rw [mcDeviceList_received (dispatched_texts done), deviceListReply, unfilled_counted few]

/-- Over a connection an admin's client is told how many children and devices there are, and gets none of
them, by statements that mean it. -/
theorem lists_received (pointerSize : ℕ+) (own : Bytes)
    (plainAccounts : AllPlain (accountListPrints server link.fd action.around.toAmbient))
    (plainDevices : AllPlain (deviceListPrints server link.fd action.around.toAmbient))
    (children : storedChildren server.store session.basic.uuid ≠ [])
    (fewChildren : (storedChildren server.store session.basic.uuid).length * pointerSize < 2 ^ 31)
    (fewDevices : (storedDevices server.store session.basic.uuid).length * pointerSize < 2 ^ 31)
    (childrenFit : TextsFit rpcIdEncrypt link.near
      (accountListReply server.sessions server.store session.basic.uuid))
    (devicesFit : TextsFit rpcIdEncrypt link.near
      (deviceListReply (storedDevices server.store session.basic.uuid))) :
    (AllDenote (accountListPrints server link.fd action.around.toAmbient) ∧
      AllDenote (deviceListPrints server link.fd action.around.toAmbient)) ∧
    (∃ after link' res, exchange rpcIdEncrypt hash server link action ⟨2, 5⟩ [] = some (after, link', res) ∧
      mcAccountList pointerSize own res = .ok ⟨.ok, [], (storedChildren server.store session.basic.uuid).length⟩) ∧
    ∃ after link' res, exchange rpcIdEncrypt hash server link action ⟨3, 3⟩ [] = some (after, link', res) ∧
      mcDeviceList pointerSize res = .ok ⟨.ok, [], (storedDevices server.store session.basic.uuid).length⟩ :=
  ⟨⟨allDenote_iff.mpr plainAccounts, allDenote_iff.mpr plainDevices⟩,
    accounts_received known hash near far online admin asked pointerSize own children fewChildren childrenFit,
    devices_received known hash near far online admin asked pointerSize fewDevices devicesFit⟩

end Lists

/-- The admin "a" with the child "b" and a device "d". -/
private def familyStore : Store :=
  let time : Ambient := ⟨[50], [], []⟩
  let admin := (dbAccountAdminAdd .init id time ⟨[97], [119], [], []⟩).2
  let child := (dbAccountChildAdd admin id time [97] ⟨[98], [119], [110], [99]⟩).2
  (dbAccountDeviceAdd child time [97] ⟨[100], [112], ascii "1.2.3.4", 1, [117], [119], 0, [102], 4, 10, [50],
    [110], [99], false, []⟩).2

private def familySession : OnlineSession := ⟨⟨[97], [119], [], [], [50]⟩, [], true, true, ⟨5, [], 0, true⟩⟩

private def familyServer : Server := ⟨familyStore, [⟨familySession, 0, false⟩], []⟩

theorem lists_received_family :
    (∃ after link' res, exchange 1 id familyServer ⟨5, rpcIoNew 7, rpcIoNew 5⟩ (callOf .heartbeat) ⟨2, 5⟩ [] =
        some (after, link', res) ∧ mcAccountList 8 [97] res = .ok ⟨.ok, [], 1⟩) ∧
    ∃ after link' res, exchange 1 id familyServer ⟨5, rpcIoNew 7, rpcIoNew 5⟩ (callOf .heartbeat) ⟨3, 3⟩ [] =
        some (after, link', res) ∧ mcDeviceList 8 res = .ok ⟨.ok, [], 1⟩ := by
  have online : onlineSessionRef familyServer.sessions 5 =
      some (0, familySession, [⟨familySession, 1, false⟩]) := rfl
  have both := (@lists_received 1 (by decide) id familyServer ⟨5, rpcIoNew 7, rpcIoNew 5⟩
    (callOf .heartbeat) 0 familySession _ (.new 7) (.new 5) online (by decide +kernel) (by decide +kernel) 8
    [97] (by decide +kernel) (by decide +kernel) (by decide +kernel) (by decide +kernel) (by decide +kernel)
    (by decide +kernel) (by decide +kernel)).2
  have oneChild : (storedChildren familyServer.store familySession.basic.uuid).length = 1 := by decide +kernel
  have oneDevice : (storedDevices familyServer.store familySession.basic.uuid).length = 1 := by decide +kernel
  rw [oneChild, oneDevice] at both
  exact both

end Livezure.Client
