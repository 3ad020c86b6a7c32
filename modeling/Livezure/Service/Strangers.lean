import Livezure.Service.Authority

/-! What a server tells of its tables before anybody has logged in. -/
namespace Livezure.Service
open Livezure.Core Db Rpc

/-- The request is no login with the right password. -/
def Wrong (hash : Bytes → Bytes) (store : Store) (request : Request) : Prop :=
  request.handler = .accountLogin → ∀ given ∈ loginParams request.req,
    ∀ row ∈ store.basic.rows, row.uuid = given.1 → row.pwd ≠ hash given.2

/-- A request gives the same reply on both tables, and leaves both. -/
def RepliesAlike (left right : Store) (run : Server → Except Fault Outcome) : Prop :=
  (∃ fault, run ⟨left, [], []⟩ = .error fault ∧ run ⟨right, [], []⟩ = .error fault) ∨
    ∃ reply found, run ⟨left, [], []⟩ = .ok ⟨⟨left, [], []⟩, some reply, found⟩ ∧
      run ⟨right, [], []⟩ = .ok ⟨⟨right, [], []⟩, some reply, found⟩

section Strangers
variable {left right : Store}

private theorem answer_alike (reply : Reply) : RepliesAlike left right fun server => answer server reply :=
  .inr ⟨reply, none, rfl, rfl⟩

private theorem withOnlineSession_alike (fd : Int)
    (body : Server → OnlineSession → Except Fault (Store × Reply)) :
    RepliesAlike left right fun server => withOnlineSession server fd (body server) :=
  .inr ⟨rid (-300), some none, rfl, rfl⟩

private theorem reqPlay_alike (fd : Int) (req : Option RpcReq)
    (work : Store → List DeviceEntry → Bytes → List DeviceEntry × Reply) :
    RepliesAlike left right fun server => reqPlay server fd req work := by
  unfold reqPlay
  cases parserGet req "uuid" with
  | none => exact answer_alike _
  | some uuid => exact .inr ⟨rid (-300), some none, rfl, rfl⟩

private theorem reqVersionCheck_alike (req : Option RpcReq) :
    RepliesAlike left right fun server => reqVersionCheck server req := by
  unfold reqVersionCheck
  cases parserGet req "ver" with
  | none => exact answer_alike _
  | some ver =>
    cases parserGet req "pid" with
    | none => exact .inl ⟨.nullPointer, rfl, rfl⟩
    | some pid =>
      dsimp only
      split
      · exact answer_alike _
      · exact answer_alike _

private theorem reqAccountLogin_wrong {hash : Bytes → Bytes} {around : Surroundings} {request : Request}
    {store : Store} {uuid pwd : Bytes} (wrong : Wrong hash store request)
    (login : request.handler = .accountLogin) (given : loginParams request.req = some (uuid, pwd)) :
    dbAccountCheckUserIsOk store hash around.toAmbient uuid pwd = none := by
  rw [← Option.not_isSome_iff_eq_none, dbAccountCheckUserIsOk_isSome]
  rintro ⟨row, member, same, right⟩
  exact wrong login _ given row member same right

private theorem reqAccountLogin_alike {hash : Bytes → Bytes} {around : Surroundings} {request : Request}
    (wrongLeft : Wrong hash left request) (wrongRight : Wrong hash right request)
    (login : request.handler = .accountLogin) : RepliesAlike left right fun server =>
      reqAccountLogin server request.fd request.req hash around := by
  unfold reqAccountLogin
  cases given : loginParams request.req with
  | none => exact answer_alike _
  | some pair =>
    obtain ⟨uuid, pwd⟩ := pair
    refine .inr ⟨rid (-1), none, ?_, ?_⟩
    · simp only [reqAccountLogin_wrong wrongLeft login given]
      rfl
    · simp only [reqAccountLogin_wrong wrongRight login given]
      rfl

private theorem reqAccountCreate_alike {hash : Bytes → Bytes} {around : Surroundings} (fd : Int)
    (req : Option RpcReq) (names : ∀ uuid, uuid ∈ left.basic.keys ↔ uuid ∈ right.basic.keys) :
    RepliesAlike left right fun server => reqAccountCreate server fd req hash around := by
  unfold reqAccountCreate
  cases accountCreateParams req with
  | none => exact answer_alike _
  | some account =>
    have same : (dbAccountCheckUserExist left around.toAmbient account.uuid).isSome =
        (dbAccountCheckUserExist right around.toAmbient account.uuid).isSome := by
      rw [Bool.eq_iff_iff, dbAccountCheckUserExist_isSome, dbAccountCheckUserExist_isSome]
      exact names account.uuid
    unfold RepliesAlike
    dsimp only
    rw [same]
    cases (dbAccountCheckUserExist right around.toAmbient account.uuid).isSome with
    | true => exact .inr ⟨_, _, rfl, rfl⟩
    | false => exact .inr ⟨_, _, rfl, rfl⟩

private theorem reqAccountModify_alike {hash : Bytes → Bytes} {around : Surroundings} (fd : Int)
    (req : Option RpcReq) :
    RepliesAlike left right fun server => reqAccountModify server fd req hash around := by
  unfold reqAccountModify
  cases accountModifyParams req with
  | none => exact answer_alike _
  | some _ => exact withOnlineSession_alike fd _

private theorem reqAccountDelete_alike {hash : Bytes → Bytes} {around : Surroundings} (fd : Int)
    (req : Option RpcReq) :
    RepliesAlike left right fun server => reqAccountDelete server fd req hash around := by
  unfold reqAccountDelete
  cases accountDeleteParams req with
  | none => exact answer_alike _
  | some _ => exact withOnlineSession_alike fd _

private theorem reqDeviceDelete_alike {around : Surroundings} (fd : Int) (req : Option RpcReq) :
    RepliesAlike left right fun server => reqDeviceDelete server fd req around := by
  unfold reqDeviceDelete
  cases parserGet req "uuid" with
  | none => exact answer_alike _
  | some _ => exact withOnlineSession_alike fd _

theorem Request.alike {hash : Bytes → Bytes} {around : Surroundings} {request : Request}
    (names : ∀ uuid, uuid ∈ left.basic.keys ↔ uuid ∈ right.basic.keys)
    (wrongLeft : Wrong hash left request) (wrongRight : Wrong hash right request) :
    RepliesAlike left right fun server => request.run hash around server := by
  obtain ⟨handler, fd, req⟩ := request
  cases handler
  case versionCheck => exact reqVersionCheck_alike req
  case heartbeat => exact .inr ⟨_, _, rfl, rfl⟩
  case accountLogin => exact reqAccountLogin_alike wrongLeft wrongRight rfl
  case accountLogout => exact .inr ⟨_, _, rfl, rfl⟩
  case accountCreate => exact reqAccountCreate_alike fd req names
  case accountModify => exact reqAccountModify_alike fd req
  case accountDelete => exact reqAccountDelete_alike fd req
  case accountList => exact .inr ⟨_, _, rfl, rfl⟩
  case deviceCreate => exact .inr ⟨_, _, rfl, rfl⟩
  case deviceDelete => exact reqDeviceDelete_alike fd req
  case deviceList => exact .inr ⟨_, _, rfl, rfl⟩
  case playDevice =>
    simp only [Request.run, reqPlayDevice]
    exact reqPlay_alike fd req _
  case playStop =>
    simp only [Request.run, reqPlayStop]
    exact reqPlay_alike fd req _
  case playTouch =>
    simp only [Request.run, reqPlayTouch]
    exact reqPlay_alike fd req _

end Strangers

namespace Network

/-- The server with these tables before the first connection. -/
def opened (store : Store) : Network := ⟨⟨store, [], []⟩, 0, [], [], false, [], [], []⟩

def withStore (network : Network) (store : Store) : Network := { network with server.store := store }

theorem NoPassword.wrong {hash : Bytes → Bytes} {network : Network} {index : Nat}
    {around : Surroundings} {waiting : Waiting}
    (none_ : NoPassword hash (fun _ _ => True) network (.handle index around))
    (taken : network.waiting[index]? = some waiting) :
    Wrong hash network.server.store waiting.request :=
  fun login given known => none_ waiting taken login given known trivial

/-- One step of a server without sessions, on two tables with the same accounts. -/
theorem step_alike {hash : Bytes → Bytes} {left right : Store} {before after : Network}
    {action : NetworkAction} (names : ∀ uuid, uuid ∈ left.basic.keys ↔ uuid ∈ right.basic.keys)
    (idle : before.server = ⟨left, [], []⟩)
    (metLeft : NoPassword hash (fun _ _ => True) before action)
    (metRight : NoPassword hash (fun _ _ => True) (before.withStore right) action)
    (step : next hash before action = some after) : after.server = ⟨left, [], []⟩ ∧
      next hash (before.withStore right) action = some (after.withStore right) := by
  have idleRight : (before.withStore right).server = ⟨right, [], []⟩ := by
    simp only [withStore, idle]
  cases action with
  | accept fd =>
    simp only [next] at step ⊢
    split at step
    · cases step
    · rename_i fresh
      obtain rfl := Option.some.inj step
      exact ⟨idle, if_neg fresh⟩
  | close connection =>
    obtain rfl := Option.some.inj step
    exact ⟨idle, rfl⟩
  | arrive connection handler req =>
    simp only [next] at step ⊢
    cases found : before.live.find? fun open_ => decide (open_.1 = connection) with
    | none =>
      rw [found] at step
      cases step
    | some open_ =>
      rw [found] at step
      obtain rfl := Option.some.inj step
      refine ⟨idle, ?_⟩
      simp only [withStore, found]
  | handle index around =>
    simp only [next] at step ⊢
    cases taken : before.waiting[index]? with
    | none =>
      rw [taken] at step
      cases step
    | some waiting =>
      have wrongLeft := NoPassword.wrong metLeft taken
      have wrongRight := NoPassword.wrong metRight taken
      rw [idle] at wrongLeft
      rw [idleRight] at wrongRight
      simp only [taken, idle] at step
      simp only [show (before.withStore right).waiting = before.waiting from rfl, taken, idleRight]
      rcases @Request.alike _ _ hash around _ names wrongLeft wrongRight with
        ⟨fault, failed, _⟩ | ⟨reply, found, first, second⟩
      · simp only [failed] at step
        cases step
      · simp only [first] at step
        obtain rfl := Option.some.inj step
        refine ⟨rfl, ?_⟩
        simp only [second]
        rfl
  | tick =>
    simp only [next] at step ⊢
    simp only [show (before.withStore right).isTimerStuck = before.isTimerStuck from rfl, idleRight]
    split at step
    · cases step
    · rename_i runs
      obtain rfl := Option.some.inj step
      rw [if_neg runs]
      simp only [withStore, idle, onlineSessionCheckAllHearbeat]
      exact ⟨trivial, trivial⟩

/-- Before the first login with a right password a server tells nothing of its tables but which
accounts there are: with other tables of the same accounts every request is answered alike, by
statements that mean it. -/
theorem strangers_alike (hash : Bytes → Bytes) (left right : Store)
    (names : ∀ uuid, uuid ∈ left.basic.keys ↔ uuid ∈ right.basic.keys) (network : Network)
    (actions : List NetworkAction)
    (plainLeft : (system hash).Guarded (PlainTexts hash) (opened left) actions)
    (plainRight : (system hash).Guarded (PlainTexts hash) (opened right) actions)
    (metLeft : (system hash).Guarded (NoPassword hash fun _ _ => True) (opened left) actions)
    (metRight : (system hash).Guarded (NoPassword hash fun _ _ => True) (opened right) actions)
    (done : (system hash).run (opened left) actions = some network) :
    (system hash).Guarded (DenotingTexts hash) (opened left) actions ∧
    (system hash).Guarded (DenotingTexts hash) (opened right) actions ∧
    network.server = ⟨left, [], []⟩ ∧ ∃ other,
      (system hash).run (opened right) actions = some other ∧ other.answers = network.answers ∧
      other.server = ⟨right, [], []⟩ := by
  have alike : ∀ before : Network, before.server = ⟨left, [], []⟩ →
      (system hash).Guarded (NoPassword hash fun _ _ => True) before actions →
      (system hash).Guarded (NoPassword hash fun _ _ => True) (before.withStore right) actions →
      (system hash).run before actions = some network → network.server = ⟨left, [], []⟩ ∧
        (system hash).run (before.withStore right) actions = some (network.withStore right) := by
    clear plainLeft plainRight metLeft metRight done
    induction actions with
    | nil =>
      intro before idle _ _ done
      obtain rfl := Option.some.inj done
      exact ⟨idle, rfl⟩
    | cons action actions ih =>
      intro before idle metLeft metRight done
      obtain ⟨middle, first, rest⟩ := Option.bind_eq_some_iff.mp done
      obtain ⟨stays, other⟩ := step_alike names idle metLeft.1 metRight.1 first
      obtain ⟨ended, later⟩ := ih middle stays (metLeft.2 middle first)
        (metRight.2 (middle.withStore right) other) rest
      exact ⟨ended, System.run_cons other later⟩
  obtain ⟨idle, other⟩ := alike (opened left) rfl metLeft metRight done
  refine ⟨guarded_denotingTexts plainLeft, guarded_denotingTexts plainRight, idle, _, other, rfl, ?_⟩
  simp only [withStore, idle]

/-- A stranger guesses the password of "a". -/
def guess : List NetworkAction :=
  [.accept 5,
    .arrive 0 .accountLogin (some [param "pid" (ascii "100"), param "uuid" [97], param "pwd" [120]]),
    .handle 0 quiet,
    .arrive 0 .accountCreate (some [param "uuid" [97], param "pwd" [120]]), .handle 0 quiet]

/-- "a" has the password "q" and is no admin. -/
def otherTables : Store := { Store.init with basic := ⟨[⟨[97], [113], [], [], [50]⟩], by decide⟩ }

/-- The same answers on tables where "a" has another password and is no admin. -/
theorem strangers_alike_guess : ∃ network other, (system id).run oneAdmin guess = some network ∧
    network.answers.map Answered.reply = [some (rid (-1)), some (rid (-2))] ∧
    (system id).run (opened otherTables) guess = some other ∧
    other.answers = network.answers := by
  have plainLeft : (system id).Guarded (PlainTexts id) oneAdmin guess := by decide +kernel
  have plainRight : (system id).Guarded (PlainTexts id) (opened otherTables) guess := by decide +kernel
  have metLeft : (system id).Guarded (NoPassword id fun _ _ => True) oneAdmin guess := by
    decide +kernel
  have metRight : (system id).Guarded (NoPassword id fun _ _ => True) (opened otherTables) guess := by
    decide +kernel
  obtain ⟨_, _, _, other, ran, same, _⟩ := strangers_alike id oneAdmin.server.store otherTables
    (fun _ => Iff.rfl) _ guess plainLeft plainRight metLeft metRight rfl
  exact ⟨_, other, rfl, by decide +kernel, ran, same⟩

end Network

end Livezure.Service
