import Livezure.Rpc.Request
import Mathlib.Data.List.Nodup

/-! Which request a reply is taken for. A reply carries no number: it goes to the
first handle registered for its kind. -/
namespace Livezure.Rpc
open Livezure.Core

/-- The callback of the handle is registered. -/
def HandlePhase.Registered (phase : HandlePhase) : Prop :=
  phase = .calling ∨ phase = .held

namespace ReplyPhase
variable {ρ : Type}

/-- The reply has not been dispatched yet. -/
def Outstanding : ReplyPhase ρ → Prop
  | .awaited | .arrived _ => True
  | _ => False

/-- The handle that `rpc_default_dispatcher` works on. -/
def target : ReplyPhase ρ → Option Nat
  | .handing _ handle | .signalling handle => some handle
  | _ => none

/-- `rpc_default_dispatcher` has stored the reply, or the reply found no handle. -/
def Over : ReplyPhase ρ → Prop
  | .signalling _ | .done => True
  | _ => False

instance (phase : ReplyPhase ρ) : Decidable phase.Outstanding := by
  cases phase <;> unfold Outstanding <;> infer_instance

theorem Outstanding.not_over {phase : ReplyPhase ρ} (outstanding : phase.Outstanding) :
    ¬ phase.Over := by
  cases phase with
  | awaited | arrived => exact id
  | unsent | handing | signalling | done => exact outstanding.elim

end ReplyPhase

namespace RpcClient
variable {ρ : Type}

/-- What `rpc_request_ok` gives for a handle is the reply to its own request; a
reply is stored once, and over no other. -/
def RepliesMatched : Except Fault (RpcClient ρ) → Prop
  | .error _ => False
  | .ok client =>
    (∀ (handle : Nat) (exchange : Exchange ρ), client.exchanges[handle]? = some exchange →
      exchange.phase = .held → ∀ response, client.rpcRequestOk handle = .ok (some response) →
      response.request = handle) ∧ client.stores.Nodup ∧ client.overwritten = false

/-- When replies can be told apart by their kind: a request is made only while no
handle of its kind is registered and no reply of its kind is outstanding, and a
handle is destroyed only while no reply is being handed to it. -/
def ReplyGuard : Except Fault (RpcClient ρ) → Action ρ → Prop
  | .error _, _ => False
  | .ok client, .new kind => (∀ dispatch ∈ client.dispatchList, dispatch.kind ≠ kind) ∧
      ∀ exchange ∈ client.exchanges, exchange.reply.Outstanding → exchange.kind ≠ kind
  | .ok client, .destroy handle =>
    ∀ exchange ∈ client.exchanges, exchange.reply.target ≠ some handle
  | .ok _, _ => True

instance (state : Except Fault (RpcClient ρ)) (action : Action ρ) :
    Decidable (ReplyGuard state action) := by
  cases state with
  | error fault => exact .isFalse id
  | ok client => cases action <;> unfold ReplyGuard <;> infer_instance

/-- What guarded steps keep. -/
structure Matched (client : RpcClient ρ) : Prop where
  registered : ∀ dispatch ∈ client.dispatchList, ∃ exchange : Exchange ρ,
    client.exchanges[dispatch.handle]? = some exchange ∧ exchange.kind = dispatch.kind ∧
      exchange.phase.Registered
  listed : ∀ (handle : Nat) (exchange : Exchange ρ), client.exchanges[handle]? = some exchange →
    exchange.phase.Registered → ⟨exchange.kind, handle⟩ ∈ client.dispatchList
  kinds : (client.dispatchList.map RpcDispatch.kind).Nodup
  own : ∀ (handle : Nat) (exchange : Exchange ρ), client.exchanges[handle]? = some exchange →
    exchange.reply.Outstanding → ∀ dispatch ∈ client.dispatchList,
    dispatch.kind = exchange.kind → dispatch.handle = handle
  apart : ∀ (one other : Nat) (left right : Exchange ρ), client.exchanges[one]? = some left →
    client.exchanges[other]? = some right → left.reply.Outstanding → right.reply.Outstanding →
    left.kind = right.kind → one = other
  unsent : ∀ exchange ∈ client.exchanges, exchange.phase = .calling → exchange.reply = .unsent
  handed : ∀ (handle : Nat) (exchange : Exchange ρ), client.exchanges[handle]? = some exchange →
    ∀ target, exchange.reply.target = some target → target = handle ∧ exchange.phase = .held
  stored : ∀ (handle : Nat) (exchange : Exchange ρ), client.exchanges[handle]? = some exchange →
    ∀ response, exchange.req = some response → response.request = handle ∧ exchange.reply.Over
  stores : ∀ request ∈ client.stores, ∃ exchange : Exchange ρ,
    client.exchanges[request]? = some exchange ∧ exchange.reply.Over
  once : client.stores.Nodup
  fresh : client.overwritten = false

private theorem change_same {client : RpcClient ρ} {handle : Nat} {exchange : Exchange ρ}
    (f : Exchange ρ → Exchange ρ) (found : client.exchanges[handle]? = some exchange) :
    (client.change handle f).exchanges[handle]? = some (f exchange) := by
  simp [change, found]

private theorem change_other {client : RpcClient ρ} {handle other : Nat} (f : Exchange ρ → Exchange ρ)
    (differ : handle ≠ other) :
    (client.change handle f).exchanges[other]? = client.exchanges[other]? := by
  simp [change, differ]

private theorem change_some {client : RpcClient ρ} {handle other : Nat} {f : Exchange ρ → Exchange ρ}
    {changed : Exchange ρ} (found : (client.change handle f).exchanges[other]? = some changed) :
    (handle ≠ other ∧ client.exchanges[other]? = some changed) ∨
      handle = other ∧ ∃ exchange, client.exchanges[other]? = some exchange ∧
        changed = f exchange := by
  by_cases same : handle = other
  · subst same
    cases before : client.exchanges[handle]? with
    | none => simp [change, before] at found
    | some exchange =>
      rw [change_same f before] at found
      exact .inr ⟨rfl, exchange, rfl, (Option.some.inj found).symm⟩
  · rw [change_other f same] at found
    exact .inl ⟨same, found⟩

namespace Matched
variable {client : RpcClient ρ} (matched : client.Matched)
include matched

/-- A change of one exchange, and of the list with its registration. -/
theorem relisted {handle : Nat} {exchange : Exchange ρ}
    (found : client.exchanges[handle]? = some exchange) {f : Exchange ρ → Exchange ρ}
    {list : List RpcDispatch} (sub : list.Sublist client.dispatchList)
    (others : ∀ dispatch ∈ client.dispatchList, dispatch.handle ≠ handle → dispatch ∈ list)
    (kind : (f exchange).kind = exchange.kind)
    (phase : (f exchange).phase.Registered ↔ ⟨exchange.kind, handle⟩ ∈ list)
    (own : (f exchange).reply.Outstanding → ∀ dispatch ∈ client.dispatchList,
      dispatch.kind = exchange.kind → dispatch.handle = handle)
    (apart : (f exchange).reply.Outstanding → ∀ (other : Nat) (right : Exchange ρ),
      client.exchanges[other]? = some right → right.reply.Outstanding →
      exchange.kind = right.kind → handle = other)
    (unsent : (f exchange).phase = .calling → (f exchange).reply = .unsent)
    (handed : ∀ target, (f exchange).reply.target = some target →
      target = handle ∧ (f exchange).phase = .held)
    (stored : ∀ response, (f exchange).req = some response →
      response.request = handle ∧ (f exchange).reply.Over)
    (finished : exchange.reply.Over → (f exchange).reply.Over) :
    Matched { client.change handle f with dispatchList := list } where
  registered := by
    intro dispatch member
    obtain ⟨before, there, same, registered⟩ := matched.registered dispatch (sub.subset member)
    by_cases here : handle = dispatch.handle
    · subst here
      obtain rfl := Option.some.inj (found.symm.trans there)
      exact ⟨f exchange, change_same f found, kind.trans same, phase.mpr (same ▸ member)⟩
    · exact ⟨before, (change_other f here).trans there, same, registered⟩
  listed := by
    intro other changed there registered
    rcases change_some there with ⟨differ, before⟩ | ⟨rfl, before, old, rfl⟩
    · exact others _ (matched.listed other changed before registered) fun same => differ same.symm
    · obtain rfl := Option.some.inj (found.symm.trans old)
      rw [kind]
      exact phase.mp registered
  kinds := matched.kinds.sublist (sub.map _)
  own := by
    intro other changed there outstanding dispatch member same
    rcases change_some there with ⟨_, before⟩ | ⟨rfl, before, old, rfl⟩
    · exact matched.own other changed before outstanding dispatch (sub.subset member) same
    · obtain rfl := Option.some.inj (found.symm.trans old)
      exact own outstanding dispatch (sub.subset member) (same.trans kind)
  apart := by
    intro one other left right here there outstandingLeft outstandingRight same
    rcases change_some here with ⟨_, before⟩ | ⟨rfl, before, old, rfl⟩
    · rcases change_some there with ⟨_, after⟩ | ⟨rfl, after, old, rfl⟩
      · exact matched.apart one other left right before after outstandingLeft outstandingRight same
      · obtain rfl := Option.some.inj (found.symm.trans old)
        exact (apart outstandingRight one left before outstandingLeft
          (kind.symm.trans same.symm)).symm
    · obtain rfl := Option.some.inj (found.symm.trans old)
      rcases change_some there with ⟨_, after⟩ | ⟨rfl, _⟩
      · exact apart outstandingLeft other right after outstandingRight (kind.symm.trans same)
      · rfl
  unsent := by
    intro changed member calling
    obtain ⟨other, bound, rfl⟩ := List.getElem_of_mem member
    rcases change_some (List.getElem?_eq_getElem bound) with ⟨_, before⟩ | ⟨rfl, before, old, same⟩
    · exact matched.unsent _ (List.mem_of_getElem? before) calling
    · obtain rfl := Option.some.inj (found.symm.trans old)
      rw [same] at calling ⊢
      exact unsent calling
  handed := by
    intro other changed there target handing
    rcases change_some there with ⟨_, before⟩ | ⟨rfl, before, old, rfl⟩
    · exact matched.handed other changed before target handing
    · obtain rfl := Option.some.inj (found.symm.trans old)
      exact handed target handing
  stored := by
    intro other changed there response value
    rcases change_some there with ⟨_, before⟩ | ⟨rfl, before, old, rfl⟩
    · exact matched.stored other changed before response value
    · obtain rfl := Option.some.inj (found.symm.trans old)
      exact stored response value
  stores := by
    intro request member
    obtain ⟨before, there, done⟩ := matched.stores request member
    by_cases here : handle = request
    · subst here
      obtain rfl := Option.some.inj (found.symm.trans there)
      exact ⟨f exchange, change_same f found, finished done⟩
    · exact ⟨before, (change_other f here).trans there, done⟩
  once := matched.once
  fresh := matched.fresh

/-- A change of one exchange that leaves its registration and awaits no new reply. -/
theorem changed {handle : Nat} {exchange : Exchange ρ}
    (found : client.exchanges[handle]? = some exchange) {f : Exchange ρ → Exchange ρ}
    (kind : (f exchange).kind = exchange.kind)
    (phase : (f exchange).phase.Registered ↔ exchange.phase.Registered)
    (outstanding : (f exchange).reply.Outstanding → exchange.reply.Outstanding)
    (unsent : (f exchange).phase = .calling → (f exchange).reply = .unsent)
    (handed : ∀ target, (f exchange).reply.target = some target →
      target = handle ∧ (f exchange).phase = .held)
    (stored : ∀ response, (f exchange).req = some response →
      response.request = handle ∧ (f exchange).reply.Over)
    (finished : exchange.reply.Over → (f exchange).reply.Over) : (client.change handle f).Matched := by
  refine matched.relisted found (List.Sublist.refl _) (fun _ member _ => member) kind ?_ ?_ ?_
    unsent handed stored finished
  · rw [phase]
    constructor
    · exact matched.listed handle exchange found
    · intro member
      obtain ⟨before, there, _, registered⟩ := matched.registered _ member
      obtain rfl := Option.some.inj (found.symm.trans there)
      exact registered
  · exact fun now => matched.own handle exchange found (outstanding now)
  · exact fun now other right there => matched.apart handle other exchange right found there
      (outstanding now)

/-- The callback of a handle is removed, with no reply handed to the handle. -/
theorem unregistered {handle : Nat} {exchange : Exchange ρ}
    (found : client.exchanges[handle]? = some exchange) (free : exchange.reply.target = none) :
    ((client.rpcDispatchDelCb exchange.kind handle).change handle fun exchange =>
      { exchange with phase := .destroying }).Matched := by
  have nodup : client.dispatchList.Nodup :=
    List.Pairwise.of_map RpcDispatch.kind (fun _ _ differ same => differ (congrArg _ same))
      matched.kinds
  refine matched.relisted found (f := fun exchange => { exchange with phase := .destroying })
    List.erase_sublist ?_ rfl ?_ (matched.own handle exchange found)
    (fun now other right there => matched.apart handle other exchange right found there now)
    nofun ?_ (matched.stored handle exchange found) id
  · intro dispatch member differ
    refine (List.mem_erase_of_ne ?_).mpr member
    rintro rfl
    exact differ rfl
  · constructor
    · rintro (calling | held)
      · cases calling
      · cases held
    · exact fun member => absurd member nodup.not_mem_erase
  · intro target handing
    rw [free] at handing
    cases handing

private theorem new_matched {kind : RpcKind} (met : ReplyGuard (.ok client) (.new kind)) :
    (client.rpcRequestNew kind).Matched := by
  obtain ⟨unregistered, unawaited⟩ := met
  have last : (client.exchanges ++ [(⟨kind, none, .calling, .unsent⟩ : Exchange ρ)])[
      client.exchanges.length]? = some ⟨kind, none, .calling, .unsent⟩ :=
    List.getElem?_concat_length
  constructor
  case registered =>
    intro dispatch member
    rcases List.mem_append.mp member with old | new
    · obtain ⟨exchange, found, rest⟩ := matched.registered dispatch old
      exact ⟨exchange, getElem?_stays found _, rest⟩
    · rw [List.mem_singleton.mp new]
      exact ⟨_, last, rfl, .inl rfl⟩
  case listed =>
    intro handle exchange found registered
    rcases getElem?_grown found with old | ⟨rfl, rfl⟩
    · exact List.mem_append_left _ (matched.listed handle exchange old registered)
    · exact List.mem_append_right _ (List.mem_singleton_self _)
  case kinds =>
    simp only [rpcRequestNew, rpcDispatchAddCb, List.map_append]
    refine List.Nodup.append matched.kinds (List.nodup_singleton _) ?_
    intro other old new
    obtain ⟨dispatch, member, rfl⟩ := List.mem_map.mp old
    exact unregistered dispatch member (List.mem_singleton.mp new)
  case own =>
    intro handle exchange found outstanding dispatch member same
    rcases getElem?_grown found with old | ⟨rfl, rfl⟩
    · rcases List.mem_append.mp member with before | new
      · exact matched.own handle exchange old outstanding dispatch before same
      · rw [List.mem_singleton.mp new] at same
        exact absurd same.symm (unawaited exchange (List.mem_of_getElem? old) outstanding)
    · exact outstanding.elim
  case apart =>
    intro one other left right here there outstandingLeft outstandingRight same
    rcases getElem?_grown here with oldLeft | ⟨rfl, rfl⟩
    · rcases getElem?_grown there with oldRight | ⟨rfl, rfl⟩
      · exact matched.apart one other left right oldLeft oldRight outstandingLeft outstandingRight
          same
      · exact outstandingRight.elim
    · exact outstandingLeft.elim
  case unsent =>
    intro exchange member calling
    rcases List.mem_append.mp member with old | new
    · exact matched.unsent exchange old calling
    · rw [List.mem_singleton.mp new]
  case handed =>
    intro handle exchange found target handing
    rcases getElem?_grown found with old | ⟨rfl, rfl⟩
    · exact matched.handed handle exchange old target handing
    · cases handing
  case stored =>
    intro handle exchange found response value
    rcases getElem?_grown found with old | ⟨rfl, rfl⟩
    · exact matched.stored handle exchange old response value
    · cases value
  case stores =>
    intro request member
    obtain ⟨exchange, found, finished⟩ := matched.stores request member
    exact ⟨exchange, getElem?_stays found _, finished⟩
  case once => exact matched.once
  case fresh => exact matched.fresh

/-- A request that was sent has a handle that its caller has seen. -/
theorem called {handle : Nat} {exchange : Exchange ρ}
    (found : client.exchanges[handle]? = some exchange) (sent : exchange.reply ≠ .unsent) :
    exchange.phase ≠ .calling :=
  fun calling => sent (matched.unsent exchange (List.mem_of_getElem? found) calling)

/-- No handle has a response before its reply is stored. -/
theorem unanswered {handle : Nat} {exchange : Exchange ρ}
    (found : client.exchanges[handle]? = some exchange) (pending : ¬ exchange.reply.Over)
    (response : Response ρ) : exchange.req ≠ some response :=
  fun value => pending (matched.stored handle exchange found response value).2

private theorem notify_matched {handle : Nat} {exchange : Exchange ρ} (notified : Bool)
    (found : client.exchanges[handle]? = some exchange) (calling : exchange.phase = .calling) :
    (client.rpcRequestNotify handle exchange.kind notified).Matched := by
  have unsent := matched.unsent exchange (List.mem_of_getElem? found) calling
  have listed := matched.listed handle exchange found (.inl calling)
  have pending : ¬ exchange.reply.Over := by
    rw [unsent]
    exact id
  unfold rpcRequestNotify
  split
  · refine matched.relisted found (f := fun exchange =>
      { exchange with phase := .held, reply := .awaited }) (List.Sublist.refl _)
      (fun _ member _ => member) rfl (iff_of_true (.inr rfl) listed) ?_ ?_ nofun nofun
      (fun response value => absurd value (matched.unanswered found pending response))
      (fun finished => absurd finished pending)
    · -- the handle is the one that is registered for its kind
      intro _ dispatch member same
      have unique := List.inj_on_of_nodup_map matched.kinds member listed same
      rw [unique]
    · intro _ other right there outstanding same
      exact matched.own other right there outstanding _ listed same
  · exact matched.unregistered found (by rw [unsent]; rfl)

private theorem arrive_matched {request : Nat} {exchange : Exchange ρ} (body : Option ρ)
    (found : client.exchanges[request]? = some exchange) (stage : exchange.reply = .awaited) :
    (client.change request fun exchange => { exchange with reply := .arrived body }).Matched := by
  have outstanding : exchange.reply.Outstanding := by
    rw [stage]
    trivial
  have called : exchange.phase ≠ .calling := matched.called found (by rw [stage]; nofun)
  exact matched.changed found rfl Iff.rfl (fun _ => outstanding)
    (fun calling => absurd calling called) nofun
    (fun response value => absurd value (matched.unanswered found outstanding.not_over response))
    (fun finished => absurd finished outstanding.not_over)

/-- The handle that is found for a reply is the one of its request. -/
theorem dispatch_matched {request : Nat} {exchange : Exchange ρ} {body : Option ρ}
    (found : client.exchanges[request]? = some exchange) (stage : exchange.reply = .arrived body) :
    (client.rpcDispatchProcessor request exchange.kind body).Matched := by
  have outstanding : exchange.reply.Outstanding := by
    rw [stage]
    trivial
  have called : exchange.phase ≠ .calling := matched.called found (by rw [stage]; nofun)
  have empty := matched.unanswered found outstanding.not_over
  unfold rpcDispatchProcessor
  split
  · exact matched.changed found rfl Iff.rfl False.elim (fun calling => absurd calling called)
      nofun (fun response value => absurd value (empty response)) fun _ => trivial
  · rename_i dispatch there
    have member := List.mem_of_find?_eq_some there
    have kind : dispatch.kind = exchange.kind := by
      simpa using List.find?_some there
    have same := matched.own request exchange found outstanding dispatch member kind
    obtain ⟨owner, own, _, registered⟩ := matched.registered dispatch member
    rw [same] at own
    obtain rfl := Option.some.inj (found.symm.trans own)
    refine matched.changed found rfl Iff.rfl False.elim
      (fun calling => absurd calling called) ?_
      (fun response value => absurd value (empty response))
      (fun finished => absurd finished outstanding.not_over)
    rintro _ ⟨⟩
    exact ⟨same, registered.resolve_left called⟩

private theorem store_matched {request handle : Nat} {exchange : Exchange ρ} {body : Option ρ}
    (found : client.exchanges[request]? = some exchange)
    (stage : exchange.reply = .handing body handle) :
    ∃ after, client.rpcDefaultDispatcher request body handle = .ok after ∧ after.Matched := by
  obtain ⟨rfl, held⟩ := matched.handed request exchange found handle (by rw [stage]; rfl)
  have pending : ¬ exchange.reply.Over := by
    rw [stage]
    exact id
  have empty : exchange.req = none :=
    Option.eq_none_iff_forall_ne_some.mpr (matched.unanswered found pending)
  have absent : handle ∉ client.stores := by
    intro member
    obtain ⟨other, there, finished⟩ := matched.stores handle member
    obtain rfl := Option.some.inj (found.symm.trans there)
    exact pending finished
  have here : client.deref handle = .ok exchange := by
    simp [deref, found, held]
  have called : exchange.phase ≠ .calling := matched.called found (by rw [stage]; nofun)
  have stored : (client.change handle fun exchange =>
      { exchange with req := body.map (Response.mk handle), reply := .signalling handle }).Matched := by
    refine matched.changed found rfl Iff.rfl False.elim (fun calling => absurd calling called)
      ?_ ?_ fun _ => trivial
    · rintro _ ⟨⟩
      exact ⟨rfl, held⟩
    · intro response value
      obtain ⟨content, _, rfl⟩ := Option.map_eq_some_iff.mp value
      exact ⟨rfl, trivial⟩
  have done : client.rpcDefaultDispatcher handle body handle = .ok
      { client.change handle fun exchange =>
          { exchange with req := body.map (Response.mk handle), reply := .signalling handle } with
        stores := client.stores ++ [handle], overwritten := false } := by
    simp only [rpcDefaultDispatcher, here, bind, Except.bind, pure, Except.pure, change,
      List.modify_modify_eq, matched.fresh, empty, Option.isSome_none, Bool.or_false]
    rfl
  refine ⟨_, done, { stored with stores := ?_, once := ?_, fresh := rfl }⟩
  · intro request member
    rcases List.mem_append.mp member with old | new
    · exact stored.stores request old
    · rw [List.mem_singleton.mp new]
      exact ⟨_, change_same _ found, trivial⟩
  · refine List.Nodup.append matched.once (List.nodup_singleton _) ?_
    intro request old new
    exact absent (List.mem_singleton.mp new ▸ old)

private theorem signal_matched {request handle : Nat} {exchange : Exchange ρ}
    (found : client.exchanges[request]? = some exchange)
    (stage : exchange.reply = .signalling handle) :
    ∃ after, client.rpcDefaultDispatcherSignal request handle = .ok after ∧ after.Matched := by
  obtain ⟨rfl, held⟩ := matched.handed request exchange found handle (by rw [stage]; rfl)
  have here : client.deref handle = .ok exchange := by
    simp [deref, found, held]
  have called : exchange.phase ≠ .calling := matched.called found (by rw [stage]; nofun)
  refine ⟨_, by simp only [rpcDefaultDispatcherSignal, here, bind, Except.bind]; rfl, ?_⟩
  refine matched.changed found rfl Iff.rfl False.elim (fun calling => absurd calling called) nofun
    ?_ fun _ => trivial
  intro response value
  exact ⟨(matched.stored handle exchange found response value).1, trivial⟩

private theorem free_matched {handle : Nat} {exchange : Exchange ρ}
    (found : client.exchanges[handle]? = some exchange) (stage : exchange.phase = .destroying) :
    (client.change handle fun exchange => { exchange with phase := .freed, req := none }).Matched := by
  refine matched.changed found rfl ?_ id nofun ?_ nofun id
  · rw [stage]
    constructor <;> rintro (calling | held) <;> contradiction
  · intro target handing
    have held := (matched.handed handle exchange found target handing).2
    rw [stage] at held
    cases held

private theorem next_matched {action : Action ρ} (met : ReplyGuard (.ok client) action)
    {after : Except Fault (RpcClient ρ)} (step : client.next action = some after) :
    ∃ next, after = .ok next ∧ next.Matched := by
  cases action with
  | new kind =>
    obtain rfl := Option.some.inj step
    exact ⟨_, rfl, matched.new_matched met⟩
  | notify handle notified =>
    obtain ⟨exchange, found, step⟩ := Option.bind_eq_some_iff.mp step
    split at step
    · rename_i calling
      obtain rfl := Option.some.inj step
      exact ⟨_, rfl, matched.notify_matched notified found calling⟩
    · cases step
  | arrive request body =>
    obtain ⟨exchange, found, step⟩ := Option.bind_eq_some_iff.mp step
    split at step
    · rename_i stage
      obtain rfl := Option.some.inj step
      exact ⟨_, rfl, matched.arrive_matched body found stage⟩
    · cases step
  | dispatch request =>
    obtain ⟨exchange, found, step⟩ := Option.bind_eq_some_iff.mp step
    split at step
    · rename_i body stage
      obtain rfl := Option.some.inj step
      exact ⟨_, rfl, matched.dispatch_matched found stage⟩
    · cases step
  | store request =>
    obtain ⟨exchange, found, step⟩ := Option.bind_eq_some_iff.mp step
    split at step
    · rename_i body handle stage
      obtain rfl := Option.some.inj step
      exact matched.store_matched found stage
    · cases step
  | signal request =>
    obtain ⟨exchange, found, step⟩ := Option.bind_eq_some_iff.mp step
    split at step
    · rename_i handle stage
      obtain rfl := Option.some.inj step
      exact matched.signal_matched found stage
    · cases step
  | destroy handle =>
    obtain ⟨exchange, found, step⟩ := Option.bind_eq_some_iff.mp step
    split at step
    · rename_i held
      obtain rfl := Option.some.inj step
      refine ⟨_, rfl, matched.unregistered found ?_⟩
      cases target : exchange.reply.target with
      | none => rfl
      | some other =>
        obtain ⟨rfl, _⟩ := matched.handed handle exchange found other target
        exact absurd target (met exchange (List.mem_of_getElem? found))
    · cases step
  | free handle =>
    obtain ⟨exchange, found, step⟩ := Option.bind_eq_some_iff.mp step
    split at step
    · rename_i destroying
      obtain rfl := Option.some.inj step
      exact ⟨_, rfl, matched.free_matched found destroying⟩
    · cases step

end Matched

private theorem matched_init : (init : RpcClient ρ).Matched := by
  constructor <;> simp [init]

/-- In every interleaving in which a kind is used for one request at a time, each
handle gets the reply to its own request. -/
theorem repliesMatched_of_guard {state : Except Fault (RpcClient ρ)}
    (reached : (system ρ).Reachable ReplyGuard state) : RepliesMatched state := by
  have held : ∃ client : RpcClient ρ, state = .ok client ∧ client.Matched := by
    refine reached.invariant (fun state => ∃ client : RpcClient ρ, state = .ok client ∧ client.Matched)
      ?_ ?_
    · rintro _ rfl
      exact ⟨_, rfl, matched_init⟩
    · rintro _ action after ⟨client, rfl, matched⟩ met step
      exact matched.next_matched met step
  obtain ⟨client, rfl, matched⟩ := held
  refine ⟨?_, matched.once, matched.fresh⟩
  intro handle exchange found held response value
  have here : client.deref handle = .ok exchange := by
    simp [deref, found, held]
  simp only [rpcRequestOk, here, bind, Except.bind, pure, Except.pure, Except.ok.injEq] at value
  exact (matched.stored handle exchange found response value).1

/-- Two requests of different kinds, answered in the other order; the first handle
is destroyed and its kind is used again. -/
private def twoKinds : List (Action Nat) :=
  [.new ⟨1, 1⟩, .notify 0 true, .new ⟨1, 2⟩, .notify 1 true, .arrive 1 (some 8), .arrive 0 (some 7),
    .dispatch 1, .store 1, .signal 1, .dispatch 0, .store 0, .signal 0, .destroy 0, .free 0,
    .new ⟨1, 1⟩, .notify 2 true, .arrive 2 (some 9), .dispatch 2, .store 2]

theorem repliesMatched_twoKinds :
    ∃ client, (system Nat).run (.ok init) twoKinds = some (.ok client) ∧
      client.exchanges.map Exchange.req = [none, some ⟨1, 8⟩, some ⟨2, 9⟩] ∧
      RepliesMatched (.ok client) := by
  have met : (system Nat).Guarded ReplyGuard (.ok init) twoKinds := by
    decide +kernel
  refine ⟨_, rfl, rfl, repliesMatched_of_guard ?_⟩
  exact System.Reachable.run (.start rfl) met rfl

/-- A request times out and its handle is destroyed; the next request of the kind
gets the late reply, and then its own reply over it. -/
private def lateReply : List (Action Nat) :=
  [.new ⟨1, 1⟩, .notify 0 true, .destroy 0, .free 0, .new ⟨1, 1⟩, .notify 1 true,
    .arrive 0 (some 7), .dispatch 0, .store 0, .signal 0]

theorem late_reply_mismatched :
    ∃ client : RpcClient Nat, (system Nat).Reachable System.Free (.ok client) ∧
      client.rpcRequestOk 1 = .ok (some ⟨0, 7⟩) ∧ ¬ RepliesMatched (.ok client) ∧
      ∃ later : RpcClient Nat, (system Nat).Reachable System.Free (.ok later) ∧
        later.overwritten = true := by
  have late : (system Nat).run (.ok init) lateReply = some (.ok
      { exchanges := [⟨⟨1, 1⟩, none, .freed, .done⟩, ⟨⟨1, 1⟩, some ⟨0, 7⟩, .held, .awaited⟩]
        dispatchList := [⟨⟨1, 1⟩, 1⟩], stores := [0], overwritten := false }) :=
    rfl
  have finished : (system Nat).run (.ok init)
      (lateReply ++ [.arrive 1 (some 8), .dispatch 1, .store 1]) = some (.ok
      { exchanges :=
          [⟨⟨1, 1⟩, none, .freed, .done⟩, ⟨⟨1, 1⟩, some ⟨1, 8⟩, .held, .signalling 1⟩]
        dispatchList := [⟨⟨1, 1⟩, 1⟩], stores := [0, 1], overwritten := true }) :=
    rfl
  refine ⟨_, .run (.start rfl) (System.guarded_free _ _) late, rfl, ?_,
    _, .run (.start rfl) (System.guarded_free _ _) finished, rfl⟩
  rintro ⟨matched, _⟩
  cases matched 1 _ rfl rfl ⟨0, 7⟩ rfl

end RpcClient
end Livezure.Rpc
