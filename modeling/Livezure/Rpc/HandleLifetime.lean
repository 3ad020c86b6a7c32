import Livezure.Core.Counting
import Livezure.Rpc.Request
import Mathlib.Data.List.Nodup

/-! The memory that `rpc_request_new`, `rpc_request_destroy` and `rpc_dispatch_processor` share
without a lock: handles, nodes of `dispatch_list` and parsed requests, each access a step. -/
namespace Livezure.Rpc
open Livezure.Core

/-- How far `rpc_request_destroy` is with a handle. -/
inductive ReleasePhase where
  /-- From `rpc_request_new` on, in `rpc_request_wait` too. -/
  | registered
  | unregistered
  /-- Behind `rpc_parser_free`. -/
  | emptied
  | freed
  deriving DecidableEq

/-- `rpc_handle`; a parsed request has a number. -/
structure RpcHandle where
  kind : RpcKind
  req : Option Nat
  phase : ReleasePhase
  deriving DecidableEq

/-- Where a call of `rpc_dispatch_processor` is. -/
inductive DispatchPhase where
  | started
  | reading (node : Nat)
  | passing (node : Nat)
  /-- Before `tmp->cb(tmp->opaque, ..)`. -/
  | matched (node : Nat)
  /-- In `rpc_default_dispatcher`, before `handle->req = req`. -/
  | storing (handle : Nat)
  /-- In `rpc_default_dispatcher`, before the mutex. -/
  | signalling (handle : Nat)
  /-- Behind the loop, with a request that nobody took. -/
  | unmatched
  | done
  deriving DecidableEq

/-- A call of `rpc_dispatch_processor` for a reply; one without body is parsed to NULL. -/
structure DispatchCall where
  kind : RpcKind
  req : Option Nat
  phase : DispatchPhase
  deriving DecidableEq

structure ClientMemory where
  handles : List RpcHandle
  /-- `dispatch_list`; the node that `rpc_request_new` makes for a handle has its number. -/
  dispatchList : List Nat
  calls : List DispatchCall
  parsed : Nat
  parserFrees : List Nat
  deriving DecidableEq

namespace ClientMemory

def init : ClientMemory := ⟨[], [], [], 0, []⟩

/-- A node of `dispatch_list`; `rpc_dispatch_del_cb` frees it. -/
def node (memory : ClientMemory) (index : Nat) : Except Fault RpcHandle :=
  match memory.handles[index]? with
  | none => .error .outOfBounds
  | some handle => if handle.phase = .registered then .ok handle else .error .useAfterFree

def deref (memory : ClientMemory) (index : Nat) : Except Fault RpcHandle :=
  match memory.handles[index]? with
  | none => .error .outOfBounds
  | some handle => if handle.phase = .freed then .error .useAfterFree else .ok handle

/-- `rpc_parser_free`, which does nothing for NULL. -/
def rpcParserFree (memory : ClientMemory) (req : Option Nat) : ClientMemory :=
  { memory with parserFrees := memory.parserFrees ++ req.toList }

def goto (memory : ClientMemory) (index : Nat) (call : DispatchCall) (phase : DispatchPhase) :
    ClientMemory :=
  { memory with calls := memory.calls.set index { call with phase } }

def setHandle (memory : ClientMemory) (index : Nat) (handle : RpcHandle) : ClientMemory :=
  { memory with handles := memory.handles.set index handle }

/-- The node behind a node. -/
def nextNode (node : Nat) : List Nat → Option Nat
  | [] => none
  | first :: rest => if first = node then rest.head? else nextNode node rest

/-- The loop's condition, with `pos` at a node or back at the head. -/
def enter : Option Nat → DispatchPhase
  | some node => .reading node
  | none => .unmatched

def rpcRequestNew (memory : ClientMemory) (kind : RpcKind) : ClientMemory :=
  { memory with
    handles := memory.handles ++ [⟨kind, none, .registered⟩]
    dispatchList := memory.dispatchList ++ [memory.handles.length] }

/-- The next step of `rpc_dispatch_processor` and of `rpc_default_dispatcher` in it. -/
def rpcDispatchProcessor (memory : ClientMemory) (index : Nat) (call : DispatchCall) :
    DispatchPhase → Option (Except Fault ClientMemory)
  | .started => some (.ok (memory.goto index call (enter memory.dispatchList.head?)))
  | .reading node => some do
    let handle ← memory.node node
    return memory.goto index call (if handle.kind = call.kind then .matched node else .passing node)
  | .passing node => some do
    let _ ← memory.node node
    return memory.goto index call (enter (nextNode node memory.dispatchList))
  | .matched node => some do
    let _ ← memory.node node
    return memory.goto index call (.storing node)
  | .storing handle => some do
    let cell ← memory.deref handle
    return (memory.setHandle handle { cell with req := call.req }).goto index call
      (.signalling handle)
  | .signalling handle => some do
    let _ ← memory.deref handle
    return memory.goto index call .done
  | .unmatched => some (.ok ((memory.rpcParserFree call.req).goto index call .done))
  | .done => none

/-- The next step of `rpc_request_destroy`. -/
def rpcRequestDestroy (memory : ClientMemory) (index : Nat) (handle : RpcHandle) :
    ReleasePhase → Option ClientMemory
  | .registered => some ({ memory with dispatchList := memory.dispatchList.erase index }.setHandle
      index { handle with phase := .unregistered })
  | .unregistered => some ((memory.rpcParserFree handle.req).setHandle index
      { handle with req := none, phase := .emptied })
  | .emptied => some (memory.setHandle index { handle with phase := .freed })
  | .freed => none

inductive Action where
  | new (kind : RpcKind)
  | arrive (kind : RpcKind) (hasBody : Bool)
  | dispatch (index : Nat)
  | destroy (handle : Nat)
  deriving DecidableEq

/-- An action, where it is enabled. `rpc_request_wait` changes nothing here, and a handle may
be destroyed at any time: a timeout may be as short as it likes. -/
def next (memory : ClientMemory) : Action → Option (Except Fault ClientMemory)
  | .new kind => some (.ok (memory.rpcRequestNew kind))
  | .arrive kind hasBody =>
    if hasBody then some (.ok { memory with
      calls := memory.calls ++ [⟨kind, some memory.parsed, .started⟩], parsed := memory.parsed + 1 })
    else some (.ok { memory with calls := memory.calls ++ [⟨kind, none, .started⟩] })
  | .dispatch index => do
    let call ← memory.calls[index]?
    memory.rpcDispatchProcessor index call call.phase
  | .destroy index => do
    let handle ← memory.handles[index]?
    let after ← memory.rpcRequestDestroy index handle handle.phase
    return .ok after

/-- The client from its start on. A freed handle or node that is used is a last state. -/
def system : System (Except Fault ClientMemory) Action where
  Start := fun state => state = .ok init
  next := fun state action =>
    match state with
    | .error _ => none
    | .ok memory => memory.next action

/-! ### Who frees a parsed request -/

end ClientMemory

/-- The call has the request still, to hand it on or to free it. -/
def DispatchPhase.hasReq : DispatchPhase → Bool
  | .signalling _ | .done => false
  | _ => true

def DispatchPhase.node : DispatchPhase → Option Nat
  | .reading node | .passing node | .matched node => some node
  | _ => none

def DispatchCall.carries (req : Nat) (call : DispatchCall) : Bool :=
  decide (call.req = some req) && call.phase.hasReq

/-- `rpc_request_destroy` has not come to `handle->req` yet. -/
def ReleasePhase.isFull : ReleasePhase → Bool
  | .registered | .unregistered => true
  | .emptied | .freed => false

def RpcHandle.keeps (req : Nat) (handle : RpcHandle) : Bool :=
  decide (handle.req = some req) && handle.phase.isFull

namespace ClientMemory

/-- In how many places a parsed request is: freed, with a call, with a handle that frees it. -/
def places (memory : ClientMemory) (req : Nat) : Nat :=
  memory.parserFrees.count req + memory.calls.countP (DispatchCall.carries req) +
    memory.handles.countP (RpcHandle.keeps req)

/-- No freed memory was used, and every parsed request is freed once or will be. -/
def Sound (state : Except Fault ClientMemory) : Prop :=
  ∃ memory, state = .ok memory ∧ ∀ req < memory.parsed, memory.places req = 1

/-- The next step of `rpc_request_destroy` at a phase comes while no call is between the lookup
of the handle and its last use, as far as the step matters to it. -/
def MayRelease (memory : ClientMemory) (index : Nat) : ReleasePhase → Prop
  | .registered => ∀ call ∈ memory.calls, call.phase.node ≠ some index
  | .unregistered => ∀ call ∈ memory.calls, call.phase = .storing index → call.req = none
  | .emptied => ∀ call ∈ memory.calls, call.phase ≠ .storing index ∧ call.phase ≠ .signalling index
  | .freed => True

/-- A reply is stored into a handle that has none. -/
def MayStore (memory : ClientMemory) : DispatchPhase → Prop
  | .storing place => ∀ handle ∈ memory.handles[place]?, handle.req = none
  | _ => True

instance (memory : ClientMemory) (index : Nat) :
    (phase : ReleasePhase) → Decidable (memory.MayRelease index phase)
  | .registered => inferInstanceAs (Decidable (∀ call ∈ memory.calls, call.phase.node ≠ some index))
  | .unregistered => inferInstanceAs (Decidable (∀ call ∈ memory.calls,
      call.phase = .storing index → call.req = none))
  | .emptied => inferInstanceAs (Decidable (∀ call ∈ memory.calls,
      call.phase ≠ .storing index ∧ call.phase ≠ .signalling index))
  | .freed => .isTrue trivial

instance (memory : ClientMemory) : (phase : DispatchPhase) → Decidable (memory.MayStore phase)
  | .storing place => inferInstanceAs (Decidable (∀ handle ∈ memory.handles[place]?, handle.req = none))
  | .started | .reading _ | .passing _ | .matched _ | .signalling _ | .unmatched | .done =>
    .isTrue trivial

/-- Nobody is in the way of an action. -/
def Apart (memory : ClientMemory) : Action → Prop
  | .destroy index => ∀ handle ∈ memory.handles[index]?, memory.MayRelease index handle.phase
  | .dispatch index => ∀ call ∈ memory.calls[index]?, memory.MayStore call.phase
  | .new _ | .arrive _ _ => True

instance (memory : ClientMemory) : (action : Action) → Decidable (memory.Apart action)
  | .destroy index => inferInstanceAs (Decidable
      (∀ handle ∈ memory.handles[index]?, memory.MayRelease index handle.phase))
  | .dispatch index => inferInstanceAs (Decidable
      (∀ call ∈ memory.calls[index]?, memory.MayStore call.phase))
  | .new _ | .arrive _ _ => .isTrue trivial

/-- The same of a state of the system. -/
def Unhurried : Except Fault ClientMemory → Action → Prop
  | .error _, _ => True
  | .ok memory, action => memory.Apart action

instance : (state : Except Fault ClientMemory) → (action : Action) →
    Decidable (Unhurried state action)
  | .error _, _ => .isTrue trivial
  | .ok memory, action => inferInstanceAs (Decidable (memory.Apart action))

/-- Some continuation uses freed memory or loses a parsed request. -/
def Breaks (state : Except Fault ClientMemory) : Prop :=
  ∃ actions broken, system.run state actions = some broken ∧ ¬ Sound broken

/-! ### What the steps keep -/

def phaseOf (memory : ClientMemory) (index : Nat) : Option ReleasePhase :=
  memory.handles[index]?.map RpcHandle.phase

def Backed (memory : ClientMemory) (call : DispatchCall) : Prop :=
  match call.phase with
  | .started | .unmatched | .done => True
  | .reading node | .passing node | .matched node => memory.phaseOf node = some .registered
  | .storing handle => ∃ phase, memory.phaseOf handle = some phase ∧ phase ≠ .freed ∧
      (phase = .emptied → call.req = none)
  | .signalling handle => ∃ phase, memory.phaseOf handle = some phase ∧ phase ≠ .freed

/-- The invariant of unhurried runs. -/
structure Holds (memory : ClientMemory) : Prop where
  nodup : memory.dispatchList.Nodup
  listed : ∀ node ∈ memory.dispatchList, memory.phaseOf node = some .registered
  backed : ∀ call ∈ memory.calls, memory.Backed call
  cleared : ∀ handle ∈ memory.handles, handle.phase.isFull = false → handle.req = none
  places : ∀ req, memory.places req = if req < memory.parsed then 1 else 0

variable {memory after : ClientMemory} {index : Nat} {call : DispatchCall} {handle : RpcHandle}

theorem node_ok (registered : memory.phaseOf index = some .registered) :
    ∃ handle, memory.handles[index]? = some handle ∧ memory.node index = .ok handle := by
  obtain ⟨handle, found, phase⟩ := Option.map_eq_some_iff.mp registered
  refine ⟨handle, found, ?_⟩
  rw [node, found]
  exact if_pos phase

theorem deref_ok {phase : ReleasePhase} (known : memory.phaseOf index = some phase)
    (alive : phase ≠ .freed) :
    ∃ handle, memory.handles[index]? = some handle ∧ handle.phase = phase ∧
      memory.deref index = .ok handle := by
  obtain ⟨handle, found, rfl⟩ := Option.map_eq_some_iff.mp known
  refine ⟨handle, found, rfl, ?_⟩
  rw [deref, found]
  exact if_neg alive

private theorem backed_congr (same : ∀ index, after.phaseOf index = memory.phaseOf index) :
    after.Backed call ↔ memory.Backed call := by
  unfold Backed
  simp only [same]

private theorem mem_of_nextNode {node behind : Nat} {nodes : List Nat}
    (found : behind ∈ nextNode node nodes) : behind ∈ nodes := by
  induction nodes with
  | nil => cases found
  | cons first rest ih =>
    unfold nextNode at found
    split at found
    · exact List.mem_cons_of_mem _ (List.mem_of_mem_head? found)
    · exact List.mem_cons_of_mem _ (ih found)

theorem phaseOf_setHandle {other : Nat} (found : memory.handles[index]? = some handle)
    (changed : RpcHandle) :
    (memory.setHandle index changed).phaseOf other =
      if other = index then some changed.phase else memory.phaseOf other := by
  have bound := (List.getElem?_eq_some_iff.mp found).1
  rw [phaseOf, setHandle, List.getElem?_set]
  by_cases same : other = index
  · rw [if_pos same.symm, if_pos bound, if_pos same]
    rfl
  · rw [if_neg (Ne.symm same), if_neg same]
    rfl

/-- A step of `rpc_request_destroy` that no call stands in the way of. -/
theorem backed_moved {phase : ReleasePhase}
    (phases : ∀ other, after.phaseOf other =
      if other = index then some phase else memory.phaseOf other)
    (before : memory.Backed call) (node : call.phase.node ≠ some index)
    (storing : call.phase = .storing index → phase ≠ .freed ∧ (phase = .emptied → call.req = none))
    (signalling : call.phase = .signalling index → phase ≠ .freed) : after.Backed call := by
  unfold Backed at before ⊢
  cases at_ : call.phase with
  | started | unmatched | done => trivial
  | reading other | passing other | matched other =>
    rw [at_] at before node
    have different : other ≠ index := fun same => node (congrArg some same)
    change after.phaseOf other = _
    rw [phases, if_neg different]
    exact before
  | storing other =>
    rw [at_] at before
    by_cases same : other = index
    · exact ⟨phase, by rw [phases, if_pos same], storing (same ▸ at_)⟩
    · obtain ⟨old, known, alive⟩ := before
      exact ⟨old, by rw [phases, if_neg same, known], alive⟩
  | signalling other =>
    rw [at_] at before
    by_cases same : other = index
    · exact ⟨phase, by rw [phases, if_pos same], signalling (same ▸ at_)⟩
    · obtain ⟨old, known, alive⟩ := before
      exact ⟨old, by rw [phases, if_neg same, known], alive⟩

theorem Backed.node_ne (backed : memory.Backed call) (found : memory.handles[index]? = some handle)
    (gone : handle.phase ≠ .registered) : call.phase.node ≠ some index := by
  intro at_
  have phase : memory.phaseOf index = some handle.phase := by
    rw [phaseOf, found]
    rfl
  unfold Backed at backed
  cases now : call.phase with
  | reading other | passing other | matched other =>
    rw [now] at backed at_
    obtain rfl := Option.some.inj at_
    exact gone (Option.some.inj (phase.symm.trans backed))
  | started | unmatched | done | storing | signalling =>
    rw [now] at at_
    cases at_

theorem places_setHandle (found : memory.handles[index]? = some handle) {changed : RpcHandle}
    {req : Nat} (same : changed.keeps req = handle.keeps req) :
    (memory.setHandle index changed).places req = memory.places req := by
  have handles := countP_replace found changed (RpcHandle.keeps req)
  rw [same] at handles
  rw [places, places]
  change _ + _ + (memory.handles.set index changed).countP _ = _
  rw [Nat.add_right_cancel handles]
  rfl

theorem places_empty (found : memory.handles[index]? = some handle)
    (unregistered : handle.phase = .unregistered) (req : Nat) :
    ((memory.rpcParserFree handle.req).setHandle index
      { handle with req := none, phase := .emptied }).places req = memory.places req := by
  have handles := countP_replace found { handle with req := none, phase := .emptied }
    (RpcHandle.keeps req)
  have none : RpcHandle.keeps req { handle with req := none, phase := .emptied } = false := rfl
  have freed : handle.req.toList.count req = if handle.keeps req then 1 else 0 := by
    rw [RpcHandle.keeps, unregistered]
    cases handle.req with
    | none => rfl
    | some own => simp [ReleasePhase.isFull, List.count_singleton]
  rw [none, if_neg Bool.false_ne_true, Nat.add_zero] at handles
  rw [places, places]
  change (memory.parserFrees ++ handle.req.toList).count req + memory.calls.countP _ +
    (memory.handles.set index { handle with req := Option.none, phase := .emptied }).countP _ = _
  rw [List.count_append, freed]
  omega

namespace Holds

/-- `dispatch_list` has no node of a handle that is unregistered. -/
theorem listed_ne (holds : memory.Holds) (found : memory.handles[index]? = some handle)
    (gone : handle.phase ≠ .registered) {node : Nat} (member : node ∈ memory.dispatchList) :
    node ≠ index := by
  rintro rfl
  have registered := holds.listed node member
  rw [phaseOf, found] at registered
  exact gone (Option.some.inj registered)

private theorem backed_set (holds : memory.Holds) {changed : DispatchCall} (backed : memory.Backed changed) :
    ∀ other ∈ memory.calls.set index changed, memory.Backed other := by
  intro other member
  rcases List.mem_or_eq_of_mem_set member with old | rfl
  · exact holds.backed other old
  · exact backed

private theorem cleared_set (holds : memory.Holds) {changed : RpcHandle}
    (cleared : changed.phase.isFull = false → changed.req = none) :
    ∀ other ∈ memory.handles.set index changed, other.phase.isFull = false → other.req = none := by
  intro other member
  rcases List.mem_or_eq_of_mem_set member with old | rfl
  · exact holds.cleared other old
  · exact cleared

theorem goto (holds : memory.Holds) (found : memory.calls[index]? = some call)
    {phase : DispatchPhase} (same : phase.hasReq = call.phase.hasReq)
    (backed : memory.Backed { call with phase }) : (memory.goto index call phase).Holds := by
  constructor
  case nodup => exact holds.nodup
  case listed => exact holds.listed
  case backed => exact holds.backed_set backed
  case cleared => exact holds.cleared
  case places =>
    intro req
    have carried : DispatchCall.carries req { call with phase } = call.carries req := by
      rw [DispatchCall.carries, DispatchCall.carries, same]
    have counted := countP_replace found { call with phase } (DispatchCall.carries req)
    rw [carried] at counted
    refine Eq.trans ?_ (holds.places req)
    rw [ClientMemory.places, ClientMemory.places]
    change _ + (memory.calls.set index { call with phase }).countP _ + _ = _
    rw [Nat.add_right_cancel counted]
    rfl

theorem free (holds : memory.Holds) (found : memory.calls[index]? = some call)
    (unmatched : call.phase = .unmatched) :
    ((memory.rpcParserFree call.req).goto index call .done).Holds := by
  constructor
  case nodup => exact holds.nodup
  case listed => exact holds.listed
  case backed => exact holds.backed_set trivial
  case cleared => exact holds.cleared
  case places =>
    intro req
    have counted := countP_replace found { call with phase := .done } (DispatchCall.carries req)
    have gone : DispatchCall.carries req { call with phase := .done } = false := Bool.and_false _
    have freed : call.req.toList.count req = if call.carries req then 1 else 0 := by
      rw [DispatchCall.carries, unmatched]
      cases call.req with
      | none => rfl
      | some own => simp [DispatchPhase.hasReq, List.count_singleton]
    rw [gone, if_neg Bool.false_ne_true, Nat.add_zero] at counted
    have before := holds.places req
    rw [ClientMemory.places] at before ⊢
    change (memory.parserFrees ++ call.req.toList).count req +
      (memory.calls.set index { call with phase := .done }).countP _ + memory.handles.countP _ = _
    rw [List.count_append, freed]
    change _ = if req < memory.parsed then 1 else 0
    omega

theorem store (holds : memory.Holds) (found : memory.calls[index]? = some call) {place : Nat}
    (storing : call.phase = .storing place) (cell : memory.handles[place]? = some handle)
    (empty : handle.req = none) (kept : handle.phase = .emptied → call.req = none)
    (alive : handle.phase ≠ .freed) :
    ((memory.setHandle place { handle with req := call.req }).goto index call
      (.signalling place)).Holds := by
  have same : ∀ other, ((memory.setHandle place { handle with req := call.req }).goto index call
      (.signalling place)).phaseOf other = memory.phaseOf other := by
    intro other
    change (memory.setHandle place { handle with req := call.req }).phaseOf other = _
    rw [phaseOf_setHandle cell]
    split
    · rename_i here
      rw [here, phaseOf, cell]
      rfl
    · rfl
  constructor
  case nodup => exact holds.nodup
  case listed =>
    intro node member
    rw [same]
    exact holds.listed node member
  case backed =>
    intro other member
    rw [backed_congr same]
    refine holds.backed_set ?_ other member
    exact ⟨handle.phase, by rw [phaseOf, cell]; rfl, alive⟩
  case cleared =>
    refine holds.cleared_set fun cleared => ?_
    change handle.phase.isFull = false at cleared
    cases phase : handle.phase with
    | registered | unregistered =>
      rw [phase] at cleared
      cases cleared
    | emptied => exact kept phase
    | freed => exact absurd phase alive
  case places =>
    intro req
    have calls := countP_replace found { call with phase := .signalling place }
      (DispatchCall.carries req)
    have handles := countP_replace cell { handle with req := call.req } (RpcHandle.keeps req)
    have gone : DispatchCall.carries req { call with phase := .signalling place } = false :=
      Bool.and_false _
    have none : handle.keeps req = false := by
      rw [RpcHandle.keeps, empty]
      rfl
    have moved : RpcHandle.keeps req { handle with req := call.req } = call.carries req := by
      rw [RpcHandle.keeps, DispatchCall.carries, storing]
      cases phase : handle.phase with
      | registered | unregistered => rfl
      | emptied => rw [kept phase]; rfl
      | freed => exact absurd phase alive
    rw [gone, if_neg Bool.false_ne_true, Nat.add_zero] at calls
    rw [none, if_neg Bool.false_ne_true, Nat.add_zero, moved] at handles
    have before := holds.places req
    rw [ClientMemory.places] at before ⊢
    change memory.parserFrees.count req +
      (memory.calls.set index { call with phase := .signalling place }).countP _ +
      (memory.handles.set place { handle with req := call.req }).countP _ =
      if req < memory.parsed then 1 else 0
    omega

private theorem unregister (holds : memory.Holds) (found : memory.handles[index]? = some handle)
    (registered : handle.phase = .registered)
    (apart : ∀ call ∈ memory.calls, call.phase.node ≠ some index) :
    ({ memory with dispatchList := memory.dispatchList.erase index }.setHandle index
      { handle with phase := .unregistered }).Holds := by
  have phases : ∀ other, ({ memory with
      dispatchList := memory.dispatchList.erase index }.setHandle index
      { handle with phase := .unregistered }).phaseOf other =
        if other = index then some .unregistered else memory.phaseOf other :=
    fun other => phaseOf_setHandle found { handle with phase := .unregistered }
  constructor
  case nodup => exact holds.nodup.erase index
  case listed =>
    intro node member
    obtain ⟨different, old⟩ := (List.Nodup.mem_erase_iff holds.nodup).mp member
    rw [phases, if_neg different]
    exact holds.listed node old
  case backed =>
    intro call member
    exact backed_moved phases (holds.backed call member) (apart call member)
      (fun _ => ⟨by nofun, by nofun⟩) (fun _ => by nofun)
  case cleared => exact holds.cleared_set (by nofun)
  case places =>
    intro req
    have same : RpcHandle.keeps req { handle with phase := .unregistered } = handle.keeps req := by
      rw [RpcHandle.keeps, RpcHandle.keeps, registered]
      rfl
    exact (places_setHandle found same).trans (holds.places req)

/-- `rpc_parser_free` in `rpc_request_destroy`, with no call about to store a request. -/
theorem empty (holds : memory.Holds) (found : memory.handles[index]? = some handle)
    (unregistered : handle.phase = .unregistered)
    (apart : ∀ call ∈ memory.calls, call.phase = .storing index → call.req = none) :
    ((memory.rpcParserFree handle.req).setHandle index
      { handle with req := none, phase := .emptied }).Holds := by
  have gone : handle.phase ≠ .registered := by
    rw [unregistered]
    nofun
  have phases : ∀ other, ((memory.rpcParserFree handle.req).setHandle index
      { handle with req := none, phase := .emptied }).phaseOf other =
        if other = index then some .emptied else memory.phaseOf other :=
    fun other => phaseOf_setHandle found { handle with req := none, phase := .emptied }
  constructor
  case nodup => exact holds.nodup
  case listed =>
    intro node member
    rw [phases, if_neg (holds.listed_ne found gone member)]
    exact holds.listed node member
  case backed =>
    intro call member
    exact backed_moved phases (holds.backed call member)
      ((holds.backed call member).node_ne found gone)
      (fun storing => ⟨by nofun, fun _ => apart call member storing⟩) (fun _ => by nofun)
  case cleared => exact holds.cleared_set fun _ => rfl
  case places => exact fun req => (places_empty found unregistered req).trans (holds.places req)

theorem release (holds : memory.Holds) (found : memory.handles[index]? = some handle)
    (emptied : handle.phase = .emptied)
    (apart : ∀ call ∈ memory.calls, call.phase ≠ .storing index ∧ call.phase ≠ .signalling index) :
    (memory.setHandle index { handle with phase := .freed }).Holds := by
  have gone : handle.phase ≠ .registered := by
    rw [emptied]
    nofun
  have phases : ∀ other, (memory.setHandle index { handle with phase := .freed }).phaseOf other =
        if other = index then some .freed else memory.phaseOf other :=
    fun other => phaseOf_setHandle found { handle with phase := .freed }
  constructor
  case nodup => exact holds.nodup
  case listed =>
    intro node member
    rw [phases, if_neg (holds.listed_ne found gone member)]
    exact holds.listed node member
  case backed =>
    intro call member
    exact backed_moved phases (holds.backed call member)
      ((holds.backed call member).node_ne found gone)
      (fun storing => absurd storing (apart call member).1)
      (fun signalling => absurd signalling (apart call member).2)
  case cleared =>
    refine holds.cleared_set fun _ => ?_
    exact holds.cleared handle (List.mem_of_getElem? found) (by rw [emptied]; rfl)
  case places =>
    intro req
    have same : RpcHandle.keeps req { handle with phase := .freed } = handle.keeps req := by
      rw [RpcHandle.keeps, RpcHandle.keeps, emptied]
      rfl
    exact (places_setHandle found same).trans (holds.places req)

theorem new (holds : memory.Holds) (kind : RpcKind) : (memory.rpcRequestNew kind).Holds := by
  have bound : ∀ {other phase}, memory.phaseOf other = some phase → other < memory.handles.length :=
    fun known => by
      obtain ⟨_, found, _⟩ := Option.map_eq_some_iff.mp known
      exact (List.getElem?_eq_some_iff.mp found).1
  have old : ∀ {other phase}, memory.phaseOf other = some phase →
      (memory.rpcRequestNew kind).phaseOf other = some phase := by
    intro other phase known
    change (memory.handles ++ _)[other]?.map RpcHandle.phase = _
    rw [List.getElem?_append_left (bound known)]
    exact known
  constructor
  case nodup =>
    refine List.nodup_append.mpr ⟨holds.nodup, List.nodup_singleton _, ?_⟩
    intro node member other new
    have := bound (holds.listed node member)
    rw [List.mem_singleton.mp new]
    omega
  case listed =>
    intro node member
    rcases List.mem_append.mp member with before | now
    · exact old (holds.listed node before)
    · rw [List.mem_singleton.mp now]
      change (memory.handles ++ _)[memory.handles.length]?.map RpcHandle.phase = _
      rw [List.getElem?_concat_length]
      rfl
  case backed =>
    intro call member
    have before := holds.backed call member
    unfold Backed at before ⊢
    cases at_ : call.phase with
    | started | unmatched | done => trivial
    | reading | passing | matched =>
      rw [at_] at before
      exact old before
    | storing | signalling =>
      rw [at_] at before
      obtain ⟨phase, known, alive⟩ := before
      exact ⟨phase, old known, alive⟩
  case cleared =>
    intro handle member
    rcases List.mem_append.mp member with before | now
    · exact holds.cleared handle before
    · rw [List.mem_singleton.mp now]
      exact fun _ => rfl
  case places =>
    intro req
    refine Eq.trans ?_ (holds.places req)
    rw [ClientMemory.places, ClientMemory.places]
    change _ + _ + (memory.handles ++ [RpcHandle.mk kind none .registered]).countP _ = _
    rw [List.countP_append]
    rfl

theorem arrive (holds : memory.Holds) (kind : RpcKind) (req : Option Nat) {parsed : Nat}
    (numbered : ∀ other, (if other < parsed then 1 else 0) =
      (if other < memory.parsed then 1 else 0) + if req = some other then 1 else 0) :
    Holds { memory with calls := memory.calls ++ [⟨kind, req, .started⟩], parsed } := by
  constructor
  case nodup => exact holds.nodup
  case listed => exact holds.listed
  case backed =>
    intro call member
    rcases List.mem_append.mp member with old | new
    · exact holds.backed call old
    · rw [List.mem_singleton.mp new]
      trivial
  case cleared => exact holds.cleared
  case places =>
    intro other
    have before := holds.places other
    rw [ClientMemory.places] at before ⊢
    change memory.parserFrees.count other +
      (memory.calls ++ [DispatchCall.mk kind req .started]).countP _ + memory.handles.countP _ =
        if other < parsed then 1 else 0
    have carried : (DispatchCall.mk kind req .started).carries other = decide (req = some other) :=
      Bool.and_true _
    rw [List.countP_append, List.countP_singleton, carried, numbered, ← before]
    simp only [decide_eq_true_iff]
    omega

theorem dispatch (holds : memory.Holds) (found : memory.calls[index]? = some call)
    (apart : memory.Apart (.dispatch index)) {result : Except Fault ClientMemory}
    (stepped : memory.rpcDispatchProcessor index call call.phase = some result) :
    ∃ after, result = .ok after ∧ after.Holds := by
  have backed := holds.backed call (List.mem_of_getElem? found)
  have entered : ∀ node, (∀ place ∈ node, place ∈ memory.dispatchList) → call.phase.hasReq = true →
      (memory.goto index call (enter node)).Holds := by
    intro node listed hasReq
    cases node with
    | none => exact holds.goto found hasReq.symm trivial
    | some place => exact holds.goto found hasReq.symm (holds.listed place (listed place rfl))
  unfold Backed at backed
  have apart := apart call found
  cases phase : call.phase with
  | started =>
    rw [phase] at stepped
    refine ⟨_, (Option.some.inj stepped).symm, entered _ ?_ (by rw [phase]; rfl)⟩
    exact fun place first => List.mem_of_mem_head? first
  | reading node =>
    rw [phase] at stepped backed
    obtain ⟨handle, _, read⟩ := node_ok backed
    refine ⟨_, (Option.some.inj stepped).symm.trans (by rw [read]; rfl), ?_⟩
    split
    · exact holds.goto found (by rw [phase]; rfl) backed
    · exact holds.goto found (by rw [phase]; rfl) backed
  | passing node =>
    rw [phase] at stepped backed
    obtain ⟨handle, _, read⟩ := node_ok backed
    refine ⟨_, (Option.some.inj stepped).symm.trans (by rw [read]; rfl), ?_⟩
    exact entered _ (fun place behind => mem_of_nextNode behind) (by rw [phase]; rfl)
  | matched node =>
    rw [phase] at stepped backed
    obtain ⟨handle, _, read⟩ := node_ok backed
    refine ⟨_, (Option.some.inj stepped).symm.trans (by rw [read]; rfl), ?_⟩
    exact holds.goto found (by rw [phase]; rfl) ⟨_, backed, by nofun, by nofun⟩
  | storing place =>
    rw [phase] at stepped backed apart
    obtain ⟨now, known, alive, kept⟩ := backed
    obtain ⟨handle, cell, rfl, read⟩ := deref_ok known alive
    refine ⟨_, (Option.some.inj stepped).symm.trans (by rw [read]; rfl), ?_⟩
    exact holds.store found phase cell (apart handle cell) kept alive
  | signalling place =>
    rw [phase] at stepped backed
    obtain ⟨now, known, alive⟩ := backed
    obtain ⟨handle, _, _, read⟩ := deref_ok known alive
    refine ⟨_, (Option.some.inj stepped).symm.trans (by rw [read]; rfl), ?_⟩
    exact holds.goto found (by rw [phase]; rfl) trivial
  | unmatched =>
    rw [phase] at stepped
    exact ⟨_, (Option.some.inj stepped).symm, holds.free found phase⟩
  | done =>
    rw [phase] at stepped
    cases stepped

theorem destroy (holds : memory.Holds) (found : memory.handles[index]? = some handle)
    (apart : memory.Apart (.destroy index))
    (stepped : memory.rpcRequestDestroy index handle handle.phase = some after) : after.Holds := by
  have apart := apart handle found
  cases phase : handle.phase with
  | registered =>
    rw [phase] at stepped apart
    exact Option.some.inj stepped ▸ holds.unregister found phase apart
  | unregistered =>
    rw [phase] at stepped apart
    exact Option.some.inj stepped ▸ holds.empty found phase apart
  | emptied =>
    rw [phase] at stepped apart
    exact Option.some.inj stepped ▸ holds.release found phase apart
  | freed =>
    rw [phase] at stepped
    cases stepped

theorem next (holds : memory.Holds) {action : Action} (apart : memory.Apart action)
    {result : Except Fault ClientMemory} (stepped : memory.next action = some result) :
    ∃ after, result = .ok after ∧ after.Holds := by
  cases action with
  | new kind => exact ⟨_, (Option.some.inj stepped).symm, holds.new kind⟩
  | arrive kind hasBody =>
    cases hasBody with
    | false =>
      refine ⟨_, (Option.some.inj stepped).symm, holds.arrive kind none fun other => ?_⟩
      rw [if_neg (by nofun : ¬ none = some other), Nat.add_zero]
    | true =>
      refine ⟨_, (Option.some.inj stepped).symm, holds.arrive kind (some memory.parsed) fun other => ?_⟩
      simp only [Option.some.injEq]
      split <;> split <;> split <;> omega
  | dispatch index =>
    obtain ⟨call, found, stepped⟩ := Option.bind_eq_some_iff.mp stepped
    exact holds.dispatch found apart stepped
  | destroy index =>
    obtain ⟨handle, found, stepped⟩ := Option.bind_eq_some_iff.mp stepped
    obtain ⟨after, released, done⟩ := Option.bind_eq_some_iff.mp stepped
    exact ⟨after, (Option.some.inj done).symm, holds.destroy found apart released⟩

end Holds

theorem init_holds : init.Holds where
  nodup := List.nodup_nil
  listed := nofun
  backed := nofun
  cleared := nofun
  places := fun _ => rfl

private theorem reachable_holds {state : Except Fault ClientMemory}
    (reached : system.Reachable Unhurried state) : ∃ memory, state = .ok memory ∧ memory.Holds := by
  refine reached.invariant (fun state => ∃ memory, state = .ok memory ∧ memory.Holds) ?_ ?_
  · rintro state rfl
    exact ⟨init, rfl, init_holds⟩
  · rintro before action after ⟨memory, rfl, holds⟩ apart stepped
    exact holds.next apart stepped

/-! ### What the other steps lead to -/

theorem breaks_of_error (fault : Fault) : Breaks (.error fault) :=
  ⟨[], _, rfl, by rintro ⟨memory, same, _⟩; cases same⟩

private theorem breaks_of_step (action : Action) {state : Except Fault ClientMemory}
    (stepped : memory.next action = some state) (breaks : Breaks state) : Breaks (.ok memory) := by
  obtain ⟨actions, broken, run, unsound⟩ := breaks
  refine ⟨action :: actions, broken, ?_, unsound⟩
  rw [System.run]
  change (memory.next action).bind _ = _
  rw [stepped]
  exact run

private theorem breaks_of_lost {req : Nat} (parsed : req < memory.parsed) (lost : memory.places req = 0) :
    Breaks (.ok memory) := by
  refine ⟨[], _, rfl, ?_⟩
  rintro ⟨same, defined, once⟩
  obtain rfl := Except.ok.inj defined
  have one := once req parsed
  rw [lost] at one
  cases one

theorem next_dispatch (found : memory.calls[index]? = some call) :
    memory.next (.dispatch index) = memory.rpcDispatchProcessor index call call.phase := by
  change memory.calls[index]?.bind _ = _
  rw [found]
  rfl

private theorem breaks_of_node {place : Nat} {phase : ReleasePhase}
    (found : memory.calls[index]? = some call) (at_ : call.phase.node = some place)
    (known : memory.phaseOf place = some phase) (gone : phase ≠ .registered) :
    Breaks (.ok memory) := by
  obtain ⟨handle, cell, rfl⟩ := Option.map_eq_some_iff.mp known
  have read : memory.node place = .error .useAfterFree := by
    rw [node, cell]
    exact if_neg gone
  refine breaks_of_step (.dispatch index) ?_ (breaks_of_error .useAfterFree)
  rw [next_dispatch found]
  cases phase : call.phase with
  | reading other | passing other | matched other =>
    rw [phase] at at_
    obtain rfl := Option.some.inj at_
    unfold rpcDispatchProcessor
    dsimp only
    rw [read]
    rfl
  | started | unmatched | done | storing | signalling =>
    rw [phase] at at_
    cases at_

private theorem breaks_of_handle {place : Nat} (found : memory.calls[index]? = some call)
    (at_ : call.phase = .storing place ∨ call.phase = .signalling place)
    (freed : memory.phaseOf place = some .freed) : Breaks (.ok memory) := by
  obtain ⟨handle, cell, phase⟩ := Option.map_eq_some_iff.mp freed
  have read : memory.deref place = .error .useAfterFree := by
    rw [deref, cell]
    exact if_pos phase
  refine breaks_of_step (.dispatch index) ?_ (breaks_of_error .useAfterFree)
  rw [next_dispatch found]
  rcases at_ with storing | signalling
  · rw [storing]
    unfold rpcDispatchProcessor
    dsimp only
    rw [read]
    rfl
  · rw [signalling]
    unfold rpcDispatchProcessor
    dsimp only
    rw [read]
    rfl

theorem next_store {place : Nat} (found : memory.calls[index]? = some call)
    (storing : call.phase = .storing place) (cell : memory.handles[place]? = some handle)
    (alive : handle.phase ≠ .freed) :
    memory.next (.dispatch index) = some (.ok ((memory.setHandle place
      { handle with req := call.req }).goto index call (.signalling place))) := by
  have read : memory.deref place = .ok handle := by
    rw [deref, cell]
    exact if_neg alive
  rw [next_dispatch found, storing]
  unfold rpcDispatchProcessor
  dsimp only
  rw [read]
  rfl

private theorem breaks_of_store {place req : Nat} (found : memory.calls[index]? = some call)
    (cell : memory.handles[place]? = some handle)
    (once : req < memory.parsed ∧ memory.places req = 1)
    (had : call.carries req = true ∨ handle.keeps req = true)
    (lost : RpcHandle.keeps req { handle with req := call.req } = false) :
    Breaks (.ok ((memory.setHandle place { handle with req := call.req }).goto index call
      (.signalling place))) := by
  have nowhere : ((memory.setHandle place { handle with req := call.req }).goto index call
      (.signalling place)).places req = 0 := by
    have calls := countP_replace found { call with phase := .signalling place }
      (DispatchCall.carries req)
    have handles := countP_replace cell { handle with req := call.req } (RpcHandle.keeps req)
    have gone : DispatchCall.carries req { call with phase := .signalling place } = false :=
      Bool.and_false _
    rw [gone, if_neg Bool.false_ne_true, Nat.add_zero] at calls
    rw [lost, if_neg Bool.false_ne_true, Nat.add_zero] at handles
    have one := once.2
    rw [places] at one ⊢
    change memory.parserFrees.count req +
      (memory.calls.set index { call with phase := .signalling place }).countP _ +
      (memory.handles.set place { handle with req := call.req }).countP _ = 0
    rcases had with carried | kept
    · rw [if_pos carried] at calls
      omega
    · rw [if_pos kept] at handles
      omega
  exact breaks_of_lost once.1 nowhere

namespace Holds

private theorem req_lt (holds : memory.Holds) {req : Nat} (somewhere : 0 < memory.places req) :
    req < memory.parsed ∧ memory.places req = 1 := by
  have exact_ := holds.places req
  split at exact_
  · exact ⟨‹_›, exact_⟩
  · rw [exact_] at somewhere
    exact absurd somewhere (Nat.lt_irrefl 0)

theorem carried (holds : memory.Holds) (found : memory.calls[index]? = some call) {req : Nat}
    (carries : call.carries req = true) : req < memory.parsed ∧ memory.places req = 1 := by
  apply holds.req_lt
  have counted : 0 < memory.calls.countP (DispatchCall.carries req) :=
    List.countP_pos_iff.mpr ⟨call, List.mem_of_getElem? found, carries⟩
  rw [ClientMemory.places]
  omega

theorem kept (holds : memory.Holds) (found : memory.handles[index]? = some handle) {req : Nat}
    (keeps : handle.keeps req = true) : req < memory.parsed ∧ memory.places req = 1 := by
  apply holds.req_lt
  have counted : 0 < memory.handles.countP (RpcHandle.keeps req) :=
    List.countP_pos_iff.mpr ⟨handle, List.mem_of_getElem? found, keeps⟩
  rw [ClientMemory.places]
  omega

private theorem not_both (holds : memory.Holds) (found : memory.calls[index]? = some call) {place req : Nat}
    (carries : call.carries req = true) (cell : memory.handles[place]? = some handle) :
    handle.keeps req = false := by
  by_contra keeps
  have one := (holds.carried found carries).2
  have calls : 0 < memory.calls.countP (DispatchCall.carries req) :=
    List.countP_pos_iff.mpr ⟨call, List.mem_of_getElem? found, carries⟩
  have handles : 0 < memory.handles.countP (RpcHandle.keeps req) :=
    List.countP_pos_iff.mpr ⟨handle, List.mem_of_getElem? cell, Bool.not_eq_false _ |>.mp keeps⟩
  rw [ClientMemory.places] at one
  omega

private theorem breaks_dispatch (holds : memory.Holds) (hurried : ¬ memory.Apart (.dispatch index))
    {state : Except Fault ClientMemory} (stepped : memory.next (.dispatch index) = some state) :
    Breaks state := by
  obtain ⟨call, found, _⟩ := Option.bind_eq_some_iff.mp stepped
  obtain ⟨place, handle, storing, cell, full⟩ : ∃ place handle, call.phase = .storing place ∧
      memory.handles[place]? = some handle ∧ handle.req ≠ none := by
    by_contra none
    apply hurried
    intro other known
    obtain rfl := Option.some.inj (found.symm.trans known)
    cases phase : call.phase with
    | storing place =>
      intro handle cell
      by_contra full
      exact none ⟨place, handle, phase, cell, full⟩
    | _ => trivial
  obtain ⟨req, had⟩ := Option.ne_none_iff_exists'.mp full
  have isFull : handle.phase.isFull = true := by
    by_contra cleared
    exact full (holds.cleared handle (List.mem_of_getElem? cell) (Bool.eq_false_iff.mpr cleared))
  have keeps : handle.keeps req = true := by
    rw [RpcHandle.keeps, had, isFull, Bool.and_true]
    exact decide_eq_true rfl
  have alive : handle.phase ≠ .freed := by
    intro freed
    rw [freed] at isFull
    cases isFull
  have lost : RpcHandle.keeps req { handle with req := call.req } = false := by
    by_contra again
    have again := (Bool.and_eq_true _ _).mp (Bool.not_eq_false _ |>.mp again)
    have carries : call.carries req = true := by
      rw [DispatchCall.carries, storing]
      exact (Bool.and_true _).trans again.1
    rw [holds.not_both found carries cell] at keeps
    cases keeps
  rw [next_store found storing cell alive] at stepped
  obtain rfl := Option.some.inj stepped
  exact breaks_of_store found cell (holds.kept cell keeps) (.inr keeps) lost

private theorem breaks_unregister {place : Nat} (found : memory.handles[place]? = some handle)
    (known : memory.calls[index]? = some call) (node : call.phase.node = some place) :
    Breaks (.ok ({ memory with dispatchList := memory.dispatchList.erase place }.setHandle place
      { handle with phase := .unregistered })) := by
  have phase : ({ memory with dispatchList := memory.dispatchList.erase place }.setHandle place
      { handle with phase := .unregistered }).phaseOf place = some .unregistered := by
    refine (phaseOf_setHandle found _).trans ?_
    rw [if_pos rfl]
  exact breaks_of_node known node phase (by nofun)

private theorem breaks_empty (holds : memory.Holds) {place : Nat}
    (found : memory.handles[place]? = some handle) (unregistered : handle.phase = .unregistered)
    (known : memory.calls[index]? = some call) (storing : call.phase = .storing place)
    (some_ : call.req ≠ none) :
    Breaks (.ok ((memory.rpcParserFree handle.req).setHandle place
      { handle with req := none, phase := .emptied })) := by
  obtain ⟨req, has⟩ := Option.ne_none_iff_exists'.mp some_
  have carries : call.carries req = true := by
    rw [DispatchCall.carries, has, storing]
    exact (Bool.and_true _).trans (decide_eq_true rfl)
  have cell : ((memory.rpcParserFree handle.req).setHandle place
      { handle with req := none, phase := .emptied }).handles[place]? =
        some { handle with req := none, phase := .emptied } :=
    List.getElem?_set_self (List.getElem?_eq_some_iff.mp found).1
  have once := holds.carried known carries
  rw [← places_empty found unregistered] at once
  refine breaks_of_step (.dispatch index) (next_store known storing cell (by nofun)) ?_
  exact breaks_of_store known cell once (.inl carries) (Bool.and_false _)

private theorem breaks_release {place : Nat} (found : memory.handles[place]? = some handle)
    (known : memory.calls[index]? = some call)
    (at_ : call.phase = .storing place ∨ call.phase = .signalling place) :
    Breaks (.ok (memory.setHandle place { handle with phase := .freed })) := by
  have phase : (memory.setHandle place { handle with phase := .freed }).phaseOf place =
      some .freed := by
    rw [phaseOf_setHandle found, if_pos rfl]
  exact breaks_of_handle known at_ phase

private theorem breaks_destroy (holds : memory.Holds) (hurried : ¬ memory.Apart (.destroy index))
    {state : Except Fault ClientMemory} (stepped : memory.next (.destroy index) = some state) :
    Breaks state := by
  obtain ⟨handle, found, stepped⟩ := Option.bind_eq_some_iff.mp stepped
  obtain ⟨after, released, done⟩ := Option.bind_eq_some_iff.mp stepped
  obtain rfl := Option.some.inj done
  have only : ∀ {other}, other ∈ memory.handles[index]? → other = handle :=
    fun known => Option.some.inj (known.symm.trans found)
  cases phase : handle.phase with
  | registered =>
    rw [phase] at released
    obtain ⟨call, member, node⟩ : ∃ call ∈ memory.calls, call.phase.node = some index := by
      by_contra none
      apply hurried
      intro other known
      rw [only known, phase]
      exact fun call member node => none ⟨call, member, node⟩
    obtain ⟨place, known⟩ := List.mem_iff_getElem?.mp member
    exact Option.some.inj released ▸ breaks_unregister found known node
  | unregistered =>
    rw [phase] at released
    obtain ⟨call, member, storing, has⟩ : ∃ call ∈ memory.calls, call.phase = .storing index ∧
        call.req ≠ none := by
      by_contra none
      apply hurried
      intro other known
      rw [only known, phase]
      intro call member storing
      by_contra has
      exact none ⟨call, member, storing, has⟩
    obtain ⟨place, known⟩ := List.mem_iff_getElem?.mp member
    exact Option.some.inj released ▸ holds.breaks_empty found phase known storing has
  | emptied =>
    rw [phase] at released
    obtain ⟨call, member, at_⟩ : ∃ call ∈ memory.calls,
        call.phase = .storing index ∨ call.phase = .signalling index := by
      by_contra none
      apply hurried
      intro other known
      rw [only known, phase]
      exact fun call member => ⟨fun storing => none ⟨call, member, .inl storing⟩,
        fun signalling => none ⟨call, member, .inr signalling⟩⟩
    obtain ⟨place, known⟩ := List.mem_iff_getElem?.mp member
    exact Option.some.inj released ▸ breaks_release found known at_
  | freed =>
    rw [phase] at released
    cases released

end Holds

/-- Unhurried runs use no freed memory and free every parsed request once, and any other step
lets a run go wrong. -/
theorem unhurried_sound {state : Except Fault ClientMemory}
    (reached : system.Reachable Unhurried state) :
    Sound state ∧ ∀ action after, ¬ Unhurried state action →
      system.next state action = some after → Breaks after := by
  obtain ⟨memory, rfl, holds⟩ := reachable_holds reached
  constructor
  · refine ⟨memory, rfl, fun req parsed => ?_⟩
    rw [holds.places, if_pos parsed]
  · intro action after hurried stepped
    cases action with
    | new | arrive => exact absurd trivial hurried
    | dispatch index => exact holds.breaks_dispatch hurried stepped
    | destroy index => exact holds.breaks_destroy hurried stepped

private def oneExchange : List Action :=
  [.new ⟨1, 1⟩, .arrive ⟨1, 1⟩ true, .dispatch 0, .dispatch 0, .dispatch 0, .dispatch 0,
    .dispatch 0, .destroy 0, .destroy 0, .destroy 0]

/-- The memory behind this run. -/
private def oneFreed : ClientMemory :=
  ⟨[⟨⟨1, 1⟩, none, .freed⟩], [], [⟨⟨1, 1⟩, some 0, .done⟩], 1, [0]⟩

theorem oneExchange_sound : Sound (.ok oneFreed) := by
  have done : system.run (.ok init) oneExchange = some (.ok oneFreed) := by decide
  have apart : system.Guarded Unhurried (.ok init) oneExchange := by decide
  have started : system.Start (.ok init) := rfl
  exact (unhurried_sound ((System.Reachable.start started).run apart done)).1

/-- A request times out and is destroyed while its reply is between the lookup of its handle and
the store. -/
theorem not_sound_timeout : ∃ state, system.Reachable System.Free state ∧ ¬ Sound state := by
  have done : system.run (.ok init) [.new ⟨1, 1⟩, .arrive ⟨1, 1⟩ true, .dispatch 0, .dispatch 0,
      .dispatch 0, .destroy 0, .destroy 0, .destroy 0, .dispatch 0] =
    some (.error .useAfterFree) := by decide
  have started : system.Start (.ok init) := rfl
  refine ⟨_, (System.Reachable.start started).run (System.guarded_free _ _) done, ?_⟩
  rintro ⟨memory, same, _⟩
  cases same

end ClientMemory
end Livezure.Rpc
