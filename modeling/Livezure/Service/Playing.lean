import Livezure.Service.Decimal
import Livezure.Service.DeviceTable
import Livezure.Service.Prints

/-! Which answers of `req_play_device`, `req_play_stop` and `req_play_touch` are the reference
counts of the device table. -/
namespace Livezure.Service
open Livezure.Core Db Rpc

inductive PlayKind where
  | device
  | stop
  | touch
  deriving DecidableEq

structure PlayRequest where
  kind : PlayKind
  fd : Int
  req : Option RpcReq

namespace PlayRequest

def run (server : Server) (request : PlayRequest) : Except Fault Outcome :=
  match request.kind with
  | .device => reqPlayDevice server request.fd request.req
  | .stop => reqPlayStop server request.fd request.req
  | .touch => reqPlayTouch server request.fd request.req

/-- The statements that a request has printed. -/
def prints (server : Server) (request : PlayRequest) : List Statement :=
  match request.kind with
  | .device | .stop => playPrints server request.fd request.req fun _ => []
  | .touch => playPrints server request.fd request.req (touchPrints server)

/-- The device of a request, if the session is logged in and the device is its admin's. -/
def target (server : Server) (request : PlayRequest) : Option Bytes :=
  match parserGet request.req "uuid", sessionAt server request.fd with
  | some uuid, some session =>
    if (dbAccountDeviceGet server.store (playAdminUuid session) (some uuid)).isSome then some uuid
    else none
  | _, _ => none

/-- The call that a request makes to change the device table. -/
def call (request : PlayRequest) (uuid : Bytes) : Option DeviceCall :=
  match request.kind with
  | .device => some (.refWork uuid)
  | .stop => some (.dref uuid)
  | .touch => none

/-- The text of the `rid` in the reply. -/
def answered (server : Server) (request : PlayRequest) : Option Bytes :=
  match request.run server with
  | .ok outcome => outcome.reply.bind (List.lookup (ascii "rid"))
  | .error _ => none

end PlayRequest

/-- The server, and the calls that the requests so far made to change the device table. -/
structure PlayState where
  server : Server
  calls : List (DeviceCall × Bool)

namespace PlayState

/-- No device is at work. -/
def start (store : Store) (sessions : List SessionEntry) : PlayState := ⟨⟨store, sessions, []⟩, []⟩

def table (state : PlayState) : DeviceTable := ⟨state.server.devices, state.calls⟩

def step (state : PlayState) (request : PlayRequest) : PlayState where
  server :=
    match request.run state.server with
    | .ok outcome => outcome.server
    | .error _ => state.server
  calls :=
    match (request.target state.server).bind request.call with
    | some call => (state.table.step call).calls
    | none => state.calls

/-- The plays that succeeded less the stops that had an effect. -/
def net (state : PlayState) (uuid : Bytes) : Int := state.table.net uuid

/-- No text in a statement has a quote. -/
def Plain (state : PlayState) (request : PlayRequest) : Prop := AllPlain (request.prints state.server)

instance (state : PlayState) (request : PlayRequest) : Decidable (state.Plain request) :=
  inferInstanceAs (Decidable (AllPlain (request.prints state.server)))

/-- The `rid` is the documented one. -/
def Documented (state : PlayState) (request : PlayRequest) : Prop :=
  ∀ uuid, request.target state.server = some uuid →
    match request.kind with
    | .device => 1 ≤ (state.step request).net uuid ∧
        request.answered state.server = some (decimal ((state.step request).net uuid))
    | .stop =>
      if state.net uuid = 0 then
        ∃ result, result < 0 ∧ request.answered state.server = some (decimal result)
      else request.answered state.server = some (decimal ((state.step request).net uuid))
    | .touch => request.answered state.server = some (decimal (state.net uuid))

/-- A play is of a device whose count is below INT_MAX, and a stop is of the last reference; a touch is
of a device that works, or is the first one of some admin. -/
def Answerable (state : PlayState) (request : PlayRequest) : Prop :=
  ∀ uuid, request.target state.server = some uuid →
    match request.kind with
    | .device => ∀ entry ∈ state.server.devices, entry.deviceUuid = uuid → entry.ref < 2 ^ 31 - 1
    | .stop => ⟨uuid, 1⟩ ∈ state.server.devices
    | .touch => (∃ entry ∈ state.server.devices, entry.deviceUuid = uuid) ∨
        ∃ admins, dbAccountListAdminGet state.server.store none = some admins ∧
          ∃ admin ∈ admins, ∃ first rest,
            dbAccountDeviceGet state.server.store admin.uuid none = some (first :: rest) ∧
              first.uuid = uuid

end PlayState

/-! ### What a request does -/

section Request
variable {server : Server} {request : PlayRequest} {uuid : Bytes}

/-- The work of a kind, as the handlers pass it to `reqPlay`. -/
def PlayKind.work (kind : PlayKind) (store : Store) (devices : List DeviceEntry) (uuid : Bytes) :
    List DeviceEntry × Reply :=
  match kind with
  | .device =>
    let (work, devices) := sessionDeviceRefWork uuid devices
    (devices, rid work)
  | .stop => ((sessionDeviceDref uuid devices).2, rid 0)
  | .touch =>
    let work := sessionDeviceTouch store devices uuid
    (devices, rid work ++
      if work > 0 then [(ascii "path", []), (ascii "elapsed", ascii "0")] else [])

theorem PlayRequest.run_eq (server : Server) (request : PlayRequest) :
    request.run server = reqPlay server request.fd request.req request.kind.work := by
  obtain ⟨kind, fd, req⟩ := request
  cases kind <;> rfl

theorem PlayRequest.run_target (on : request.target server = some uuid) :
    ∃ held session, request.run server = .ok ⟨{ server with
      sessions := held, devices := (request.kind.work server.store server.devices uuid).1 },
      some (request.kind.work server.store server.devices uuid).2, some (some session)⟩ := by
  rw [PlayRequest.run_eq]
  unfold PlayRequest.target sessionAt at on
  unfold reqPlay
  cases given : parserGet request.req "uuid" with
  | none => simp [given] at on
  | some text =>
    cases found : onlineSessionRef server.sessions request.fd with
    | none => simp [given, found] at on
    | some place =>
      obtain ⟨index, session, held⟩ := place
      simp only [given, found, Option.map_some] at on
      split at on
      · rename_i own
        cases on
        simp only [own, if_true]
        exact ⟨held, session, rfl⟩
      · cases on

theorem PlayRequest.run_other (off : request.target server = none) :
    ∃ outcome, request.run server = .ok outcome ∧ outcome.server.devices = server.devices ∧
      outcome.server.store = server.store := by
  rw [PlayRequest.run_eq]
  unfold PlayRequest.target sessionAt at off
  unfold reqPlay
  cases given : parserGet request.req "uuid" with
  | none => exact ⟨_, rfl, rfl, rfl⟩
  | some text =>
    cases found : onlineSessionRef server.sessions request.fd with
    | none => exact ⟨_, rfl, rfl, rfl⟩
    | some place =>
      obtain ⟨index, session, held⟩ := place
      simp only [given, found, Option.map_some] at off
      split at off
      · cases off
      · rename_i other
        simp only [other]
        exact ⟨_, rfl, rfl, rfl⟩

/-- A device that is got by its uuid has a uuid that fits the field. -/
theorem PlayRequest.target_short (fits : ∀ row ∈ server.store.deviceBasic.rows, row.uuid.length ≤ 38)
    (on : request.target server = some uuid) : uuid.length ≤ 38 := by
  unfold PlayRequest.target at on
  split at on
  · rename_i text session given found
    split at on
    · rename_i own
      cases on
      obtain ⟨devices, got⟩ := Option.isSome_iff_exists.mp own
      unfold dbAccountDeviceGet at got
      dsimp only at got
      split at got
      · cases got
      · rename_i some_
        obtain ⟨device, member⟩ := List.exists_mem_of_ne_nil _ some_
        obtain ⟨basic, listed, joined⟩ := List.mem_flatMap.mp member
        obtain ⟨row, selected, _⟩ := List.mem_map.mp joined
        have met := (Table.mem_select.mp selected).2
        simp only [ownsDevice, Bool.and_eq_true, decide_eq_true_eq] at met
        rw [← met.1.2, met.2]
        exact fits basic (Table.mem_scan.mp listed)
    · cases on
  · cases on

end Request

/-! ### Runs -/

namespace PlayState
variable {state : PlayState} {request : PlayRequest} {uuid : Bytes}

/-- The table counts the references, and the stored uuids fit their field. -/
structure Holds (state : PlayState) : Prop where
  table : state.table.Holds
  fits : ∀ row ∈ state.server.store.deviceBasic.rows, row.uuid.length ≤ 38

theorem step_store (state : PlayState) (request : PlayRequest) :
    (state.step request).server.store = state.server.store := by
  cases on : request.target state.server with
  | none =>
    obtain ⟨outcome, done, _, store⟩ := PlayRequest.run_other on
    simp only [step, done]
    exact store
  | some uuid =>
    obtain ⟨held, session, done⟩ := PlayRequest.run_target on
    simp only [step, done]

theorem step_table (state : PlayState) (request : PlayRequest) : (state.step request).table =
    match (request.target state.server).bind request.call with
    | some call => state.table.step call
    | none => state.table := by
  cases on : request.target state.server with
  | none =>
    obtain ⟨outcome, done, devices, _⟩ := PlayRequest.run_other on
    simp only [step, table, done, on, Option.bind_none]
    rw [devices]
  | some uuid =>
    obtain ⟨held, session, done⟩ := PlayRequest.run_target on
    have changed := fun call => state.table.step_devices call
    obtain ⟨kind, fd, req⟩ := request
    cases kind with
    | device =>
      have devices := changed (.refWork uuid)
      rw [DeviceTable.run_devices] at devices
      apply DeviceTable.ext
      · simp only [step, table, done, on, Option.bind_some, PlayRequest.call, PlayKind.work]
        exact (Option.some.inj devices).symm
      · simp only [step, table, on, Option.bind_some, PlayRequest.call]
    | stop =>
      have devices := changed (.dref uuid)
      rw [DeviceTable.run_devices] at devices
      apply DeviceTable.ext
      · simp only [step, table, done, on, Option.bind_some, PlayRequest.call, PlayKind.work]
        exact (Option.some.inj devices).symm
      · simp only [step, table, on, Option.bind_some, PlayRequest.call]
    | touch =>
      simp only [step, table, done, on, Option.bind_some, PlayRequest.call, PlayKind.work]

private theorem room_iff (holds : state.Holds) (uuid : Bytes) :
    (∀ entry ∈ state.server.devices, entry.deviceUuid = uuid → entry.ref < 2 ^ 31 - 1) ↔
      state.net uuid < 2 ^ 31 - 1 := by
  obtain ⟨listed, exact⟩ := DeviceTable.entry_of_holds holds.table uuid
  constructor
  · intro room
    by_cases idle : state.net uuid = 0
    · rw [idle]
      decide
    · obtain ⟨entry, member, rfl⟩ := List.mem_map.mp (listed.mpr idle)
      rw [net, ← exact entry member]
      exact room entry member rfl
  · rintro room entry member rfl
    rw [exact entry member]
    exact room

theorem step_holds (holds : state.Holds) (answerable : state.Answerable request) :
    (state.step request).Holds := by
  refine ⟨?_, ?_⟩
  · rw [step_table]
    cases on : request.target state.server with
    | none => exact holds.table
    | some uuid =>
      have short := PlayRequest.target_short holds.fits on
      cases kind : request.kind with
      | device =>
        have room := answerable uuid on
        rw [kind] at room
        have below := (room_iff holds uuid).mp room
        simp only [Option.bind_some, PlayRequest.call, kind]
        exact (DeviceTable.refWork_step holds.table short (Int.add_lt_of_lt_sub_right below)).1
      | stop =>
        simp only [Option.bind_some, PlayRequest.call, kind]
        exact (DeviceTable.dref_step holds.table).1
      | touch =>
        simp only [Option.bind_some, PlayRequest.call, kind]
        exact holds.table
  · rw [step_store]
    exact holds.fits

theorem start_holds {store : Store} (fits : ∀ row ∈ store.deviceBasic.rows, row.uuid.length ≤ 38)
    (sessions : List SessionEntry) : (start store sessions).Holds :=
  ⟨DeviceTable.init_holds, fits⟩

theorem answered_eq (on : request.target state.server = some uuid) :
    request.answered state.server =
      List.lookup (ascii "rid")
        (request.kind.work state.server.store state.server.devices uuid).2 := by
  obtain ⟨held, session, done⟩ := PlayRequest.run_target on
  rw [PlayRequest.answered, done]
  rfl

private theorem lookup_rid (result : Int) (more : Reply) :
    List.lookup (ascii "rid") (rid result ++ more) = some (decimal result) := by
  simp [rid]

private theorem device_documented_iff (holds : state.Holds) (on : request.target state.server = some uuid)
    (kind : request.kind = .device) : (1 ≤ (state.step request).net uuid ∧
      request.answered state.server = some (decimal ((state.step request).net uuid))) ↔
        ∀ entry ∈ state.server.devices, entry.deviceUuid = uuid → entry.ref < 2 ^ 31 - 1 := by
  have short := PlayRequest.target_short holds.fits on
  have after : (state.step request).table = state.table.step (.refWork uuid) := by
    rw [step_table, on, Option.bind_some, PlayRequest.call, kind]
  have nonneg := (DeviceTable.exact_of_holds holds.table).nonneg uuid
  have taken := state.table.net_refWork uuid uuid
  rw [if_pos rfl] at taken
  have answer : request.answered state.server =
      some (decimal (sessionDeviceRefWork uuid state.server.devices).1) := by
    rw [answered_eq on, kind]
    exact lookup_rid _ []
  rw [room_iff holds, net, after, answer, Option.some.injEq]
  constructor
  · rintro ⟨_, same⟩
    by_contra full
    -- the count is a value of `int`, and the net number is not
    have fits := DeviceTable.refWork_fits uuid state.server.devices
    rw [decimal_inj same] at fits
    unfold PlayState.net at full
    obtain ⟨_, high⟩ := fits
    omega
  · intro below
    obtain ⟨_, devices, run⟩ := DeviceTable.refWork_step holds.table short
      (Int.add_lt_of_lt_sub_right below)
    rw [DeviceTable.run_devices] at run
    have count : (sessionDeviceRefWork uuid state.server.devices).1 =
      (state.table.step (.refWork uuid)).net uuid := congrArg Prod.fst (Option.some.inj run)
    exact ⟨by omega, congrArg decimal count⟩

private theorem single_iff (holds : state.Holds) : ⟨uuid, 1⟩ ∈ state.server.devices ↔ state.net uuid = 1 := by
  obtain ⟨listed, exact⟩ := DeviceTable.entry_of_holds holds.table uuid
  constructor
  · intro member
    exact (exact ⟨uuid, 1⟩ member).symm
  · intro one
    change state.table.net uuid = 1 at one
    have used : uuid ∈ uuidsOf state.table.devices := listed.mpr (by rw [one]; decide)
    obtain ⟨⟨_, ref⟩, member, rfl⟩ := List.mem_map.mp used
    have same : ref = 1 := (exact _ member).trans one
    rw [same] at member
    exact member

private theorem stop_documented_iff (holds : state.Holds) (on : request.target state.server = some uuid)
    (kind : request.kind = .stop) : (if state.net uuid = 0 then
        ∃ result, result < 0 ∧ request.answered state.server = some (decimal result)
      else request.answered state.server = some (decimal ((state.step request).net uuid))) ↔
        ⟨uuid, 1⟩ ∈ state.server.devices := by
  have after : (state.step request).table = state.table.step (.dref uuid) := by
    rw [step_table, on, Option.bind_some, PlayRequest.call, kind]
  have answer : request.answered state.server = some (decimal 0) := by
    rw [answered_eq on, kind]
    exact lookup_rid 0 []
  rw [single_iff holds, answer]
  by_cases none : state.net uuid = 0
  · rw [if_pos none]
    apply iff_of_false
    · rintro ⟨result, negative, same⟩
      rw [← decimal_inj (Option.some.inj same)] at negative
      exact absurd negative (by decide)
    · omega
  · rw [if_neg none]
    have listed := (DeviceTable.entry_of_holds holds.table uuid).1.mpr none
    have left : (state.step request).net uuid = state.net uuid - 1 := by
      rw [net, after, DeviceTable.net_dref, if_pos ⟨rfl, listed⟩]
      rfl
    rw [left, Option.some.injEq]
    constructor
    · intro same
      have zero := decimal_inj same
      omega
    · intro one
      rw [one]
      rfl

private theorem first_of_admin {store : Store} : (((dbAccountListAdminGet store none).getD []).any fun admin =>
    (dbAccountDeviceGet store admin.uuid none).any fun devices =>
      devices.head?.any fun device => decide (device.uuid = uuid)) = true ↔
        ∃ admins, dbAccountListAdminGet store none = some admins ∧
          ∃ admin ∈ admins, ∃ first rest,
            dbAccountDeviceGet store admin.uuid none = some (first :: rest) ∧ first.uuid = uuid := by
  have each : ∀ admin : AccountBasic, ((dbAccountDeviceGet store admin.uuid none).any fun devices =>
      devices.head?.any fun device => decide (device.uuid = uuid)) = true ↔ ∃ first rest,
        dbAccountDeviceGet store admin.uuid none = some (first :: rest) ∧ first.uuid = uuid := by
    intro admin
    cases dbAccountDeviceGet store admin.uuid none with
    | none => simp
    | some devices => cases devices <;> simp
  cases dbAccountListAdminGet store none with
  | none => simp
  | some admins => simp [each]

private theorem touch_documented_iff (holds : state.Holds) (on : request.target state.server = some uuid)
    (kind : request.kind = .touch) :
    request.answered state.server = some (decimal (state.net uuid)) ↔
      ((∃ entry ∈ state.server.devices, entry.deviceUuid = uuid) ∨
        ∃ admins, dbAccountListAdminGet state.server.store none = some admins ∧
          ∃ admin ∈ admins, ∃ first rest,
            dbAccountDeviceGet state.server.store admin.uuid none = some (first :: rest) ∧
              first.uuid = uuid) := by
  obtain ⟨listed, exact⟩ := DeviceTable.entry_of_holds holds.table uuid
  have answer : request.answered state.server =
      some (decimal (sessionDeviceTouch state.server.store state.server.devices uuid)) := by
    rw [answered_eq on, kind]
    exact lookup_rid _ _
  rw [answer, Option.some.injEq]
  unfold sessionDeviceTouch
  cases found : state.server.devices.find? fun entry => decide (entry.deviceUuid = uuid) with
  | some entry =>
    have member := List.mem_of_find?_eq_some found
    have same : entry.deviceUuid = uuid := by simpa using List.find?_some found
    have count := exact entry member
    rw [same] at count
    exact iff_of_true (congrArg decimal count) (.inl ⟨entry, member, same⟩)
  | none =>
    have absent : ∀ entry ∈ state.server.devices, entry.deviceUuid ≠ uuid := by
      simpa using List.find?_eq_none.mp found
    have idle : state.net uuid = 0 := by
      by_contra used
      obtain ⟨entry, member, same⟩ := List.mem_map.mp (listed.mpr used)
      exact absent entry member same
    simp only [idle, ← first_of_admin]
    split
    · rename_i first
      exact iff_of_true rfl (.inr first)
    · rename_i other
      apply iff_of_false
      · intro same
        exact absurd (decimal_inj same) (by decide)
      · rintro (⟨entry, member, same⟩ | first)
        · exact absent entry member same
        · exact other first

private theorem documented_iff (holds : state.Holds) (request : PlayRequest) :
    state.Documented request ↔ state.Answerable request := by
  unfold Documented Answerable
  apply forall_congr'
  intro uuid
  apply imp_congr_right
  intro on
  cases kind : request.kind with
  | device => exact device_documented_iff holds on kind
  | stop => exact stop_documented_iff holds on kind
  | touch => exact touch_documented_iff holds on kind

/-- By statements that mean it, all answers of a run are the documented ones exactly if all its
requests are answerable. -/
theorem run_documented_iff (store : Store) (sessions : List SessionEntry)
    (fits : ∀ row ∈ store.deviceBasic.rows, row.uuid.length ≤ 38) (requests : List PlayRequest)
    (plain : AllSteps step Plain (start store sessions) requests) :
    AllSteps step (fun state request => AllDenote (request.prints state.server))
        (start store sessions) requests ∧
      (AllSteps step Documented (start store sessions) requests ↔
        AllSteps step Answerable (start store sessions) requests) := by
  constructor
  · exact (allSteps_iff step (fun _ => True) (fun _ _ _ _ => trivial)
      (fun _ _ _ => allDenote_iff) trivial requests).mpr plain
  · exact allSteps_iff step Holds
      (fun _ request holds documented => step_holds holds ((documented_iff holds request).mp documented))
      (fun _ request holds => documented_iff holds request) (start_holds fits sessions) requests

/-- An admin with the device `d`. -/
private def oneDevice : Store :=
  (dbAccountDeviceAdd (dbAccountAdminAdd .init id ⟨[50], [], []⟩ ⟨ascii "a", [], [], []⟩).2
    ⟨[50], [], []⟩ (ascii "a") ⟨ascii "d", [], [], 1, [], [], 1, [], 1, 1, [], [], [], false, []⟩).2

/-- The admin's session. -/
private def adminSessions : List SessionEntry :=
  [⟨⟨⟨ascii "a", [], [], [], []⟩, [], true, true, ⟨5, [], 0, true⟩⟩, 0, false⟩]

private def playRequest (kind : PlayKind) : PlayRequest :=
  ⟨kind, 5, some [⟨ascii "uuid", some (ascii "d"), 1⟩]⟩

/-- It plays the device, and stops it. -/
theorem run_documented_once : AllSteps step Documented (start oneDevice adminSessions)
    [playRequest .device, playRequest .stop] := by
  have plain : AllSteps step Plain (start oneDevice adminSessions)
      [playRequest .device, playRequest .stop] :=
    ⟨by decide +kernel, by decide +kernel, trivial⟩
  refine (run_documented_iff oneDevice adminSessions (by decide) _ plain).2.mpr ⟨?_, ?_, trivial⟩
  · exact fun uuid _ entry member => absurd member List.not_mem_nil
  · intro uuid on
    obtain rfl : ascii "d" = uuid := Option.some.inj on
    change DeviceEntry.mk (ascii "d") 1 ∈ _
    decide

/-- After two plays a stop answers 0, and one reference is left. -/
theorem not_documented_stop : ¬ AllSteps step Documented (start oneDevice adminSessions)
    [playRequest .device, playRequest .device, playRequest .stop] := by
  intro documented
  have stop := documented.2.2.1 (ascii "d") (by decide)
  change (if _ = (0 : Int) then _ else _) at stop
  rw [if_neg (by decide)] at stop
  exact absurd stop (by decide)

end PlayState

end Livezure.Service
