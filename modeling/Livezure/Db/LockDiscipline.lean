import Livezure.Db.Locking

/-! Every function of `db_account.c` takes the connection's lock and gives it back in turn, and frees
each `sql_t` that it creates. -/
namespace Livezure.Db
open Livezure.Core

/-- Where a thread is between `sql_create_new` and the end of `sql_free`. -/
inductive SqlState where
  | idle
  | made (sql : Nat)
  | opened (sql : Nat)
  | freed

/-- One instance at a time: it is used under the lock, and freed before the lock is given back. -/
def sqlProtocol : Protocol SqlOp.Answer SqlState
  | .idle, .alloc, sql => some (.made sql)
  | .made sql, .lock, _ => some (.opened sql)
  | .opened sql, .query used _, _ => if used = sql then some (.opened sql) else none
  | .opened sql, .read used, _ => if used = sql then some (.opened sql) else none
  | .opened sql, .strdupNull, _ => some (.opened sql)
  | .opened sql, .free used, _ => if used = sql then some .freed else none
  | .freed, .unlock, _ => some .idle
  | _, _, _ => none

namespace SqlProgram
variable {Result Later Value : Type}

def Tidy (program : SqlProgram Result) : Prop :=
  sqlProtocol.Obeys .idle program fun state _ => state = .idle

/-- What goes through an instance and leaves it as it is. -/
def Reads (sql : SqlInst) (program : SqlProgram Result) : Prop :=
  sqlProtocol.Obeys (.opened sql.address) program fun state _ => state = .opened sql.address

/-! ### Rules -/

theorem tidy_return {result : Result} : Tidy (pure result : SqlProgram Result) :=
  Protocol.obeys_pure rfl

private theorem tidy_stop {fault : Fault} : Tidy (.stop fault : SqlProgram Result) := Protocol.obeys_stop

private theorem tidy_bind {program : SqlProgram Result} {next : Result → SqlProgram Later}
    (first : Tidy program) (later : ∀ result, Tidy (next result)) : Tidy (program >>= next) := by
  refine Protocol.Obeys.bind first fun after result idle => ?_
  rw [idle]
  exact later result

private theorem tidy_ofExcept {computed : Except Fault Result} :
    Tidy (Program.ofExcept computed : SqlProgram Result) := Protocol.obeys_ofExcept fun _ _ => rfl

section Instance
variable {sql : SqlInst} {post : SqlState → Later → Prop}

private theorem reads_return {result : Result} : Reads sql (pure result : SqlProgram Result) :=
  Protocol.obeys_pure rfl

private theorem reads_perform {use : SqlOp}
    (keeps : ∀ answer, sqlProtocol (.opened sql.address) use answer = some (.opened sql.address)) :
    Reads sql (perform use) :=
  Protocol.obeys_one fun answer => ⟨.opened sql.address, keeps answer, rfl⟩

private theorem reads_read : Reads sql (perform (.read sql.address)) := reads_perform fun _ => if_pos rfl

/-- A bind behind something that leaves the instance as it is. -/
theorem Reads.bind {program : SqlProgram Result} {next : Result → SqlProgram Later}
    (first : Reads sql program)
    (later : ∀ result, sqlProtocol.Obeys (.opened sql.address) (next result) post) :
    sqlProtocol.Obeys (.opened sql.address) (program >>= next) post := by
  refine Protocol.Obeys.bind first fun after result same => ?_
  rw [same]
  exact later result

private theorem reads_copyRow (cells : List Cell) : Reads sql (copyRow cells) := by
  unfold copyRow
  split
  · refine (reads_perform fun _ => rfl).bind fun returns => ?_
    split
    · exact reads_return
    · exact Protocol.obeys_stop
  · exact reads_return

private theorem create_bind {next : Option SqlInst → SqlProgram Later}
    (later : ∀ sql : SqlInst, sqlProtocol.Obeys (.opened sql.address) (next (some sql)) post) :
    sqlProtocol.Obeys .idle (sqlCreateNew >>= next) post := by
  have created : sqlProtocol.Obeys .idle sqlCreateNew fun state sql =>
      ∃ address, sql = some ⟨address, ⟨.done, 0⟩⟩ ∧ state = .opened address := by
    refine Protocol.obeys_one_bind fun address => ⟨.made address, rfl, ?_⟩
    refine Protocol.obeys_one_bind fun _ => ⟨.opened address, rfl, ?_⟩
    exact Protocol.obeys_pure ⟨address, rfl, rfl⟩
  refine Protocol.Obeys.bind created ?_
  rintro after sql ⟨address, rfl, rfl⟩
  exact later ⟨address, ⟨.done, 0⟩⟩

private theorem free_bind {next : Option SqlInst → SqlProgram Later}
    (later : sqlProtocol.Obeys .idle (next none) post) :
    sqlProtocol.Obeys (.opened sql.address) (sqlFree (some sql) >>= next) post := by
  have gone : sqlProtocol.Obeys (.opened sql.address) (sqlFree (some sql)) fun state sql =>
      sql = none ∧ state = .idle := by
    refine reads_read.bind fun _ => ?_
    refine Protocol.obeys_one_bind fun _ => ⟨.freed, if_pos rfl, ?_⟩
    refine Protocol.obeys_one_bind fun _ => ⟨.idle, rfl, ?_⟩
    exact Protocol.obeys_pure ⟨rfl, rfl⟩
  refine Protocol.Obeys.bind gone ?_
  rintro after sql ⟨rfl, rfl⟩
  exact later

/-- What an answer leaves of an instance is at its address. -/
def Keeps (sql : SqlInst) (state : SqlState) (answer : Result × SqlInst) : Prop :=
  state = .opened sql.address ∧ answer.2.address = sql.address

/-- A bind behind something that leaves an instance at its address. -/
theorem keeps_bind {program : SqlProgram (Result × SqlInst)}
    {next : Result × SqlInst → SqlProgram Later}
    (first : sqlProtocol.Obeys (.opened sql.address) program (Keeps sql))
    (later : ∀ result (sql : SqlInst),
      sqlProtocol.Obeys (.opened sql.address) (next (result, sql)) post) :
    sqlProtocol.Obeys (.opened sql.address) (program >>= next) post := by
  refine Protocol.Obeys.bind first ?_
  rintro after ⟨result, sql⟩ ⟨rfl, same⟩
  rw [← same]
  exact later result sql

private theorem query_bind {text : Bytes} {next : QueryResult × SqlInst → SqlProgram Later}
    (later : ∀ queryR (sql : SqlInst),
      sqlProtocol.Obeys (.opened sql.address) (next (queryR, sql)) post) :
    sqlProtocol.Obeys (.opened sql.address) (sqlQuery sql text >>= next) post := by
  refine keeps_bind ?_ later
  refine Reads.bind (reads_perform fun _ => if_pos rfl) fun outcome => ?_
  split
  · exact reads_read.bind fun _ => Protocol.obeys_pure ⟨rfl, rfl⟩
  · exact Protocol.obeys_pure ⟨rfl, rfl⟩

private theorem fetchRow_bind {next : Option (List SqlCell) × SqlInst → SqlProgram Later}
    (later : ∀ row (sql : SqlInst),
      sqlProtocol.Obeys (.opened sql.address) (next (row, sql)) post) :
    sqlProtocol.Obeys (.opened sql.address) (sqlFetchRow sql >>= next) post := by
  refine keeps_bind (reads_read.bind fun _ => ?_) later
  split
  · exact (reads_copyRow _).bind fun _ => Protocol.obeys_pure ⟨rfl, rfl⟩
  · exact Protocol.obeys_pure ⟨rfl, rfl⟩

private theorem reads_sqlError : Reads sql (sqlError sql) := reads_read

private theorem reads_sqlNumFields : Reads sql (sqlNumFields sql) :=
  reads_read.bind fun _ => reads_return

private theorem reads_sqlFetchRowFree : Reads sql (sqlFetchRowFree sql) := reads_read

private theorem reads_column (row : List SqlCell) (index : Nat) : Reads sql (column row index) := by
  unfold column
  split
  · exact Protocol.obeys_done.mpr rfl
  · exact Protocol.obeys_stop
  · exact Protocol.obeys_stop

private theorem reads_countRows (rows : List (List Cell)) : Reads sql (countRows sql rows) := by
  induction rows with
  | nil => exact reads_read.bind fun _ => reads_return
  | cons row rows ih => exact reads_read.bind fun _ => ih.bind fun _ => reads_return

private theorem reads_whileFetchRow {body : Value → List SqlCell → SqlProgram Value}
    (reads : ∀ value row, Reads sql (body value row)) (rows : List (List Cell)) (value : Value) :
    Reads sql (whileFetchRow sql body rows value) := by
  induction rows generalizing value with
  | nil => exact reads_read.bind fun _ => reads_return
  | cons row rows ih =>
    refine reads_read.bind fun _ => (reads_copyRow row).bind fun copied => ?_
    refine (reads value copied).bind fun value => ?_
    exact reads_sqlFetchRowFree.bind fun _ => ih value

end Instance

/-! ### Functions -/

theorem tidy_dbExec (querySql : Bytes) (err : Bool) : Tidy (dbExec querySql err) := by
  refine create_bind fun sql => query_bind fun queryR sql => ?_
  dsimp only
  split
  · exact reads_sqlError.bind fun _ => free_bind tidy_return
  · exact free_bind tidy_return

private theorem tidy_exec (statement : Statement) (err : Bool) : Tidy (exec statement err) :=
  tidy_bind tidy_ofExcept fun sqlbuf => tidy_dbExec sqlbuf err

private theorem tidy_execAll (texts : List String) : Tidy (execAll texts) := by
  induction texts with
  | nil => exact tidy_return
  | cons querySql rest ih => exact tidy_bind (tidy_dbExec _ _) fun _ => ih

private theorem tidy_selectRow {read : List SqlCell → SqlProgram Value}
    (reads : ∀ sql row, Reads sql (read row)) (sqlbuf : Bytes) (columns : Nat) :
    Tidy (selectRow sqlbuf columns read) := by
  refine create_bind fun sql => query_bind fun queryR sql => ?_
  dsimp only
  split
  · exact free_bind tidy_return
  refine reads_sqlNumFields.bind fun fields => ?_
  split
  · exact free_bind tidy_return
  refine fetchRow_bind fun row sql => ?_
  cases row with
  | none => exact free_bind tidy_return
  | some row =>
    refine (reads sql row).bind fun value => ?_
    exact reads_sqlFetchRowFree.bind fun _ => free_bind tidy_return

private theorem reads_licenseOf (sql : SqlInst) (row : List SqlCell) : Reads sql (licenseOf row) := by
  refine (reads_column row 1).bind fun licenseType => ?_
  refine (reads_column row 2).bind fun licensedTime => ?_
  exact (reads_column row 3).bind fun expiredTime => reads_return

private theorem tidy_dbAccountLicenseGet (refAdminUuid : Bytes) :
    Tidy (dbAccountLicenseGet refAdminUuid) :=
  tidy_bind tidy_ofExcept fun sqlbuf => tidy_selectRow reads_licenseOf sqlbuf 5

private theorem tidy_childRef (ambient : Ambient) (uuid : Bytes) : Tidy (childRef ambient uuid) := by
  refine tidy_bind tidy_ofExcept fun sqlbuf => ?_
  refine tidy_bind (tidy_selectRow (fun sql row => reads_column row 1) sqlbuf 3) fun row => ?_
  cases row with
  | none => exact tidy_return
  | some data => exact tidy_return

private theorem tidy_dbAccountCheckUserExist (ambient : Ambient) (asksAdmin asksRef : Bool) (uuid : Bytes) :
    Tidy (dbAccountCheckUserExist ambient asksAdmin asksRef uuid) := by
  refine tidy_bind (tidy_exec _ _) fun queryR => ?_
  split
  · exact tidy_return
  refine tidy_bind ?_ fun rootR => ?_
  · split
    · exact tidy_dbAccountLicenseGet uuid
    · exact tidy_return
  cases rootR with
  | some license => exact tidy_return
  | none =>
    dsimp only
    split
    · exact tidy_bind (tidy_childRef ambient uuid) fun _ => tidy_return
    · exact tidy_return

private theorem tidy_dbAccountCheckUserIsOk (hash : Bytes → Bytes) (ambient : Ambient)
    (asksAdmin asksRef : Bool) (uuid pwd : Bytes) :
    Tidy (dbAccountCheckUserIsOk hash ambient asksAdmin asksRef uuid pwd) := by
  refine tidy_bind (tidy_exec _ _) fun queryR => ?_
  split
  · exact tidy_return
  · exact tidy_dbAccountCheckUserExist ambient asksAdmin asksRef uuid

private theorem tidy_exec_last (statement : Statement) (err : Bool) (result : QueryResult → Bool) :
    Tidy (do
      let queryR ← exec statement err
      return result queryR) :=
  tidy_bind (tidy_exec statement err) fun _ => tidy_return

private theorem tidy_dbAccountLicenseDel (refAdminUuid : Bytes) :
    Tidy (dbAccountLicenseDel refAdminUuid) := by
  refine tidy_bind (tidy_dbAccountCheckUserExist _ _ _ _) fun user => ?_
  cases user with
  | none => exact tidy_return
  | some user => exact tidy_exec_last _ _ _

private theorem tidy_dbAccountLicenseSet (refAdminUuid : Bytes) (license : AccountLicense) :
    Tidy (dbAccountLicenseSet refAdminUuid license) := by
  refine tidy_bind (tidy_dbAccountLicenseGet refAdminUuid) fun exists_ => ?_
  refine tidy_bind ?_ fun _ => tidy_exec_last _ _ _
  cases exists_ with
  | none => exact tidy_return
  | some license => exact tidy_dbAccountLicenseDel refAdminUuid

private theorem obeys_countSection (sqlbuf : Bytes) : sqlProtocol.Obeys .idle (countSection sqlbuf)
    fun state counted => state = .idle ∧ ∀ retCnt sql, counted = some (retCnt, sql) → sql = none := by
  refine create_bind fun sql => query_bind fun queryR sql => ?_
  dsimp only
  split
  · exact free_bind (Protocol.obeys_pure ⟨rfl, nofun⟩)
  refine (reads_countRows _).bind fun retCnt => free_bind ?_
  refine Protocol.obeys_pure ⟨rfl, fun count sql same => ?_⟩
  exact (Prod.mk.inj (Option.some.inj same)).2.symm

section Records
variable {Record : Type} {record : List SqlCell → SqlProgram Record}
  (reads : ∀ sql row, Reads sql (record row))
include reads

private theorem reads_storeRecord (sql : SqlInst) (stored : List (Option Record) × Nat)
    (row : List SqlCell) : Reads sql (storeRecord record stored row) := by
  unfold storeRecord
  dsimp only
  split
  · exact (reads sql row).bind fun one => reads_return
  · exact Protocol.obeys_stop

private theorem tidy_fetchSection (sqlbuf : Bytes) (retCnt : Nat) :
    Tidy (fetchSection record sqlbuf retCnt) := by
  refine create_bind fun sql => query_bind fun queryR sql => ?_
  have loop := reads_whileFetchRow (reads_storeRecord reads sql)
  exact (loop _ _).bind fun stored => free_bind tidy_return

end Records

private theorem reads_accountOf (sql : SqlInst) (row : List SqlCell) : Reads sql (accountOf row) := by
  refine (reads_column row 0).bind fun uuid => (reads_column row 1).bind fun pwd => ?_
  refine (reads_column row 2).bind fun nickname => (reads_column row 3).bind fun comment => ?_
  exact (reads_column row 4).bind fun createdTime => reads_return

private theorem tidy_listGet (statement : Statement) (wants : Bool) : Tidy (listGet statement wants) := by
  refine tidy_bind tidy_ofExcept fun sqlbuf => Protocol.Obeys.bind (obeys_countSection sqlbuf) ?_
  rintro after counted ⟨rfl, _⟩
  cases counted with
  | none => exact tidy_return
  | some counted =>
    dsimp only
    split
    · exact tidy_return
    split
    · exact tidy_fetchSection reads_accountOf sqlbuf counted.1
    · exact tidy_return

private theorem tidy_dbAccountListAdminGet (specifiedUuid : Option Bytes) (wants : Bool) :
    Tidy (dbAccountListAdminGet specifiedUuid wants) := by
  cases specifiedUuid with
  | none => exact tidy_listGet _ wants
  | some specifiedUuid => exact tidy_listGet _ wants

private theorem tidy_dbAccountListChildGet (refAdminUuid : Bytes) (specifiedUuid : Option Bytes)
    (wants : Bool) : Tidy (dbAccountListChildGet refAdminUuid specifiedUuid wants) := by
  cases specifiedUuid with
  | none => exact tidy_listGet _ wants
  | some specifiedUuid => exact tidy_listGet _ wants

private theorem tidy_dbAccountListFree {Record : Type} (array : Option (List (Option Record)))
    (count : Nat) : Tidy (dbAccountListFree array count) := by
  unfold dbAccountListFree
  split
  · exact tidy_return
  split
  · exact tidy_return
  · exact tidy_stop

private theorem tidy_dbAccountUpdate (hash : Bytes → Bytes) (ambient : Ambient) (err : Bool) (uuid : Bytes)
    (newAccount : NewAccount) : Tidy (dbAccountUpdate hash ambient err uuid newAccount) := by
  refine tidy_bind (tidy_dbAccountCheckUserExist _ _ _ _) fun user => ?_
  cases user with
  | none =>
    dsimp only
    split
    · exact tidy_return
    · exact tidy_stop
  | some user =>
    refine tidy_bind ?_ fun old => ?_
    · split
      · exact tidy_dbAccountListAdminGet _ _
      · exact tidy_dbAccountListChildGet _ _ _
    split
    · exact tidy_return
    split
    · exact tidy_bind (tidy_dbAccountListFree _ _) fun _ => tidy_exec_last _ _ _
    · exact tidy_stop

private theorem reads_deviceOf (sql : SqlInst) (row : List SqlCell) : Reads sql (deviceOf row) := by
  refine (reads_column row 0).bind fun uuid => (reads_column row 1).bind fun pluginName => ?_
  refine (reads_column row 2).bind fun ip => (reads_column row 3).bind fun port => ?_
  refine (reads_column row 4).bind fun user => (reads_column row 5).bind fun pwd => ?_
  refine (reads_column row 6).bind fun channel => (reads_column row 7).bind fun segFolder => ?_
  refine (reads_column row 8).bind fun segInCount => (reads_column row 9).bind fun segPerSec => ?_
  refine (reads_column row 10).bind fun createdTime => (reads_column row 11).bind fun nickname => ?_
  refine (reads_column row 12).bind fun comment => (reads_column row 13).bind fun isTopLevel => ?_
  exact (reads_column row 14).bind fun refParentUuid => reads_return

private theorem tidy_dbAccountDeviceGet (refAdminUuid : Bytes) (specifiedUuid : Option Bytes)
    (wants : Bool) : Tidy (dbAccountDeviceGet refAdminUuid specifiedUuid wants) := by
  unfold dbAccountDeviceGet
  refine tidy_bind ?_ fun sqlbuf => ?_
  · split <;> exact tidy_ofExcept
  refine Protocol.Obeys.bind (obeys_countSection sqlbuf) ?_
  rintro after counted ⟨rfl, gone⟩
  cases counted with
  | none => exact tidy_return
  | some counted =>
    obtain ⟨retCnt, sql⟩ := counted
    obtain rfl := gone retCnt sql rfl
    dsimp only
    split
    · exact tidy_bind tidy_return fun _ => tidy_return
    split
    · exact tidy_fetchSection reads_deviceOf sqlbuf retCnt
    · exact tidy_return

private theorem tidy_dbAccountDeviceAdd (ambient : Ambient) (err : Bool) (refAdminUuid : Bytes)
    (device : Device) : Tidy (dbAccountDeviceAdd ambient err refAdminUuid device) := by
  refine tidy_bind (tidy_dbAccountCheckUserExist _ _ _ _) fun user => ?_
  split
  · refine tidy_bind (tidy_exec_last _ _ _) fun exists_ => ?_
    split
    · exact tidy_return
    refine tidy_bind (tidy_exec _ _) fun queryR => ?_
    split
    · exact tidy_return
    · exact tidy_exec_last _ _ _
  · exact tidy_return

private theorem tidy_exec_exec (first second : Statement) (result : QueryResult → Bool) :
    Tidy (do
      let _ ← exec first false
      let queryR ← exec second false
      return result queryR) :=
  tidy_bind (tidy_exec first false) fun _ => tidy_exec_last second false result

private theorem tidy_dbAccountDeviceDel (refAdminUuid : Bytes) (specifiedUuid : Option Bytes) :
    Tidy (dbAccountDeviceDel refAdminUuid specifiedUuid) := by
  cases specifiedUuid with
  | none => exact tidy_exec_exec _ _ _
  | some specifiedUuid => exact tidy_exec_exec _ _ _

private theorem tidy_dbAccountChildDel (refAdminUuid : Bytes) (specifiedUuid : Option Bytes) :
    Tidy (dbAccountChildDel refAdminUuid specifiedUuid) := by
  cases specifiedUuid with
  | none => exact tidy_exec_exec _ _ _
  | some specifiedUuid => exact tidy_exec_exec _ _ _

private theorem tidy_dbAccountAdminAdd (hash : Bytes → Bytes) (ambient : Ambient) (account : NewAccount) :
    Tidy (dbAccountAdminAdd hash ambient account) := by
  refine tidy_bind (tidy_dbAccountLicenseGet _) fun exists_ => ?_
  cases exists_ with
  | some license => exact tidy_return
  | none =>
    refine tidy_bind (tidy_exec _ _) fun queryR => ?_
    exact tidy_bind (tidy_dbAccountLicenseSet _ _) fun _ => tidy_return

private theorem tidy_dbAccountChildAdd (hash : Bytes → Bytes) (ambient : Ambient) (err : Bool)
    (refAdminUuid : Bytes) (account : NewAccount) :
    Tidy (dbAccountChildAdd hash ambient err refAdminUuid account) := by
  refine tidy_bind (tidy_dbAccountCheckUserExist _ _ _ _) fun user => ?_
  cases user with
  | none => exact tidy_return
  | some user =>
    refine tidy_bind (tidy_exec _ _) fun queryR => ?_
    split
    · exact tidy_return
    · exact tidy_exec_last _ _ _

private theorem tidy_dbAccountAdminDel (uuid : Bytes) : Tidy (dbAccountAdminDel uuid) := by
  refine tidy_bind (tidy_exec _ _) fun _ => tidy_bind (tidy_exec _ _) fun queryR => ?_
  split
  · refine tidy_bind (tidy_dbAccountLicenseDel uuid) fun _ => ?_
    refine tidy_bind (tidy_dbAccountChildDel uuid none) fun _ => ?_
    exact tidy_bind (tidy_dbAccountDeviceDel uuid none) fun _ => tidy_return
  · exact tidy_return

end SqlProgram

/-! ### Calls -/

/-- A call of a function of `db_account.h`. -/
inductive DbCall where
  | ensureTableExist
  | reset
  | adminAdd (hash : Bytes → Bytes) (ambient : Ambient) (account : NewAccount)
  | adminDel (uuid : Bytes)
  | childAdd (hash : Bytes → Bytes) (ambient : Ambient) (err : Bool) (refAdminUuid : Bytes)
      (account : NewAccount)
  | childDel (refAdminUuid : Bytes) (specifiedUuid : Option Bytes)
  | checkUserExist (ambient : Ambient) (asksAdmin asksRef : Bool) (uuid : Bytes)
  | checkUserIsOk (hash : Bytes → Bytes) (ambient : Ambient) (asksAdmin asksRef : Bool)
      (uuid pwd : Bytes)
  | update (hash : Bytes → Bytes) (ambient : Ambient) (err : Bool) (uuid : Bytes)
      (newAccount : NewAccount)
  | permissionSet
  | permissionGet
  | licenseSet (refAdminUuid : Bytes) (license : AccountLicense)
  | licenseGet (refAdminUuid : Bytes)
  | licenseDel (refAdminUuid : Bytes)
  | listAdminGet (specifiedUuid : Option Bytes) (wants : Bool)
  | listChildGet (refAdminUuid : Bytes) (specifiedUuid : Option Bytes) (wants : Bool)
  | listFree (array : Option (List (Option AccountBasic))) (count : Nat)
  | deviceAdd (ambient : Ambient) (err : Bool) (refAdminUuid : Bytes) (device : Device)
  | deviceDel (refAdminUuid : Bytes) (specifiedUuid : Option Bytes)
  | deviceCheckExist (refAdminUuid ip : Bytes) (port channel : Int)
  | deviceWorkpathValid (workpath : Bytes)
  | deviceGet (refAdminUuid : Bytes) (specifiedUuid : Option Bytes) (wants : Bool)
  | deviceFree (array : Option (List (Option Device))) (count : Nat)

namespace DbCall
open SqlProgram

@[reducible] def Result : DbCall → Type
  | .ensureTableExist | .reset | .listFree _ _ | .deviceFree _ _ => Unit
  | .checkUserExist _ _ _ _ | .checkUserIsOk _ _ _ _ _ _ => Option UserExist
  | .licenseGet _ => Option AccountLicense
  | .listAdminGet _ _ | .listChildGet _ _ _ => Fetched AccountBasic
  | .deviceGet _ _ _ => Fetched Device
  | _ => Bool

def program : (call : DbCall) → SqlProgram call.Result
  | .ensureTableExist => SqlProgram.dbAccountEnsureTableExist
  | .reset => SqlProgram.dbAccountReset
  | .adminAdd hash ambient account => SqlProgram.dbAccountAdminAdd hash ambient account
  | .adminDel uuid => SqlProgram.dbAccountAdminDel uuid
  | .childAdd hash ambient err refAdminUuid account =>
    SqlProgram.dbAccountChildAdd hash ambient err refAdminUuid account
  | .childDel refAdminUuid specifiedUuid => SqlProgram.dbAccountChildDel refAdminUuid specifiedUuid
  | .checkUserExist ambient asksAdmin asksRef uuid =>
    SqlProgram.dbAccountCheckUserExist ambient asksAdmin asksRef uuid
  | .checkUserIsOk hash ambient asksAdmin asksRef uuid pwd =>
    SqlProgram.dbAccountCheckUserIsOk hash ambient asksAdmin asksRef uuid pwd
  | .update hash ambient err uuid newAccount =>
    SqlProgram.dbAccountUpdate hash ambient err uuid newAccount
  | .permissionSet => SqlProgram.dbAccountPermissionSet
  | .permissionGet => SqlProgram.dbAccountPermissionGet
  | .licenseSet refAdminUuid license => SqlProgram.dbAccountLicenseSet refAdminUuid license
  | .licenseGet refAdminUuid => SqlProgram.dbAccountLicenseGet refAdminUuid
  | .licenseDel refAdminUuid => SqlProgram.dbAccountLicenseDel refAdminUuid
  | .listAdminGet specifiedUuid wants => SqlProgram.dbAccountListAdminGet specifiedUuid wants
  | .listChildGet refAdminUuid specifiedUuid wants =>
    SqlProgram.dbAccountListChildGet refAdminUuid specifiedUuid wants
  | .listFree array count => SqlProgram.dbAccountListFree array count
  | .deviceAdd ambient err refAdminUuid device =>
    SqlProgram.dbAccountDeviceAdd ambient err refAdminUuid device
  | .deviceDel refAdminUuid specifiedUuid =>
    SqlProgram.dbAccountDeviceDel refAdminUuid specifiedUuid
  | .deviceCheckExist refAdminUuid ip port channel =>
    SqlProgram.dbAccountDeviceCheckExist refAdminUuid ip port channel
  | .deviceWorkpathValid workpath => SqlProgram.dbAccountDeviceWorkpathValid workpath
  | .deviceGet refAdminUuid specifiedUuid wants =>
    SqlProgram.dbAccountDeviceGet refAdminUuid specifiedUuid wants
  | .deviceFree array count => SqlProgram.dbAccountDeviceFree array count

theorem tidy (call : DbCall) : Tidy call.program := by
  cases call with
  | ensureTableExist => exact tidy_execAll _
  | reset => exact tidy_execAll _
  | adminAdd hash ambient account => exact tidy_dbAccountAdminAdd hash ambient account
  | adminDel uuid => exact tidy_dbAccountAdminDel uuid
  | childAdd hash ambient err refAdminUuid account => exact tidy_dbAccountChildAdd _ _ _ _ _
  | childDel refAdminUuid specifiedUuid => exact tidy_dbAccountChildDel _ _
  | checkUserExist ambient asksAdmin asksRef uuid => exact tidy_dbAccountCheckUserExist _ _ _ _
  | checkUserIsOk hash ambient asksAdmin asksRef uuid pwd =>
    exact tidy_dbAccountCheckUserIsOk _ _ _ _ _ _
  | update hash ambient err uuid newAccount => exact tidy_dbAccountUpdate _ _ _ _ _
  | permissionSet => exact tidy_return
  | permissionGet => exact tidy_return
  | licenseSet refAdminUuid license => exact tidy_dbAccountLicenseSet _ _
  | licenseGet refAdminUuid => exact tidy_dbAccountLicenseGet _
  | licenseDel refAdminUuid => exact tidy_dbAccountLicenseDel _
  | listAdminGet specifiedUuid wants => exact tidy_dbAccountListAdminGet _ _
  | listChildGet refAdminUuid specifiedUuid wants => exact tidy_dbAccountListChildGet _ _ _
  | listFree array count => exact tidy_dbAccountListFree array count
  | deviceAdd ambient err refAdminUuid device => exact tidy_dbAccountDeviceAdd _ _ _ _
  | deviceDel refAdminUuid specifiedUuid => exact tidy_dbAccountDeviceDel _ _
  | deviceCheckExist refAdminUuid ip port channel => exact tidy_exec_last _ _ _
  | deviceWorkpathValid workpath => exact tidy_exec_last _ _ _
  | deviceGet refAdminUuid specifiedUuid wants => exact tidy_dbAccountDeviceGet _ _ _
  | deviceFree array count => exact tidy_dbAccountListFree array count

end DbCall

/-! ### Paths -/

def SqlOp.use : SqlOp → LockUse
  | .lock => .acquire
  | .unlock => .release
  | _ => .other

/-- The instances that a step creates. -/
def created : ((op : SqlOp) × op.Answer) → List Nat
  | ⟨.alloc, sql⟩ => [sql]
  | _ => []

def freed : ((op : SqlOp) × op.Answer) → List Nat
  | ⟨.free sql, _⟩ => [sql]
  | _ => []

/-- The lock is taken and given back in turn, and each instance freed once; what returns has
neither of them left. -/
def Disciplined {Result : Type} (trace : List ((op : SqlOp) × op.Answer))
    (rest : SqlProgram Result) : Prop :=
  ∃ (times : Nat) (held : Bool) (live : Option Nat),
    lockUses SqlOp.use trace = inTurn times held ∧
      trace.flatMap created = trace.flatMap freed ++ live.toList ∧
        ∀ result, rest = .done result → held = false ∧ live = none

namespace SqlState

def held : SqlState → Bool
  | .idle | .made _ => false
  | .opened _ | .freed => true

def live : SqlState → Option Nat
  | .made sql | .opened sql => some sql
  | .idle | .freed => none

end SqlState

theorem sqlProtocol_step {state after : SqlState} {op : SqlOp} {answer : op.Answer}
    (admitted : sqlProtocol state op answer = some after) :
    (match op.use with
      | .acquire => state.held = false ∧ after.held = true
      | .release => state.held = true ∧ after.held = false
      | .other => after.held = state.held) ∧
      state.live.toList ++ created ⟨op, answer⟩ = freed ⟨op, answer⟩ ++ after.live.toList := by
  have here {sql used : Nat} {next : SqlState}
      (same : (if used = sql then some next else none) = some after) : used = sql ∧ next = after :=
    Option.ite_none_right_eq_some.mp same |>.imp id Option.some.inj
  unfold sqlProtocol at admitted
  split at admitted
  · obtain rfl := Option.some.inj admitted
    exact ⟨rfl, rfl⟩
  · obtain rfl := Option.some.inj admitted
    exact ⟨⟨rfl, rfl⟩, rfl⟩
  · obtain ⟨rfl, rfl⟩ := here admitted
    exact ⟨rfl, rfl⟩
  · obtain ⟨rfl, rfl⟩ := here admitted
    exact ⟨rfl, rfl⟩
  · obtain rfl := Option.some.inj admitted
    exact ⟨rfl, rfl⟩
  · obtain ⟨rfl, rfl⟩ := here admitted
    exact ⟨rfl, rfl⟩
  · obtain rfl := Option.some.inj admitted
    exact ⟨⟨rfl, rfl⟩, rfl⟩
  · cases admitted

theorem sqlProtocol_locks : sqlProtocol.Locks SqlOp.use SqlState.held where
  acquire state op answer after admitted used := by
    have step := (sqlProtocol_step admitted).1
    rw [used] at step
    exact step
  release state op answer after admitted used := by
    have step := (sqlProtocol_step admitted).1
    rw [used] at step
    exact step
  other state op answer after admitted used := by
    have step := (sqlProtocol_step admitted).1
    rw [used] at step
    exact step

private theorem track_sqls {state after : SqlState} {trace : List ((op : SqlOp) × op.Answer)}
    (tracked : sqlProtocol.track state trace = some after) :
    state.live.toList ++ trace.flatMap created = trace.flatMap freed ++ after.live.toList := by
  induction trace generalizing state with
  | nil =>
    obtain rfl := Option.some.inj tracked
    exact List.append_nil _
  | cons step trace ih =>
    obtain ⟨op, answer⟩ := step
    obtain ⟨middle, admitted, later⟩ := Option.bind_eq_some_iff.mp tracked
    rw [List.flatMap_cons, List.flatMap_cons, ← List.append_assoc, (sqlProtocol_step admitted).2,
      List.append_assoc, List.append_assoc, ih later]

instance (op : SqlOp) : Inhabited op.Answer where
  default := match op with
    | .alloc => 0
    | .query _ _ => .done
    | .strdupNull => false
    | .lock | .unlock | .read _ | .free _ => ()

theorem SqlProgram.Tidy.balanced {Result : Type} {program : SqlProgram Result}
    (tidy : program.Tidy) : program.Balanced SqlOp.use false := by
  refine sqlProtocol_locks.balanced (fun op => ⟨default⟩) tidy ?_
  rintro state _ rfl
  rfl

theorem SqlProgram.Tidy.disciplined {Result : Type} {program rest : SqlProgram Result}
    {trace : List ((op : SqlOp) × op.Answer)} (tidy : program.Tidy)
    (path : program.Goes trace rest) : Disciplined trace rest := by
  obtain ⟨after, tracked, obeys⟩ := Protocol.Obeys.goes tidy path
  obtain ⟨times, held, turns, later⟩ := tidy.balanced.inTurn path
  refine ⟨times, held, after.live, turns, track_sqls tracked, ?_⟩
  rintro result rfl
  obtain rfl := Protocol.obeys_done.mp obeys
  exact ⟨later, rfl⟩

/-! ### Threads -/

/-- What a thread does with the data base: calls, chosen by the results of those before. -/
inductive DbClient where
  | done
  | call (first : DbCall) (next : first.Result → DbClient)

def DbClient.program : DbClient → SqlProgram Unit
  | .done => return ()
  | .call first next => do
    let result ← first.program
    (next result).program

theorem DbClient.tidy (client : DbClient) : client.program.Tidy := by
  induction client with
  | done => exact SqlProgram.tidy_return
  | call first next ih => exact SqlProgram.tidy_bind first.tidy ih

/-- Any number of threads, each with calls of its own. -/
abbrev dbThreads : System (Threads SqlOp.Answer Unit) (Threads.Action SqlOp.Answer) :=
  Threads.system SqlOp.use fun program => ∃ client : DbClient, program = client.program

/-- Each path of each call leaves the lock and its instances in order, and of threads that make such
calls, each one that waits for the lock will be given it. -/
theorem dbCalls_never_deadlock :
    (∀ (call : DbCall) trace rest, call.program.Goes trace rest → Disciplined trace rest) ∧
      ∀ threads, dbThreads.Reachable System.Free threads →
        threads.Live SqlOp.use ∧ ¬threads.Deadlocked SqlOp.use := by
  constructor
  · intro call trace rest path
    exact call.tidy.disciplined path
  · intro threads reached
    have holds : threads.Holds SqlOp.use := by
      refine Threads.holds_of_reached ?_ reached
      rintro program ⟨client, rfl⟩
      exact client.tidy.balanced
    exact ⟨holds.live, holds.not_deadlocked fun _ => default⟩

/-- A check from its begin to its end, and one that waits while another thread is in it. -/
theorem dbCalls_never_deadlock_check :
    let call : DbCall := .deviceWorkpathValid (ascii "c:")
    let text := ascii "SELECT * FROM t_device_basic WHERE seg_folder='c:'"
    let client : DbClient := .call call fun _ => .done
    let answers : (op : SqlOp) → op.Answer := fun _ => default
    Disciplined [⟨.alloc, 7⟩, ⟨.lock, ()⟩, ⟨.query 7 text, .done⟩, ⟨.read 7, ()⟩, ⟨.free 7, ()⟩,
      ⟨.unlock, ()⟩] (.done false : SqlProgram call.Result) ∧
      ∃ threads, dbThreads.run ⟨[client.program, client.program], none⟩
          [⟨0, answers⟩, ⟨0, answers⟩, ⟨1, answers⟩] = some threads ∧
        threads.Waits SqlOp.use 1 ∧ threads.Live SqlOp.use := by
  intro call text client answers
  constructor
  · refine dbCalls_never_deadlock.1 call _ _ ?_
    exact .step (.step (.step (.step (.step (.step .start)))))
  · have start : dbThreads.Start ⟨[client.program, client.program], none⟩ := by
      refine ⟨rfl, fun program listed => ⟨client, ?_⟩⟩
      simpa using listed
    obtain ⟨threads, ran, waits⟩ : ∃ threads, dbThreads.run ⟨[client.program, client.program], none⟩
        [⟨0, answers⟩, ⟨0, answers⟩, ⟨1, answers⟩] = some threads ∧ threads.Waits SqlOp.use 1 :=
      ⟨_, rfl, nofun, _, _, rfl, rfl⟩
    have reached := System.Reachable.run (.start start) (System.guarded_free _ _) ran
    exact ⟨threads, ran, waits, (dbCalls_never_deadlock.2 threads reached).1⟩

end Livezure.Db
