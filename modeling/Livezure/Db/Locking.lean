import Livezure.Core.Program
import Livezure.Db.Providers
import Livezure.Db.Sections
import Livezure.Db.Statements

/-! `db_account.c` over the SQLite provider as programs on the connection's lock: what is done to the
lock and to each `sql_t`, whatever the statements come to. `assert` is compiled out, and the data
base is open. -/
namespace Livezure.Db
open Livezure.Core

inductive SqlOp where
  /-- The `calloc`s of an instance and its parameters, answered with the address. -/
  | alloc
  | lock
  | unlock
  /-- `sqlite3_prepare` and all steps, as far as these yield rows. -/
  | query (sql : Nat) (text : Bytes)
  | read (sql : Nat)
  /-- `strdup` of a column that is NULL: it is undefined, but `_strdup` may return NULL. -/
  | strdupNull
  | free (sql : Nat)

@[reducible] def SqlOp.Answer : SqlOp → Type
  | .alloc => Nat
  | .query _ _ => Outcome
  | .strdupNull => Bool
  | .lock | .unlock | .read _ | .free _ => Unit

abbrev SqlProgram (Result : Type) := Program SqlOp.Answer Result

/-- A `sql_t` that is not NULL, and the parameters behind it. -/
structure SqlInst where
  address : Nat
  param : SqliteParam

/-- The rows that fetching still yields. -/
def SqliteParam.left (param : SqliteParam) : List (List Cell) :=
  match param.row with
  | .row current rest => current :: rest
  | _ => []

namespace SqlProgram

def perform (op : SqlOp) : SqlProgram op.Answer := Program.one op

/-! ### The provider -/

/-- NULL only where the data base is not open. -/
def sqlCreateNew : SqlProgram (Option SqlInst) := do
  let address ← perform .alloc
  perform .lock
  return some ⟨address, ⟨.done, 0⟩⟩

/-- `sql_free(&sql)`, and what `sql` is afterwards. -/
def sqlFree : Option SqlInst → SqlProgram (Option SqlInst)
  | none => return none
  | some sql => do
    perform (.read sql.address)
    perform (.free sql.address)
    perform .unlock
    return none

def sqlError (sql : SqlInst) : SqlProgram Unit := perform (.read sql.address)

def sqlQuery (sql : SqlInst) (text : Bytes) : SqlProgram (QueryResult × SqlInst) := do
  let outcome ← perform (.query sql.address text)
  match sqlQuerySqlite outcome with
  | (.error, param) => do
    sqlError sql
    return (.error, { sql with param })
  | (queryR, param) => return (queryR, { sql with param })

def sqlNumFields (sql : SqlInst) : SqlProgram Nat := do
  perform (.read sql.address)
  return sql.param.fields

def copyRow (cells : List Cell) : SqlProgram (List SqlCell) :=
  if none ∈ cells then do
    let returns ← perform .strdupNull
    if returns then return pointCells cells else .stop .nullPointer
  else return pointCells cells

def sqlFetchRow (sql : SqlInst) : SqlProgram (Option (List SqlCell) × SqlInst) := do
  perform (.read sql.address)
  match sql.param.row with
  | .row current rest => do
    let row ← copyRow current
    return (some row, { sql with param := { sql.param with row := sqlite3Step rest } })
  | _ => return (none, sql)

def sqlFetchRowFree (sql : SqlInst) : SqlProgram Unit := perform (.read sql.address)

/-- `while (sql_fetch_row(sql, NULL)) ret_cnt++`. -/
def countRows (sql : SqlInst) : List (List Cell) → SqlProgram Nat
  | [] => do
    perform (.read sql.address)
    return 0
  | _ :: rest => do
    perform (.read sql.address)
    let retCnt ← countRows sql rest
    return retCnt + 1

/-- `while (sql_fetch_row(sql, &row))`, with `sql_fetch_row_free` at the end of the body. -/
def whileFetchRow {Value : Type} (sql : SqlInst) (body : Value → List SqlCell → SqlProgram Value) :
    List (List Cell) → Value → SqlProgram Value
  | [], value => do
    perform (.read sql.address)
    return value
  | current :: rest, value => do
    perform (.read sql.address)
    let row ← copyRow current
    let value ← body value row
    sqlFetchRowFree sql
    whileFetchRow sql body rest value

/-! ### Statements -/

/-- `row[index].data`, for a function that reads text from it. -/
def column (row : List SqlCell) (index : Nat) : SqlProgram Bytes :=
  match row[index]? with
  | some ⟨some data, _⟩ => .done data
  | some ⟨none, _⟩ => .stop .nullPointer
  | none => .stop .outOfBounds

def sprintf (statement : Statement) : SqlProgram Bytes := Program.ofExcept statement.print

/-- `err` is whether the pointer is not NULL. -/
def dbExec (querySql : Bytes) (err : Bool) : SqlProgram QueryResult := do
  let sql ← sqlCreateNew
  match sql with
  | none => do
    let _ ← sqlFree none
    return .error
  | some sql => do
    let (queryR, sql) ← sqlQuery sql querySql
    if queryR ≠ .done ∧ err = true then do
      sqlError sql
      let _ ← sqlFree (some sql)
      return queryR
    else do
      let _ ← sqlFree (some sql)
      return queryR

/-- `sprintf` and `db_exec`. -/
def exec (statement : Statement) (err : Bool) : SqlProgram QueryResult := do
  let sqlbuf ← sprintf statement
  dbExec sqlbuf err

def execAll : List String → SqlProgram Unit
  | [] => return ()
  | querySql :: rest => do
    let _ ← dbExec (ascii querySql) false
    execAll rest

/-! ### Licenses and users -/

/-- The loops that end with the first row, of a statement that has so many columns. -/
def selectRow {Value : Type} (sqlbuf : Bytes) (columns : Nat)
    (read : List SqlCell → SqlProgram Value) : SqlProgram (Option Value) := do
  let sql ← sqlCreateNew
  match sql with
  | none => return none
  | some sql => do
    let (queryR, sql) ← sqlQuery sql sqlbuf
    if queryR ≠ .row then do
      let _ ← sqlFree (some sql)
      return none
    else do
      let fields ← sqlNumFields sql
      if fields ≠ columns then do
        let _ ← sqlFree (some sql)
        return none
      else do
        let (row, sql) ← sqlFetchRow sql
        match row with
        | none => do
          let _ ← sqlFree (some sql)
          return none
        | some row => do
          let value ← read row
          sqlFetchRowFree sql
          let _ ← sqlFree (some sql)
          return some value

def licenseOf (row : List SqlCell) : SqlProgram AccountLicense := do
  let licenseType ← column row 1
  let licensedTime ← column row 2
  let expiredTime ← column row 3
  return ⟨Service.atoi licenseType, licensedTime.take 64, expiredTime.take 64⟩

def dbAccountLicenseGet (refAdminUuid : Bytes) : SqlProgram (Option AccountLicense) := do
  let sqlbuf ← sprintf (.licenseGet refAdminUuid)
  selectRow sqlbuf 5 licenseOf

/-- The part of `db_account_check_user_exist` about `ref_admin_uuid`. -/
def childRef (ambient : Ambient) (uuid : Bytes) : SqlProgram Bytes := do
  let sqlbuf ← sprintf (.checkUserExistChild uuid)
  let row ← selectRow sqlbuf 3 fun row => column row 1
  match row with
  | none => return []
  | some data => return strncpyUuid data ambient.junkRef

/-- Either of the pointers `b_is_admin` and `ref_admin_uuid` may be NULL. -/
def dbAccountCheckUserExist (ambient : Ambient) (asksAdmin asksRef : Bool) (uuid : Bytes) :
    SqlProgram (Option UserExist) := do
  let queryR ← exec (.checkUserExist uuid) false
  if queryR ≠ .row then return none
  else do
    let rootR ← (if asksAdmin then dbAccountLicenseGet uuid else return none)
    match rootR with
    | some _ => return some ⟨true, []⟩
    | none =>
      if asksRef then do
        let refAdminUuid ← childRef ambient uuid
        return some ⟨false, refAdminUuid⟩
      else return some ⟨false, []⟩

def dbAccountCheckUserIsOk (hash : Bytes → Bytes) (ambient : Ambient) (asksAdmin asksRef : Bool)
    (uuid pwd : Bytes) : SqlProgram (Option UserExist) := do
  let queryR ← exec (.checkUserIsOk uuid (hash pwd)) false
  if queryR ≠ .row then return none
  else dbAccountCheckUserExist ambient asksAdmin asksRef uuid

def dbAccountLicenseDel (refAdminUuid : Bytes) : SqlProgram Bool := do
  let user ← dbAccountCheckUserExist ⟨[], [], []⟩ false false refAdminUuid
  match user with
  | none => return false
  | some _ => do
    let queryR ← exec (.licenseDel refAdminUuid) false
    return decide (queryR = .done)

def dbAccountLicenseSet (refAdminUuid : Bytes) (license : AccountLicense) : SqlProgram Bool := do
  let exists_ ← dbAccountLicenseGet refAdminUuid
  let _ ← (match exists_ with
    | some _ => dbAccountLicenseDel refAdminUuid
    | none => return false)
  let queryR ← exec (.licenseSet refAdminUuid license.licenseType license.licensedTime
    license.expiredTime) false
  return decide (queryR = .done)

/-! ### Records -/

/-- The first section of a function that returns records: `ret_cnt`, and `sql` behind it. -/
def countSection (sqlbuf : Bytes) : SqlProgram (Option (Nat × Option SqlInst)) := do
  let sql ← sqlCreateNew
  match sql with
  | none => return none
  | some sql => do
    let (queryR, sql) ← sqlQuery sql sqlbuf
    if queryR ≠ .row then do
      let _ ← sqlFree (some sql)
      return none
    else do
      let retCnt ← countRows sql sql.param.left
      let sql ← sqlFree (some sql)
      return some (retCnt, sql)

/-- The body of the loop over the rows: the pointer is stored behind the ones before it. -/
def storeRecord {Record : Type} (record : List SqlCell → SqlProgram Record)
    (stored : List (Option Record) × Nat) (row : List SqlCell) :
    SqlProgram (List (Option Record) × Nat) :=
  let (array, index) := stored
  if index < array.length then do
    let one ← record row
    return (array.set index (some one), index + 1)
  else .stop .outOfBounds

/-- The second section; what its `sql_query` returns is not looked at. -/
def fetchSection {Record : Type} (record : List SqlCell → SqlProgram Record) (sqlbuf : Bytes)
    (retCnt : Nat) : SqlProgram (Fetched Record) := do
  let sql ← sqlCreateNew
  match sql with
  | none => return ⟨false, none, retCnt⟩
  | some sql => do
    let (_, sql) ← sqlQuery sql sqlbuf
    let (array, _) ← whileFetchRow sql (storeRecord record) sql.param.left
      (List.replicate retCnt none, 0)
    let _ ← sqlFree (some sql)
    return ⟨true, some array, retCnt⟩

def accountOf (row : List SqlCell) : SqlProgram AccountBasic := do
  let uuid ← column row 0
  let pwd ← column row 1
  let nickname ← column row 2
  let comment ← column row 3
  let createdTime ← column row 4
  return AccountBasic.fetched ⟨uuid, pwd, nickname, comment, createdTime⟩

/-- `wants` is whether `account` is not NULL. -/
def listGet (statement : Statement) (wants : Bool) : SqlProgram (Fetched AccountBasic) := do
  let sqlbuf ← sprintf statement
  let counted ← countSection sqlbuf
  match counted with
  | none => return ⟨false, none, 0⟩
  | some (retCnt, _) =>
    if retCnt = 0 then return ⟨false, none, 0⟩
    else if wants then fetchSection accountOf sqlbuf retCnt
    else return ⟨true, none, retCnt⟩

def dbAccountListAdminGet (specifiedUuid : Option Bytes) (wants : Bool) :
    SqlProgram (Fetched AccountBasic) :=
  match specifiedUuid with
  | none => listGet .listAdminGetAll wants
  | some specifiedUuid => listGet (.listAdminGetOne specifiedUuid) wants

def dbAccountListChildGet (refAdminUuid : Bytes) (specifiedUuid : Option Bytes) (wants : Bool) :
    SqlProgram (Fetched AccountBasic) :=
  match specifiedUuid with
  | none => listGet (.listChildGetAll refAdminUuid) wants
  | some specifiedUuid => listGet (.listChildGetOne refAdminUuid specifiedUuid) wants

/-- The array itself may be NULL. -/
def dbAccountListFree {Record : Type} (array : Option (List (Option Record))) (count : Nat) :
    SqlProgram Unit :=
  match array with
  | none => return ()
  | some acc => if count ≤ acc.length then return () else .stop .outOfBounds

def dbAccountDeviceFree (device : Option (List (Option Device))) (count : Nat) : SqlProgram Unit :=
  dbAccountListFree device count

def dbAccountUpdate (hash : Bytes → Bytes) (ambient : Ambient) (err : Bool) (uuid : Bytes)
    (newAccount : NewAccount) : SqlProgram Bool := do
  let user ← dbAccountCheckUserExist ambient true true uuid
  match user with
  | none => if err then return false else .stop .nullPointer
  | some user => do
    let old ← (if user.isAdmin then dbAccountListAdminGet (some uuid) true
      else dbAccountListChildGet user.refAdminUuid (some uuid) true)
    if old.r = false ∨ old.count ≠ 1 then return false
    else
      match old.array with
      | some (some _ :: _) => do
        dbAccountListFree old.array old.count
        let queryR ← exec (.update (hash newAccount.pwd) newAccount.nickname newAccount.comment
          uuid) err
        return decide (queryR = .done)
      -- `memcpy` from `acc[0]`
      | _ => .stop .nullPointer

/-! ### Devices -/

def deviceOf (row : List SqlCell) : SqlProgram Device := do
  let uuid ← column row 0
  let pluginName ← column row 1
  let ip ← column row 2
  let port ← column row 3
  let user ← column row 4
  let pwd ← column row 5
  let channel ← column row 6
  let segFolder ← column row 7
  let segInCount ← column row 8
  let segPerSec ← column row 9
  let createdTime ← column row 10
  let nickname ← column row 11
  let comment ← column row 12
  let isTopLevel ← column row 13
  let refParentUuid ← column row 14
  return fetchDevice
    ⟨uuid, pluginName, ip, Service.atoi port, user, pwd, Service.atoi channel, segFolder,
      Service.atoi segInCount, Service.atoi segPerSec, createdTime⟩
    ⟨uuid, [], nickname, comment, decide (Service.atoi isTopLevel ≠ 0), refParentUuid, []⟩

def dbAccountDeviceGet (refAdminUuid : Bytes) (specifiedUuid : Option Bytes) (wants : Bool) :
    SqlProgram (Fetched Device) := do
  let sqlbuf ← (match specifiedUuid with
    | none => sprintf (.deviceGetAll refAdminUuid)
    | some specifiedUuid => sprintf (.deviceGetOne refAdminUuid specifiedUuid))
  let counted ← countSection sqlbuf
  match counted with
  | none => return ⟨false, none, 0⟩
  | some (retCnt, sql) =>
    if retCnt = 0 then do
      -- a second `sql_free`, of what the first one has left
      let _ ← sqlFree sql
      return ⟨false, none, 0⟩
    else if wants then fetchSection deviceOf sqlbuf retCnt
    else return ⟨true, none, retCnt⟩

def dbAccountDeviceCheckExist (refAdminUuid ip : Bytes) (port channel : Int) : SqlProgram Bool := do
  let queryR ← exec (.deviceCheckExist ip port channel refAdminUuid) false
  return decide (queryR = .row)

def dbAccountDeviceWorkpathValid (workpath : Bytes) : SqlProgram Bool := do
  let queryR ← exec (.deviceWorkpathValid workpath) false
  return decide (queryR = .row)

def dbAccountDeviceAdd (ambient : Ambient) (err : Bool) (refAdminUuid : Bytes) (device : Device) :
    SqlProgram Bool := do
  let user ← dbAccountCheckUserExist ambient true false refAdminUuid
  match user with
  | some ⟨true, _⟩ => do
    -- the port stands for the channel
    let exists_ ← dbAccountDeviceCheckExist refAdminUuid device.ip device.port device.port
    if exists_ then return false
    else do
      let queryR ← exec (.deviceAddBasic device.uuid device.pluginName device.ip device.port
        device.user device.pwd device.channel device.segFolder device.segInCount
        device.segPerSec) err
      if queryR ≠ .done then return false
      else do
        let queryR ← exec (.deviceAddAccount device.uuid refAdminUuid device.nickname
          device.comment device.isTopLevel device.refParentUuid) err
        return decide (queryR = .done)
  | _ => return false

def dbAccountDeviceDel (refAdminUuid : Bytes) (specifiedUuid : Option Bytes) : SqlProgram Bool :=
  match specifiedUuid with
  | some specifiedUuid => do
    let _ ← exec (.deviceDelBasicOne specifiedUuid refAdminUuid) false
    let queryR ← exec (.deviceDelOne specifiedUuid refAdminUuid) false
    return decide (queryR = .done)
  | none => do
    let _ ← exec (.deviceDelBasicAll refAdminUuid) false
    let queryR ← exec (.deviceDelAll refAdminUuid) false
    return decide (queryR = .done)

/-! ### Accounts -/

def dbAccountAdminAdd (hash : Bytes → Bytes) (ambient : Ambient) (account : NewAccount) :
    SqlProgram Bool := do
  let exists_ ← dbAccountLicenseGet account.uuid
  match exists_ with
  | some _ => return false
  | none => do
    let lowerUuid := worldTolower (strncpyUuid account.uuid ambient.junk)
    let queryR ← exec (.adminAdd lowerUuid (hash account.pwd) account.nickname account.comment)
      false
    let _ ← dbAccountLicenseSet lowerUuid checkingLicense
    return decide (queryR = .done)

def dbAccountChildAdd (hash : Bytes → Bytes) (ambient : Ambient) (err : Bool) (refAdminUuid : Bytes)
    (account : NewAccount) : SqlProgram Bool := do
  let lowerRefAdminUuid := worldTolower (strncpyUuid refAdminUuid ambient.junkRef)
  let user ← dbAccountCheckUserExist ambient false false lowerRefAdminUuid
  match user with
  | none => return false
  | some _ => do
    let lowerUuid := worldTolower (strncpyUuid account.uuid ambient.junk)
    let queryR ← exec (.childAddBasic lowerUuid (hash account.pwd) account.nickname
      account.comment) err
    if queryR ≠ .done then return false
    else do
      let queryR ← exec (.childAddChild lowerUuid lowerRefAdminUuid) err
      return decide (queryR = .done)

def dbAccountChildDel (refAdminUuid : Bytes) (specifiedUuid : Option Bytes) : SqlProgram Bool :=
  match specifiedUuid with
  | some specifiedUuid => do
    let _ ← exec (.childDelOne refAdminUuid specifiedUuid) false
    let queryR ← exec (.childDelBasicOne specifiedUuid) false
    return decide (queryR = .done)
  | none => do
    let _ ← exec (.childDelAll refAdminUuid) false
    let queryR ← exec (.childDelBasicAll refAdminUuid) false
    return decide (queryR = .done)

def dbAccountAdminDel (uuid : Bytes) : SqlProgram Bool := do
  let _ ← exec (.adminDelBasic uuid) false
  let queryR ← exec (.adminDelAdmin uuid) false
  if queryR = .done then do
    let _ ← dbAccountLicenseDel uuid
    let _ ← dbAccountChildDel uuid none
    let _ ← dbAccountDeviceDel uuid none
    return true
  else return false

def dbAccountPermissionSet : SqlProgram Bool := return false

def dbAccountPermissionGet : SqlProgram Bool := return false

/-! ### Tables -/

def dbAccountEnsureTableExist : SqlProgram Unit := execAll
  ["DROP TABLE IF EXISTS t_account_license",
    "CREATE TABLE IF NOT EXISTS t_account_license (license_type INTEGER PRIMARY KEY,comment TEXT)",
    "INSERT INTO t_account_license (license_type,comment) VALUES (0," ++
      "'this license is now must be checking by service root.')",
    "INSERT INTO t_account_license (license_type,comment) VALUES (1," ++
      "'this license have expired time limited.')",
    "INSERT INTO t_account_license (license_type,comment) VALUES (2," ++
      "'this license is for ever for use')",
    "CREATE TABLE IF NOT EXISTS t_account_basic (uuid TEXT PRIMARY KEY,pwd TEXT,nickname TEXT," ++
      "comment TEXT,createtime TIMESTAMPE NOT NULL DEFAULT (datetime('now','localtime')))",
    "CREATE TABLE IF NOT EXISTS t_account_admin (uuid TEXT PRIMARY KEY,license_type INTEGER," ++
      "licensed_time TEXT,expired_time TEXT," ++
      "create_time TIMESTAMPE NOT NULL DEFAULT (datetime('now','localtime')))",
    "CREATE TABLE IF NOT EXISTS t_account_child (uuid TEXT PRIMARY KEY,ref_admin_uuid," ++
      "create_time TIMESTAMPE NOT NULL DEFAULT (datetime('now','localtime')))",
    "CREATE TABLE IF NOT EXISTS t_account_child_permission (child_uuid TEXT PRIMARY KEY," ++
      "can_view_ba INTEGER,can_view_record INTEGER,can_ptz_ba INTEGER,can_task_record INTEGER)",
    "CREATE TABLE IF NOT EXISTS t_device_basic (uuid TEXT PRIMARY KEY,plugin_name TEXT,ip TEXT," ++
      "port INTEGER,user TEXT,pwd TEXT,channel INTEGER,seg_folder TEXT,seg_in_count INTEGER," ++
      "seg_per_sec INTEGER," ++
      "create_time TIMESTAMPE NOT NULL DEFAULT (datetime('now','localtime')))",
    "CREATE TABLE IF NOT EXISTS t_account_device (uuid TEXT PRIMARY KEY,ref_admin_uuid TEXT," ++
      "nickname TEXT,comment TEXT,is_top_level INTEGER,ref_parent_uuid TEXT," ++
      "createtime TIMESTAMPE NOT NULL DEFAULT (datetime('now','localtime')))"]

def dbAccountReset : SqlProgram Unit := execAll
  ["DROP TABLE IF EXISTS t_account_license",
    "DROP TABLE IF EXISTS t_account_admin",
    "DROP TABLE IF EXISTS t_account_admin",
    "DROP TABLE IF EXISTS t_account_child",
    "DROP TABLE IF EXISTS t_account_child_permission",
    "DROP TABLE IF EXISTS t_device_basic",
    "DROP TABLE IF EXISTS t_account_device"]

end SqlProgram
end Livezure.Db
