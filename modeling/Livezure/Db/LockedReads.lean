import Livezure.Db.Locking
import Livezure.Service.Decimal

/-! The programs on the connection's lock where nothing is written in between: what they return is
what the functions of the store do. -/
namespace Livezure.Db
open Livezure.Core

/-- An answer to each statement; no other answer is looked at. -/
def SqlOp.answer (outcome : Bytes → Outcome) : (op : SqlOp) → op.Answer
  | .alloc => 0
  | .query _ text => outcome text
  | .strdupNull => false
  | .lock | .unlock | .read _ | .free _ => ()

def selectAccounts (rows : List AccountBasic) : Outcome :=
  selectTexts 5 (rows.map AccountBasic.texts)

/-- What a `SELECT` for accounts yields from the tables. -/
def Statement.outcome (store : Store) : Statement → Outcome
  | .checkUserExist uuid => selectAccounts (store.basic.select fun row => decide (row.uuid = uuid))
  | .checkUserExistChild uuid => selectTexts 3
      ((store.child.select fun row => decide (row.uuid = uuid)).map AccountChild.texts)
  | .checkUserIsOk uuid hashpwd => selectAccounts (store.basic.select fun row =>
      decide (row.uuid = uuid) && decide (row.pwd = hashpwd))
  | .licenseGet uuid => selectTexts 5
      ((store.admin.select fun row => decide (row.uuid = uuid)).map AccountAdmin.texts)
  | .listAdminGetAll => selectAccounts ((FetchCall.listAdmin none).query store)
  | .listAdminGetOne uuid => selectAccounts ((FetchCall.listAdmin (some uuid)).query store)
  | .listChildGetAll refAdminUuid =>
    selectAccounts ((FetchCall.listChild refAdminUuid none).query store)
  | .listChildGetOne refAdminUuid uuid =>
    selectAccounts ((FetchCall.listChild refAdminUuid (some uuid)).query store)
  | _ => .done

/-- The statement fits its buffer, and is answered from the tables. -/
def Statement.Answered (outcome : Bytes → Outcome) (store : Store) (statement : Statement) : Prop :=
  ∃ text, statement.print = .ok text ∧ outcome text = statement.outcome store

namespace SqlProgram
variable {outcome : Bytes → Outcome} {store : Store}

private theorem run_sqlCreateNew : sqlCreateNew.run (SqlOp.answer outcome) =
    .ok (some ⟨0, ⟨.done, 0⟩⟩) := rfl

private theorem run_sqlFree (sql : Option SqlInst) : (sqlFree sql).run (SqlOp.answer outcome) = .ok none := by
  cases sql <;> rfl

private theorem run_sqlQuery (sql : SqlInst) (text : Bytes) :
    (sqlQuery sql text).run (SqlOp.answer outcome) =
      .ok ((sqlQuerySqlite (outcome text)).1, { sql with param := (sqlQuerySqlite (outcome text)).2 }) := by
  refine (Program.run_bind_ok rfl _).trans ?_
  dsimp only [SqlOp.answer]
  rcases sqlQuerySqlite (outcome text) with ⟨queryR, param⟩
  cases queryR <;> rfl

private theorem run_dbExec (text : Bytes) (err : Bool) :
    (dbExec text err).run (SqlOp.answer outcome) = .ok (sqliteProvider.dbExec (outcome text)) := by
  refine (Program.run_bind_ok run_sqlCreateNew _).trans ?_
  refine (Program.run_bind_ok (run_sqlQuery _ _) _).trans ?_
  dsimp only
  split <;> rfl

private theorem run_exec {statement : Statement} (answered : statement.Answered outcome store)
    (err : Bool) : (exec statement err).run (SqlOp.answer outcome) =
      .ok (sqliteProvider.dbExec (statement.outcome store)) := by
  obtain ⟨text, printed, same⟩ := answered
  refine (Program.run_bind_ok ((Program.run_ofExcept _).trans printed) _).trans ?_
  rw [run_dbExec, same]

/-- The license types are those of `int`s. -/
def IntTypes (store : Store) : Prop := ∀ row ∈ store.admin.rows, Service.IsInt row.licenseType

private theorem run_copyRow {cells : List Cell} (known : none ∉ cells) :
    (copyRow cells).run (SqlOp.answer outcome) = copyCells cells := by
  rw [copyRow, if_neg known, copyCells_ok known]
  rfl

private theorem run_sqlFetchRow {current : List Cell} (known : none ∉ current) (address : Nat)
    (rest : List (List Cell)) (fields : Nat) :
    (sqlFetchRow ⟨address, ⟨.row current rest, fields⟩⟩).run (SqlOp.answer outcome) =
      .ok (some (pointCells current), ⟨address, ⟨sqlite3Step rest, fields⟩⟩) := by
  refine (Program.run_bind_ok rfl _).trans ?_
  exact Program.run_bind_ok ((run_copyRow known).trans (copyCells_ok known)) _

private theorem run_selectRow {Row Value : Type} {text : Bytes} {columns : Nat} {rows : List Row}
    {texts : Row → List Bytes} {read : List SqlCell → SqlProgram Value} {value : Row → Value}
    (selected : outcome text = selectTexts columns (rows.map texts))
    (reads : ∀ row ∈ rows, (read (pointCells ((texts row).map some))).run (SqlOp.answer outcome) =
      .ok (value row)) :
    (selectRow text columns read).run (SqlOp.answer outcome) = .ok (rows.head?.map value) := by
  refine (Program.run_bind_ok run_sqlCreateNew _).trans ?_
  refine (Program.run_bind_ok (run_sqlQuery _ _) _).trans ?_
  rw [selected]
  cases rows with
  | nil => rfl
  | cons row rest =>
    have known : none ∉ (texts row).map some := by simp
    have queried : sqlQuerySqlite (selectTexts columns ((row :: rest).map texts)) =
      (.row, ⟨.row ((texts row).map some) ((rest.map texts).map fun row => row.map some), columns⟩) :=
        rfl
    rw [queried]
    refine (Program.run_bind_ok rfl _).trans ?_
    dsimp only
    rw [if_neg (not_not_intro rfl)]
    refine (Program.run_bind_ok (run_sqlFetchRow known _ _ _) _).trans ?_
    exact Program.run_bind_ok (reads row List.mem_cons_self) _

private theorem run_dbAccountLicenseGet (ints : IntTypes store) {uuid : Bytes}
    (answered : (Statement.licenseGet uuid).Answered outcome store) :
    (dbAccountLicenseGet uuid).run (SqlOp.answer outcome) =
      .ok (Db.dbAccountLicenseGet store uuid) := by
  obtain ⟨text, printed, same⟩ := answered
  refine (Program.run_bind_ok ((Program.run_ofExcept _).trans printed) _).trans ?_
  refine run_selectRow same fun row member => ?_
  have back : Service.atoi (ascii (toString row.licenseType)) = row.licenseType :=
    (Service.atoi_decimal_iff _).mpr (ints row (Table.mem_select.mp member).1)
  rw [← back]
  rfl

private theorem run_childRef (ambient : Ambient) {uuid : Bytes}
    (answered : (Statement.checkUserExistChild uuid).Answered outcome store) :
    (childRef ambient uuid).run (SqlOp.answer outcome) =
      .ok (((store.child.select fun row => decide (row.uuid = uuid)).head?.map fun row =>
        strncpyUuid row.refAdminUuid ambient.junkRef).getD []) := by
  obtain ⟨text, printed, same⟩ := answered
  refine (Program.run_bind_ok ((Program.run_ofExcept _).trans printed) _).trans ?_
  have read : (selectRow text 3 fun row => column row 1).run (SqlOp.answer outcome) =
      .ok ((store.child.select fun row => decide (row.uuid = uuid)).head?.map
        AccountChild.refAdminUuid) := run_selectRow same fun row _ => rfl
  refine (Program.run_bind_ok read _).trans ?_
  cases (store.child.select fun row => decide (row.uuid = uuid)).head? <;> rfl

def existStatements (uuid : Bytes) : List Statement :=
  [.checkUserExist uuid, .licenseGet uuid, .checkUserExistChild uuid]

private theorem run_dbAccountCheckUserExist (ints : IntTypes store) (ambient : Ambient) {uuid : Bytes}
    (answered : ∀ statement ∈ existStatements uuid, statement.Answered outcome store) :
    (dbAccountCheckUserExist ambient true true uuid).run (SqlOp.answer outcome) =
      .ok (Db.dbAccountCheckUserExist store ambient uuid) := by
  have account := answered _ List.mem_cons_self
  have license := answered _ (.tail _ List.mem_cons_self)
  have child := answered _ (.tail _ (.tail _ List.mem_cons_self))
  refine (Program.run_bind_ok (run_exec account false) _).trans ?_
  rw [Statement.outcome, selectAccounts, dbExec_sqlite, Db.dbAccountCheckUserExist]
  by_cases listed : uuid ∈ store.basic.keys
  · have some := select_account.mpr listed
    rw [if_neg (mt List.map_eq_nil_iff.mp some), if_pos listed, if_neg (not_not_intro rfl)]
    refine (Program.run_bind_ok (run_dbAccountLicenseGet ints license) _).trans ?_
    cases Db.dbAccountLicenseGet store uuid with
    | some license => rfl
    | none =>
      refine (Program.run_bind_ok (run_childRef ambient child) _).trans ?_
      cases (store.child.select fun row => decide (row.uuid = uuid)).head? <;> rfl
  · have none : (store.basic.select fun row => decide (row.uuid = uuid)) = [] := by
      by_contra some
      exact listed (select_account.mp some)
    rw [none, if_neg listed]
    rfl

theorem run_dbAccountCheckUserIsOk (ints : IntTypes store) (hash : Bytes → Bytes)
    (ambient : Ambient) {uuid pwd : Bytes}
    (login : (Statement.checkUserIsOk uuid (hash pwd)).Answered outcome store)
    (answered : ∀ statement ∈ existStatements uuid, statement.Answered outcome store) :
    (dbAccountCheckUserIsOk hash ambient true true uuid pwd).run (SqlOp.answer outcome) =
      .ok (Db.dbAccountCheckUserIsOk store hash ambient uuid pwd) := by
  refine (Program.run_bind_ok (run_exec login false) _).trans ?_
  rw [Statement.outcome, selectAccounts, dbExec_sqlite, Db.dbAccountCheckUserIsOk]
  by_cases none : (store.basic.select fun row =>
      decide (row.uuid = uuid) && decide (row.pwd = hash pwd)) = []
  · rw [if_pos none, none]
    rfl
  · rw [if_neg none, if_neg (mt List.map_eq_nil_iff.mp none), if_neg (not_not_intro rfl)]
    exact run_dbAccountCheckUserExist ints ambient answered

/-! ### Lists -/

theorem run_countRows (sql : SqlInst) (rows : List (List Cell)) :
    (countRows sql rows).run (SqlOp.answer outcome) = .ok rows.length := by
  induction rows with
  | nil => rfl
  | cons row rows ih =>
    refine (Program.run_bind_ok rfl _).trans ?_
    exact (Program.run_bind_ok ih _).trans rfl

private theorem run_countSection {text : Bytes} {fields : Nat} {rows : List (List Bytes)}
    (selected : outcome text = selectTexts fields rows) :
    (countSection text).run (SqlOp.answer outcome) =
      .ok (if rows = [] then none else some (rows.length, none)) := by
  refine (Program.run_bind_ok run_sqlCreateNew _).trans ?_
  refine (Program.run_bind_ok (run_sqlQuery _ _) _).trans ?_
  rw [selected]
  cases rows with
  | nil => rfl
  | cons row rest =>
    have same : ((row :: rest).map fun row => row.map some).length = (row :: rest).length :=
      List.length_map _
    refine (Program.run_bind_ok (run_countRows _ _) _).trans ?_
    refine (Program.run_bind_ok (run_sqlFree _) _).trans ?_
    rw [if_neg (List.cons_ne_nil _ _), ← same]
    rfl

private theorem run_accountOf (row : AccountBasic) :
    (accountOf (pointCells (row.texts.map some))).run (SqlOp.answer outcome) = .ok row.fetched := rfl

private theorem run_whileFetchRow (sql : SqlInst) (rows : List AccountBasic)
    (array : List (Option AccountBasic)) (index : Nat) :
    (whileFetchRow sql (storeRecord accountOf) (rows.map fun row => row.texts.map some)
      (array, index)).run (SqlOp.answer outcome) =
        (fetchRows AccountBasic.fetched array index rows).map fun array =>
          (array, index + rows.length) := by
  induction rows generalizing array index with
  | nil => rfl
  | cons row rows ih =>
    have known : none ∉ row.texts.map some := by simp
    refine (Program.run_bind_ok rfl _).trans ?_
    refine (Program.run_bind_ok ((run_copyRow known).trans (copyCells_ok known)) _).trans ?_
    rw [fetchRows]
    split
    · rename_i inside
      have stored : (storeRecord accountOf (array, index) (pointCells (row.texts.map some))).run
          (SqlOp.answer outcome) = .ok (array.set index (some row.fetched), index + 1) := by
        rw [storeRecord, if_pos inside]
        exact Program.run_bind_ok (run_accountOf row) _
      refine (Program.run_bind_ok stored _).trans ((Program.run_bind_ok rfl _).trans ?_)
      rw [ih, List.length_cons, Nat.add_right_comm, Nat.add_assoc]
    · rename_i outside
      rw [Program.run_bind, storeRecord, if_neg outside]
      rfl

/-- What a call with a pointer for the records returns. -/
def fetchedOf (accounts : Option (List AccountBasic)) : Fetched AccountBasic :=
  ⟨accounts.isSome, accounts.map (·.map some), (accounts.getD []).length⟩

private theorem run_fetchSection {text : Bytes} {rows : List AccountBasic}
    (selected : outcome text = selectAccounts rows) :
    (fetchSection accountOf text rows.length).run (SqlOp.answer outcome) =
      .ok ⟨true, some (rows.map fun row => some row.fetched), rows.length⟩ := by
  have left : (sqlQuerySqlite (selectAccounts rows)).2.left =
      rows.map fun row => row.texts.map some := by
    cases rows with
    | nil => rfl
    | cons row rest => exact congrArg (row.texts.map some :: ·) List.map_map
  have filled := fetchRows_fill AccountBasic.fetched rows [] rows.length
  rw [if_pos (Nat.le_refl _), Nat.sub_self, List.replicate_zero, List.append_nil, List.nil_append,
    List.nil_append, List.length_nil] at filled
  have looped (sql : SqlInst) : (whileFetchRow sql (storeRecord accountOf)
      (sqlQuerySqlite (selectAccounts rows)).2.left (List.replicate rows.length none, 0)).run
        (SqlOp.answer outcome) =
          .ok (rows.map fun row => some row.fetched, 0 + rows.length) := by
    rw [left, run_whileFetchRow, filled]
    rfl
  refine (Program.run_bind_ok run_sqlCreateNew _).trans ?_
  refine (Program.run_bind_ok (run_sqlQuery _ _) _).trans ?_
  rw [selected]
  exact Program.run_bind_ok (looped _) _

private theorem run_listGet {statement : Statement} {rows : List AccountBasic}
    (answered : statement.Answered outcome store)
    (selected : statement.outcome store = selectAccounts rows) :
    (listGet statement true).run (SqlOp.answer outcome) = .ok (fetchedOf (fetchAll rows)) := by
  obtain ⟨text, printed, same⟩ := answered
  rw [selected] at same
  refine (Program.run_bind_ok ((Program.run_ofExcept _).trans printed) _).trans ?_
  refine (Program.run_bind_ok (run_countSection same) _).trans ?_
  cases rows with
  | nil => rfl
  | cons row rest =>
    rw [List.map_cons, if_neg (List.cons_ne_nil _ _), ← List.map_cons, List.length_map]
    refine (run_fetchSection same).trans ?_
    rw [fetchAll, if_neg (List.cons_ne_nil _ _), fetchedOf, Option.getD_some, List.length_map,
      Option.map_some, List.map_map]
    rfl

def listAdminStatement : Option Bytes → Statement
  | none => .listAdminGetAll
  | some specifiedUuid => .listAdminGetOne specifiedUuid

def listChildStatement (refAdminUuid : Bytes) : Option Bytes → Statement
  | none => .listChildGetAll refAdminUuid
  | some specifiedUuid => .listChildGetOne refAdminUuid specifiedUuid

theorem run_dbAccountListAdminGet {specifiedUuid : Option Bytes}
    (answered : (listAdminStatement specifiedUuid).Answered outcome store) :
    (dbAccountListAdminGet specifiedUuid true).run (SqlOp.answer outcome) =
      .ok (fetchedOf (Db.dbAccountListAdminGet store specifiedUuid)) := by
  cases specifiedUuid with
  | none => exact run_listGet answered rfl
  | some specifiedUuid => exact run_listGet answered rfl

theorem run_dbAccountListChildGet {refAdminUuid : Bytes} {specifiedUuid : Option Bytes}
    (answered : (listChildStatement refAdminUuid specifiedUuid).Answered outcome store) :
    (dbAccountListChildGet refAdminUuid specifiedUuid true).run (SqlOp.answer outcome) =
      .ok (fetchedOf (Db.dbAccountListChildGet store refAdminUuid specifiedUuid)) := by
  cases specifiedUuid with
  | none => exact run_listGet answered rfl
  | some specifiedUuid => exact run_listGet answered rfl

end SqlProgram
end Livezure.Db
