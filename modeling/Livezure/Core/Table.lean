import Mathlib.Data.List.Nodup
import Mathlib.Data.List.Sort

/-! Tables with a primary key, and the statements that change them. -/
namespace Livezure.Core

/-- Rows with unique keys. -/
structure Table {Row Key : Type} (key : Row → Key) where
  rows : List Row
  unique : (rows.map key).Nodup

namespace Table
variable {Row Key : Type} {key : Row → Key}

instance [DecidableEq Row] : DecidableEq (Table key) := fun left right =>
  if same : left.rows = right.rows then
    .isTrue (by cases left; cases right; cases same; rfl)
  else .isFalse (fun equal => same (congrArg rows equal))

def empty : Table key where
  rows := []
  unique := .nil

def keys (table : Table key) : List Key := table.rows.map key

/-- `SELECT .. WHERE condition`. -/
def select (table : Table key) (condition : Row → Bool) : List Row :=
  table.rows.filter condition

/-- `INSERT`, unless a row has the key already. -/
def insert [DecidableEq Key] (table : Table key) (row : Row) : Option (Table key) :=
  if absent : key row ∉ table.keys then
    some
      { rows := table.rows ++ [row]
        unique := by
          rw [List.map_append]
          refine List.Nodup.append table.unique (List.nodup_singleton _) ?_
          intro value old new
          exact absent (List.mem_singleton.mp new ▸ old) }
  else none

/-- `DELETE .. WHERE condition`. -/
def deleteWhere (table : Table key) (condition : Row → Bool) : Table key where
  rows := table.rows.filter (fun row => !condition row)
  unique := table.unique.sublist (List.filter_sublist.map key)

/-- `UPDATE .. WHERE condition` of columns that are not in the key. -/
def updateWhere (table : Table key) (condition : Row → Bool) (change : Row → Row)
    (keeps : ∀ row, key (change row) = key row) : Table key where
  rows := table.rows.map (fun row => if condition row then change row else row)
  unique := by
    have same : key ∘ (fun row => if condition row then change row else row) = key := by
      funext row
      by_cases met : condition row <;> simp [met, keeps]
    rw [List.map_map, same]
    exact table.unique

@[ext] theorem ext {left right : Table key} (same : left.rows = right.rows) : left = right := by
  cases left
  cases right
  cases same
  rfl

theorem mem_keys {table : Table key} {value : Key} :
    value ∈ table.keys ↔ ∃ row ∈ table.rows, key row = value :=
  List.mem_map

theorem key_mem {table : Table key} {row : Row} (member : row ∈ table.rows) :
    key row ∈ table.keys :=
  List.mem_map_of_mem member

/-- A key belongs to one row. -/
theorem row_unique {table : Table key} {left right : Row} (first : left ∈ table.rows)
    (second : right ∈ table.rows) (same : key left = key right) : left = right :=
  List.inj_on_of_nodup_map table.unique first second same

@[simp] theorem keys_empty : (empty : Table key).keys = [] := rfl

@[simp] theorem mem_deleteWhere {table : Table key} {condition : Row → Bool} {row : Row} :
    row ∈ (table.deleteWhere condition).rows ↔ row ∈ table.rows ∧ condition row = false := by
  simp [deleteWhere]

@[simp] theorem mem_select {table : Table key} {condition : Row → Bool} {row : Row} :
    row ∈ table.select condition ↔ row ∈ table.rows ∧ condition row = true := by
  simp [select]

theorem select_ne_nil {table : Table key} {condition : Row → Bool} :
    table.select condition ≠ [] ↔ ∃ row ∈ table.rows, condition row = true := by
  rw [select, ne_eq, List.filter_eq_nil_iff]
  simp

/-- The row of a key is the only one that is selected by it. -/
theorem head_selectKey [DecidableEq Key] {table : Table key} {row : Row}
    (member : row ∈ table.rows) :
    (table.select fun other => decide (key other = key row)).head? = some row := by
  have selected : row ∈ table.select fun other => decide (key other = key row) :=
    mem_select.mpr ⟨member, decide_eq_true rfl⟩
  cases rows : table.select fun other => decide (key other = key row) with
  | nil =>
    rw [rows] at selected
    cases selected
  | cons first rest =>
    have listed : first ∈ table.select fun other => decide (key other = key row) := by
      rw [rows]
      exact List.mem_cons_self
    obtain ⟨known, same⟩ := mem_select.mp listed
    rw [List.head?_cons, row_unique known member (of_decide_eq_true same)]

theorem find_key [DecidableEq Key] {table : Table key} {row : Row} (member : row ∈ table.rows) :
    (table.rows.find? fun other => decide (key other = key row)) = some row := by
  rw [← List.head?_filter]
  exact head_selectKey member

theorem select_key [DecidableEq Key] {table : Table key} {row : Row} (member : row ∈ table.rows)
    (condition : Row → Bool) :
    (table.select fun other => condition other && decide (key other = key row)) =
      if condition row then [row] else [] := by
  obtain ⟨front, back, rows⟩ := List.append_of_mem member
  have unique := table.unique
  rw [rows, List.map_append, List.map_cons] at unique
  obtain ⟨_, second, apart⟩ := List.nodup_append.mp unique
  have before : ∀ other ∈ front, ¬ (condition other && decide (key other = key row)) = true := by
    intro other listed met
    rw [Bool.and_eq_true, decide_eq_true_iff] at met
    exact apart _ (List.mem_map_of_mem listed) _ List.mem_cons_self met.2
  have behind : ∀ other ∈ back, ¬ (condition other && decide (key other = key row)) = true := by
    intro other listed met
    rw [Bool.and_eq_true, decide_eq_true_iff] at met
    exact (List.nodup_cons.mp second).1 (met.2 ▸ List.mem_map_of_mem listed)
  rw [select, rows, List.filter_append, List.filter_cons, List.filter_eq_nil_iff.mpr before,
    List.filter_eq_nil_iff.mpr behind]
  simp

/-- An update of one key's row leaves the others as they are. -/
theorem mem_updateKey [DecidableEq Key] {table : Table key} {value : Key} {change : Row → Row}
    (keeps : ∀ row, key (change row) = key row) {row : Row} (differ : key row ≠ value) :
    row ∈ (table.updateWhere (fun row => decide (key row = value)) change keeps).rows ↔
      row ∈ table.rows := by
  simp only [updateWhere, List.mem_map, decide_eq_true_eq]
  constructor
  · rintro ⟨old, member, same⟩
    split at same
    · rename_i met
      rw [← same, keeps] at differ
      exact absurd met differ
    · exact same ▸ member
  · intro member
    exact ⟨row, member, if_neg differ⟩

@[simp] theorem keys_updateWhere {table : Table key} {condition : Row → Bool} {change : Row → Row}
    {keeps : ∀ row, key (change row) = key row} :
    (table.updateWhere condition change keeps).keys = table.keys := by
  simp only [keys, updateWhere, List.map_map]
  apply List.map_congr_left
  intro row _
  simp only [Function.comp_apply]
  split
  · exact keeps row
  · rfl

/-! ### The order of the rows -/

section Scan
variable [DecidableEq Key]

/-- The rows in the order in which a query comes to them: first those of some keys, as these are
ordered. -/
def scan (table : Table key) (order : List Key) : List Row :=
  table.rows.insertionSort fun left right => order.idxOf (key left) ≤ order.idxOf (key right)

/-- `SELECT .. WHERE condition`, with the rows in this order. -/
def selectIn (table : Table key) (order : List Key) (condition : Row → Bool) : List Row :=
  (table.scan order).filter condition

variable {table : Table key} {order : List Key} {condition : Row → Bool}

theorem scan_perm : (table.scan order).Perm table.rows := List.perm_insertionSort _ _

@[simp] theorem mem_scan {row : Row} : row ∈ table.scan order ↔ row ∈ table.rows :=
  scan_perm.mem_iff

theorem selectIn_perm : (table.selectIn order condition).Perm (table.select condition) :=
  scan_perm.filter condition

@[simp] theorem mem_selectIn {row : Row} :
    row ∈ table.selectIn order condition ↔ row ∈ table.rows ∧ condition row = true := by
  rw [selectIn_perm.mem_iff, mem_select]

@[simp] theorem selectIn_eq_nil :
    table.selectIn order condition = [] ↔ table.select condition = [] := by
  rw [← List.length_eq_zero_iff, selectIn_perm.length_eq, List.length_eq_zero_iff]

/-- A query for one key has no order to choose. -/
theorem selectIn_key {value : Key}
    (named : ∀ row ∈ table.rows, condition row = true → key row = value) :
    table.selectIn order condition = table.select condition := by
  have perm : (table.selectIn order condition).Perm (table.select condition) := selectIn_perm
  have unique : (table.select condition).Nodup := table.unique.of_map.filter condition
  cases rows : table.select condition with
  | nil => rw [selectIn_eq_nil, rows]
  | cons row rest =>
    have none_left : rest = [] := by
      apply List.eq_nil_iff_forall_not_mem.mpr
      intro other member
      rw [rows] at unique
      obtain ⟨first, met⟩ := mem_select.mp (rows ▸ List.mem_cons_self (a := row))
      obtain ⟨second, also⟩ := mem_select.mp (rows ▸ List.mem_cons_of_mem row member)
      have same := row_unique first second ((named row first met).trans (named other second also).symm)
      exact (List.nodup_cons.mp unique).1 (same ▸ member)
    rw [rows, none_left, List.perm_singleton] at perm
    rw [perm, none_left]

/-- Any order of the rows is one of these. -/
theorem exists_scan {rows : List Row} (perm : rows.Perm table.rows) :
    ∃ order, table.scan order = rows := by
  have unique : (rows.map key).Nodup := (perm.map key).nodup_iff.mpr table.unique
  have place : ∀ (index : Nat) (bound : index < rows.length),
      (rows.map key).idxOf (key rows[index]) = index := by
    intro index bound
    have at_ := unique.idxOf_getElem index (by rwa [List.length_map])
    rwa [List.getElem_map] at at_
  have ordered : rows.Pairwise fun left right =>
      (rows.map key).idxOf (key left) ≤ (rows.map key).idxOf (key right) := by
    rw [List.pairwise_iff_getElem]
    intro left right first second before
    rw [place left first, place right second]
    exact before.le
  refine ⟨rows.map key, List.Perm.eq_of_pairwise ?_ (List.pairwise_insertionSort _ _) ordered
    (scan_perm.trans perm.symm)⟩
  intro left right member other below above
  have listed : key left ∈ rows.map key :=
    List.mem_map_of_mem (perm.mem_iff.mpr (mem_scan.mp member))
  have same := (List.idxOf_inj listed).mp (below.antisymm above)
  exact row_unique (mem_scan.mp member) (perm.mem_iff.mp other) same

end Scan

/-- Of the rows before exactly some are gone, and no other is there. -/
def Without (after before : Table key) (gone : Row → Prop) : Prop :=
  ∀ row, row ∈ after.rows ↔ row ∈ before.rows ∧ ¬gone row

/-- Two accounts of what is gone agree on the rows before. -/
theorem Without.congr_iff {before after : Table key} {gone other : Row → Prop}
    (left : after.Without before gone) :
    after.Without before other ↔ ∀ row ∈ before.rows, (gone row ↔ other row) := by
  constructor
  · intro right row member
    have same := (left row).symm.trans (right row)
    rw [and_congr_right_iff] at same
    exact not_iff_not.mp (same member)
  · intro same row
    rw [left row, and_congr_right_iff]
    intro member
    exact not_congr (same row member)

/-- A deletion takes the rows that its condition is about. -/
theorem without_deleteWhere {table : Table key} {condition : Row → Bool} {gone : Row → Prop} :
    (table.deleteWhere condition).Without table gone ↔
      ∀ row ∈ table.rows, (condition row = true ↔ gone row) := by
  have left : (table.deleteWhere condition).Without table fun row => condition row = true := by
    intro row
    rw [mem_deleteWhere, Bool.not_eq_true]
  exact left.congr_iff

section Insert
variable [DecidableEq Key]

theorem insert_eq_none {table : Table key} {row : Row} :
    table.insert row = none ↔ key row ∈ table.keys := by
  simp [insert]

theorem insert_absent {table : Table key} {row : Row} (absent : key row ∉ table.keys) :
    ∃ after, table.insert row = some after ∧ after.rows = table.rows ++ [row] := by
  simp [insert, absent]

theorem insert_some {table after : Table key} {row : Row} (done : table.insert row = some after) :
    key row ∉ table.keys ∧ after.rows = table.rows ++ [row] := by
  unfold insert at done
  split at done
  · rename_i absent
    obtain rfl := Option.some.inj done
    exact ⟨absent, rfl⟩
  · cases done

theorem mem_of_insert {table after : Table key} {row other : Row}
    (done : table.insert row = some after) (member : other ∈ table.rows) : other ∈ after.rows := by
  rw [(insert_some done).2]
  exact List.mem_append_left _ member

/-- The keys after an `INSERT` that is done. -/
theorem keys_insert {table after : Table key} {row : Row} (done : table.insert row = some after)
    {value : Key} : value ∈ after.keys ↔ value ∈ table.keys ∨ value = key row := by
  simp [keys, (insert_some done).2, or_comm, eq_comm]

end Insert

/-- The keys after the row of one key is deleted. -/
theorem keys_deleteKey [DecidableEq Key] {table : Table key} {gone value : Key} :
    value ∈ (table.deleteWhere fun row => decide (key row = gone)).keys ↔
      value ∈ table.keys ∧ value ≠ gone := by
  simp only [mem_keys, mem_deleteWhere, decide_eq_false_iff_not]
  constructor
  · rintro ⟨row, ⟨member, differ⟩, rfl⟩
    exact ⟨⟨row, member, rfl⟩, differ⟩
  · rintro ⟨⟨row, member, rfl⟩, differ⟩
    exact ⟨row, ⟨member, differ⟩, rfl⟩

end Table
end Livezure.Core
