import Livezure.Client.AccountList
import Livezure.Client.DeviceList

/-! The loops of `mc_account_list` and `mc_device_list` over the pairs of any reply: which entries of
their arrays they touch, and when they fill all of them. -/
namespace Livezure.Client
open Livezure.Core Db Rpc Service

/-- No entry beyond the array or before its first record is touched, and with success all the
entries that are reported have their record. -/
structure Filled {Record : Type} (listed : Except Fault (Listing Record)) : Prop where
  inside : listed ≠ .error .outOfBounds
  whole : ∀ listing, listed = .ok listing → listing.status = .ok →
    (listing.records.length : Int) = listing.count

/-! ### What a reply must be like -/

/-- The keys whose branches write to the last record, and those among them that accept NULL. -/
structure FieldKeys where
  keys : List Bytes
  nullable : List Bytes

def accountKeys : FieldKeys where
  keys := ["nickname", "comment", "created_time", "is_online", "ip", "port"].map ascii
  nullable := []

def deviceKeys : FieldKeys where
  keys := ["plugin_name", "ip", "port", "user", "pwd", "channel", "seg_folder", "seg_in_count",
    "seg_per_sec", "created_time", "nickname", "comment", "is_top_level", "ref_parent_uuid"].map ascii
  nullable := [ascii "ref_parent_uuid"]

namespace FieldKeys
variable (fields : FieldKeys)

def starts (pair : RpcReqEntry) : Bool := pair.key = ascii "uuid"

def concerns (pair : RpcReqEntry) : Bool := starts pair || pair.key ∈ fields.keys

/-- The loop reads the value of the pair through NULL, and ends there. -/
def stops (pair : RpcReqEntry) : Bool :=
  fields.concerns pair && pair.value.isNone && !decide (pair.key ∈ fields.nullable)

/-- The pairs up to the one where the loop ends, that one included. -/
def upToStop : RpcReq → RpcReq
  | [] => []
  | pair :: rest => if fields.stops pair then [pair] else pair :: upToStop rest

/-- The first pair that concerns a record starts one, there are no more records than entries, and
as many as are reported if the loop gets to the end. -/
structure Orderly (allocated : Nat) (count : Int) (pairs : RpcReq) : Prop where
  first : ∀ pair ∈ ((fields.upToStop pairs).filter fields.concerns).head?, starts pair = true
  room : (fields.upToStop pairs).countP starts ≤ allocated
  whole : pairs.any fields.stops = false → (pairs.countP starts : Int) = count

/-- The reply has no record, or an array and pairs that fit it. -/
def Fillable (pointerSize : Nat) (pairs : RpcReq) : Prop :=
  checkRid (some pairs) "rid" = 0 → checkRid (some pairs) "count" = 0 ∨
    ∃ allocated, xcallocPointers pointerSize (checkRid (some pairs) "count") = .ok allocated ∧
      fields.Orderly allocated (checkRid (some pairs) "count") pairs

end FieldKeys

/-! ### The loop -/

section Loop
variable {Record : Type} {start : Option Bytes → Except Fault Record} {field : FieldOf Record}
  {fields : FieldKeys}

/-- The branches of a loop are those of its keys, and fail on NULL only. -/
structure Branches (start : Option Bytes → Except Fault Record) (field : FieldOf Record)
    (fields : FieldKeys) : Prop where
  apart : ∀ key ∈ fields.keys, IsField key
  nullable : ∀ key ∈ fields.nullable, key ∈ fields.keys ∧ key ≠ ascii "uuid"
  started : ∀ value : Bytes, ∃ record, start (some value) = .ok record
  unstarted : start none = .error .nullPointer
  unknown : ∀ key value, key ∉ fields.keys → field key value = none
  known : ∀ key value, key ∈ fields.keys → ∃ assign, field key value = some assign ∧
    ∀ record, if value.isNone && !decide (key ∈ fields.nullable) then
      assign record = .error .nullPointer else ∃ next, assign record = .ok next

/-- What is left for the pairs of a loop with so many records. -/
structure Fitting (fields : FieldKeys) (count records : Nat) (pairs : RpcReq) : Prop where
  first : records = 0 →
    ∀ pair ∈ ((fields.upToStop pairs).filter fields.concerns).head?, FieldKeys.starts pair = true
  room : records + (fields.upToStop pairs).countP FieldKeys.starts ≤ count

section Pairs
variable {count records : Nat} {pair : RpcReqEntry} {rest : RpcReq}

theorem starts_concerns (starts : FieldKeys.starts pair = true) : fields.concerns pair = true := by
  rw [FieldKeys.concerns, starts]
  rfl

theorem skipped (other : fields.concerns pair = false) :
    (Fitting fields count records (pair :: rest) ↔ Fitting fields count records rest) ∧
      (pair :: rest).any fields.stops = rest.any fields.stops ∧
      (pair :: rest).countP FieldKeys.starts = rest.countP FieldKeys.starts := by
  have goes : fields.stops pair = false := by
    rw [FieldKeys.stops, other]
    rfl
  have starts : ¬FieldKeys.starts pair = true := by
    intro starts
    rw [starts_concerns starts] at other
    cases other
  have pairs : fields.upToStop (pair :: rest) = pair :: fields.upToStop rest := by
    rw [FieldKeys.upToStop, goes]
    rfl
  have filtered : (pair :: fields.upToStop rest).filter fields.concerns =
      (fields.upToStop rest).filter fields.concerns :=
    List.filter_cons_of_neg (by rw [other]; exact Bool.false_ne_true)
  refine ⟨?_, ?_, List.countP_cons_of_neg starts⟩
  · constructor
    · rintro ⟨first, room⟩
      rw [pairs, filtered] at first
      rw [pairs, List.countP_cons_of_neg starts] at room
      exact ⟨first, room⟩
    · rintro ⟨first, room⟩
      refine ⟨?_, ?_⟩
      · rw [pairs, filtered]
        exact first
      · rw [pairs, List.countP_cons_of_neg starts]
        exact room
  · rw [List.any_cons, goes, Bool.false_or]

/-- A pair that the loop goes on behind, with a record from then on. -/
theorem fitting_goes (goes : fields.stops pair = false) (concerns : fields.concerns pair = true)
    (first : records = 0 → FieldKeys.starts pair = true) :
    Fitting fields count records (pair :: rest) ↔
      records + [pair].countP FieldKeys.starts + (fields.upToStop rest).countP FieldKeys.starts ≤
        count := by
  have pairs : fields.upToStop (pair :: rest) = [pair] ++ fields.upToStop rest := by
    rw [FieldKeys.upToStop, goes]
    rfl
  constructor
  · rintro ⟨_, room⟩
    rw [pairs, List.countP_append] at room
    omega
  · intro room
    refine ⟨fun none_ other head => ?_, ?_⟩
    · rw [pairs, List.singleton_append, List.filter_cons_of_pos concerns] at head
      obtain rfl := Option.some.inj head
      exact first none_
    · rw [pairs, List.countP_append]
      omega

private theorem fitting_stops (stops : fields.stops pair = true)
    (first : records = 0 → FieldKeys.starts pair = true) :
    Fitting fields count records (pair :: rest) ↔
      records + [pair].countP FieldKeys.starts ≤ count := by
  have pairs : fields.upToStop (pair :: rest) = [pair] := by
    rw [FieldKeys.upToStop, stops]
    rfl
  constructor
  · rintro ⟨_, room⟩
    rwa [pairs] at room
  · intro room
    refine ⟨fun none_ other head => ?_, by rw [pairs]; exact room⟩
    rw [pairs] at head
    have member := List.mem_of_mem_head? head
    rw [List.mem_singleton.mp (List.mem_filter.mp member).1]
    exact first none_

private theorem not_fitting (concerns : fields.concerns pair = true) (starts : ¬FieldKeys.starts pair = true) :
    ¬Fitting fields count 0 (pair :: rest) := by
  rintro ⟨first, _⟩
  refine starts (first rfl pair ?_)
  rw [FieldKeys.upToStop]
  split
  · rw [List.filter_cons_of_pos concerns]
    rfl
  · rw [List.filter_cons_of_pos concerns]
    rfl

end Pairs

private theorem fitting_succ {count records : Nat} {pairs : RpcReq} (some_ : 0 < records) :
    Fitting fields count records pairs ↔
      records + (fields.upToStop pairs).countP FieldKeys.starts ≤ count :=
  ⟨fun fitting => fitting.room, fun room => ⟨fun none_ => absurd none_ some_.ne', room⟩⟩

/-- How a loop may end. -/
def Ends (fields : FieldKeys) (count records : Nat) (pairs : RpcReq)
    (looped : Except Fault (List Record)) : Prop :=
  (Fitting fields count records pairs ∧
    ((pairs.any fields.stops = false ∧ ∃ result, looped = .ok result ∧
      result.length = records + pairs.countP FieldKeys.starts) ∨
    (pairs.any fields.stops = true ∧ looped = .error .nullPointer))) ∨
  (¬Fitting fields count records pairs ∧ looped = .error .outOfBounds)

section Ends
variable {count records : Nat} {pair : RpcReqEntry} {rest : RpcReq}
  {looped : Except Fault (List Record)}

theorem Ends.skips (ends : Ends fields count records rest looped)
    (other : fields.concerns pair = false) : Ends fields count records (pair :: rest) looped := by
  obtain ⟨fitting, stops, starts⟩ : (Fitting fields count records (pair :: rest) ↔ _) ∧ _ ∧ _ :=
    skipped other
  unfold Ends at ends ⊢
  rwa [fitting, stops, starts]

theorem Ends.goes (ends : Ends fields count (records + [pair].countP FieldKeys.starts) rest looped)
    (goes : fields.stops pair = false) (concerns : fields.concerns pair = true)
    (some_ : 0 < records + [pair].countP FieldKeys.starts)
    (first : records = 0 → FieldKeys.starts pair = true) :
    Ends fields count records (pair :: rest) looped := by
  have fitting : Fitting fields count records (pair :: rest) ↔ Fitting fields count _ rest :=
    (fitting_goes goes concerns first).trans (fitting_succ some_).symm
  have stops : (pair :: rest).any fields.stops = rest.any fields.stops := by
    rw [List.any_cons, goes, Bool.false_or]
  have starts : records + (pair :: rest).countP FieldKeys.starts =
      records + [pair].countP FieldKeys.starts + rest.countP FieldKeys.starts := by
    rw [← List.singleton_append, List.countP_append, Nat.add_assoc]
  unfold Ends at ends ⊢
  rwa [fitting, stops, starts]

private theorem ends_stops (stops : fields.stops pair = true)
    (first : records = 0 → FieldKeys.starts pair = true)
    (room : records + [pair].countP FieldKeys.starts ≤ count) :
    Ends fields count records (pair :: rest) (.error .nullPointer : Except Fault (List Record)) := by
  refine .inl ⟨(fitting_stops stops first).mpr room, .inr ⟨?_, rfl⟩⟩
  rw [List.any_cons, stops, Bool.true_or]

private theorem ends_full (starts : FieldKeys.starts pair = true) (full : ¬records < count) :
    Ends fields count records (pair :: rest) (.error .outOfBounds : Except Fault (List Record)) := by
  have one : [pair].countP FieldKeys.starts = 1 := List.countP_cons_of_pos starts
  refine .inr ⟨fun fitting => ?_, rfl⟩
  cases stops : fields.stops pair with
  | true =>
    have room := (fitting_stops stops fun _ => starts).mp fitting
    omega
  | false =>
    have room := (fitting_goes stops (starts_concerns starts) fun _ => starts).mp fitting
    omega

/-- A pair that starts a record, where the array has an entry for it. -/
theorem Branches.starts_ends (branches : Branches start field fields) {records : List Record}
    {later : List Record → Except Fault (List Record)}
    (ends : ∀ more, more.length ≤ count → Ends fields count more.length rest (later more))
    (uuid : pair.key = ascii "uuid") (room : records.length < count) :
    Ends fields count records.length (pair :: rest) (do
      let record ← start pair.value
      later (records ++ [record])) := by
  have starts : FieldKeys.starts pair = true := decide_eq_true uuid
  have one : [pair].countP FieldKeys.starts = 1 := List.countP_cons_of_pos starts
  have concerns : fields.concerns pair = true := starts_concerns starts
  have stops : fields.stops pair = pair.value.isNone := by
    have strict : pair.key ∉ fields.nullable := fun member => (branches.nullable pair.key member).2 uuid
    rw [FieldKeys.stops, concerns, decide_eq_false strict]
    simp
  cases value : pair.value with
  | none =>
    rw [branches.unstarted]
    refine ends_stops (stops.trans (by rw [value]; rfl)) (fun _ => starts) ?_
    omega
  | some text =>
    obtain ⟨record, begun⟩ := branches.started text
    rw [begun]
    have longer : (records ++ [record]).length =
        records.length + [pair].countP FieldKeys.starts := by
      rw [List.length_append, List.length_singleton, one]
    have after := ends (records ++ [record]) (by omega)
    rw [longer] at after
    refine after.goes (stops.trans (by rw [value]; rfl)) concerns ?_ fun _ => starts
    omega

theorem Branches.assigns_ends (branches : Branches start field fields) {records : List Record}
    {later : List Record → Except Fault (List Record)} {assign : Record → Except Fault Record}
    (ends : ∀ more, more.length ≤ count → Ends fields count more.length rest (later more))
    (notUuid : pair.key ≠ ascii "uuid") (known : pair.key ∈ fields.keys)
    (branch : field pair.key pair.value = some assign) (within : records.length ≤ count) :
    Ends fields count records.length (pair :: rest)
      (match records.getLast? with
        | none => .error .outOfBounds
        | some record => do
          let record ← assign record
          later (records.dropLast ++ [record])) := by
  have starts : ¬FieldKeys.starts pair = true := fun same => notUuid (of_decide_eq_true same)
  have zero : [pair].countP FieldKeys.starts = 0 := List.countP_cons_of_neg starts
  have concerns : fields.concerns pair = true := by
    rw [FieldKeys.concerns, decide_eq_true known, Bool.or_true]
  cases last : records.getLast? with
  | none =>
    rw [List.getLast?_eq_none_iff.mp last]
    exact .inr ⟨not_fitting concerns starts, rfl⟩
  | some record =>
    have some_ : 0 < records.length := by
      apply List.length_pos_of_ne_nil
      rintro rfl
      cases last
    have first : records.length = 0 → FieldKeys.starts pair = true :=
      fun none_ => absurd none_ some_.ne'
    obtain ⟨_, same, assigns⟩ := branches.known pair.key pair.value known
    obtain rfl := Option.some.inj (branch.symm.trans same)
    have assigned := assigns record
    have stops : fields.stops pair =
        (pair.value.isNone && !decide (pair.key ∈ fields.nullable)) := by
      rw [FieldKeys.stops, concerns, Bool.true_and]
    rw [← stops] at assigned
    cases halts : fields.stops pair with
    | true =>
      rw [halts, if_pos rfl] at assigned
      dsimp only
      rw [assigned]
      refine ends_stops halts first ?_
      omega
    | false =>
      rw [halts, if_neg Bool.false_ne_true] at assigned
      obtain ⟨next, done⟩ := assigned
      dsimp only
      rw [done]
      have same : (records.dropLast ++ [next]).length =
          records.length + [pair].countP FieldKeys.starts := by
        rw [List.length_append, List.length_dropLast, List.length_singleton]
        omega
      have after := ends (records.dropLast ++ [next]) (by omega)
      rw [same] at after
      refine after.goes halts concerns ?_ first
      omega

end Ends

/-- The loop gets to its end, or to a value through NULL, or leaves the array. -/
theorem recordLoop_ends (branches : Branches start field fields) {count : Nat} (pairs : RpcReq)
    {records : List Record} (within : records.length ≤ count) :
    Ends fields count records.length pairs (recordLoop start field count pairs records) := by
  induction pairs generalizing records with
  | nil => exact .inl ⟨⟨nofun, within⟩, .inl ⟨rfl, records, rfl, rfl⟩⟩
  | cons pair rest ih =>
    unfold recordLoop
    split
    · rename_i control
      refine (ih within).skips ?_
      rw [FieldKeys.concerns, Bool.or_eq_false_iff]
      constructor
      · rw [FieldKeys.starts, decide_eq_false_iff_not]
        rcases control with same | same <;> rw [same] <;> decide
      · rw [decide_eq_false_iff_not]
        intro known
        obtain ⟨notRid, notCount, _⟩ := branches.apart pair.key known
        exact control.elim notRid notCount
    · split
      · rename_i uuid
        split
        · rename_i room
          exact branches.starts_ends (fun _ within => ih within) uuid room
        · rename_i full
          exact ends_full (decide_eq_true uuid) full
      · rename_i notUuid
        by_cases known : pair.key ∈ fields.keys
        · obtain ⟨assign, branch, _⟩ := branches.known pair.key pair.value known
          rw [branch]
          exact branches.assigns_ends (fun _ within => ih within) notUuid known branch within
        · rw [branches.unknown pair.key pair.value known]
          refine (ih within).skips ?_
          rw [FieldKeys.concerns, FieldKeys.starts, decide_eq_false notUuid, decide_eq_false known]
          rfl

private theorem orderly_iff {allocated : Nat} {count : Int} {pairs : RpcReq} :
    fields.Orderly allocated count pairs ↔ Fitting fields allocated 0 pairs ∧
      (pairs.any fields.stops = false → (pairs.countP FieldKeys.starts : Int) = count) := by
  constructor
  · rintro ⟨first, room, whole⟩
    exact ⟨⟨fun _ => first, by rwa [Nat.zero_add]⟩, whole⟩
  · rintro ⟨⟨first, room⟩, whole⟩
    exact ⟨first rfl, by rwa [Nat.zero_add] at room, whole⟩

private theorem filled_refused {status : McStatus} (refused : status ≠ .ok) :
    Filled (.ok ⟨status, [], 0⟩ : Except Fault (Listing Record)) := by
  refine ⟨nofun, ?_⟩
  rintro _ ⟨⟩ accepted
  exact absurd accepted refused

private theorem filled_loop (branches : Branches start field fields) {allocated : Nat} {count : Int}
    (pairs : RpcReq) :
    Filled (do
      let records ← recordLoop start field allocated pairs []
      return (⟨.ok, records, count⟩ : Listing Record)) ↔ fields.Orderly allocated count pairs := by
  rw [orderly_iff]
  have ends : Ends fields allocated 0 pairs (recordLoop start field allocated pairs []) :=
    @recordLoop_ends _ start field fields branches allocated pairs [] (Nat.zero_le _)
  rcases ends with
    ⟨fitting, ⟨stops, result, looped, length⟩ | ⟨stops, looped⟩⟩ | ⟨unfitting, looped⟩
  · rw [looped, and_iff_right fitting, stops]
    rw [Nat.zero_add] at length
    constructor
    · intro filled _
      rw [← length]
      exact filled.whole _ rfl rfl
    · intro whole
      refine ⟨nofun, ?_⟩
      rintro _ ⟨⟩ _
      dsimp only
      rw [length]
      exact whole rfl
  · rw [looped, stops]
    exact iff_of_true ⟨nofun, fun _ => nofun⟩ ⟨fitting, nofun⟩
  · rw [looped]
    exact iff_of_false (fun filled => filled.inside rfl) fun orderly => unfitting orderly.1

/-- A list function fills what it reports, or leaves the array, as the pairs are. -/
theorem filled_iff (branches : Branches start field fields) (pointerSize : Nat) (pairs : RpcReq) :
    Filled (mcList pointerSize (fun count pairs => recordLoop start field count pairs [])
      (some pairs)) ↔ fields.Fillable pointerSize pairs := by
  unfold mcList FieldKeys.Fillable
  dsimp only
  by_cases accepted : checkRid (some pairs) "rid" = 0
  · rw [if_pos accepted, imp_iff_right accepted]
    by_cases empty : checkRid (some pairs) "count" = 0
    · rw [if_pos empty]
      refine iff_of_true ⟨nofun, ?_⟩ (.inl empty)
      rintro _ ⟨⟩ _
      rfl
    · rw [if_neg empty, or_iff_right empty]
      cases size : xcallocPointers pointerSize (checkRid (some pairs) "count") with
      | error fault =>
        obtain rfl := xcallocPointers_error size
        refine iff_of_false (fun filled => filled.inside rfl) ?_
        rintro ⟨_, ⟨⟩, _⟩
      | ok allocated =>
        have decides := @filled_loop _ start field fields branches allocated
          (checkRid (some pairs) "count") pairs
        refine decides.trans ⟨fun orderly => ⟨allocated, rfl, orderly⟩, ?_⟩
        rintro ⟨_, ⟨⟩, orderly⟩
        exact orderly
  · rw [if_neg accepted]
    refine iff_of_true ?_ fun same => absurd same accepted
    split
    · exact filled_refused nofun
    · split
      · exact filled_refused nofun
      · split
        · exact filled_refused nofun
        · exact filled_refused nofun

end Loop

theorem accountBranches (own : Bytes) : Branches (startAccount own) mcAccountField accountKeys where
  apart := by
    unfold IsField
    decide
  nullable := nofun
  started _ := ⟨_, rfl⟩
  unstarted := rfl
  unknown key value absent := by
    simp only [accountKeys, List.map_cons, List.map_nil, List.mem_cons, List.not_mem_nil, or_false,
      not_or] at absent
    obtain ⟨nickname, comment, createdTime, isOnline, ip, port⟩ := absent
    rw [mcAccountField, if_neg nickname, if_neg comment, if_neg createdTime, if_neg isOnline, if_neg ip,
      if_neg port]
  known key value known := by
    simp only [accountKeys, List.map_cons, List.map_nil, List.mem_cons, List.not_mem_nil, or_false]
      at known
    rcases known with rfl | rfl | rfl | rfl | rfl | rfl <;> refine ⟨_, rfl, fun record => ?_⟩ <;>
      cases value <;> first | rfl | exact ⟨_, rfl⟩

theorem deviceBranches : Branches startDevice mcDeviceField deviceKeys where
  apart := by
    unfold IsField
    decide
  nullable := by decide
  started _ := ⟨_, rfl⟩
  unstarted := rfl
  unknown key value absent := by
    simp only [deviceKeys, List.map_cons, List.map_nil, List.mem_cons, List.not_mem_nil, or_false,
      not_or] at absent
    simp only [mcDeviceField, absent, if_false]
  known key value known := by
    simp only [deviceKeys, List.map_cons, List.map_nil, List.mem_cons, List.not_mem_nil, or_false]
      at known
    rcases known with rfl | rfl | rfl | rfl | rfl | rfl | rfl | rfl | rfl | rfl | rfl | rfl | rfl | rfl <;>
      refine ⟨_, rfl, fun record => ?_⟩ <;> cases value <;> first | rfl | exact ⟨_, rfl⟩

/-- What either function makes of the pairs of any reply. -/
theorem lists_filled_iff (pointerSize : Nat) (own : Bytes) (pairs : RpcReq) :
    (Filled (mcAccountList pointerSize own (some pairs)) ↔
      accountKeys.Fillable pointerSize pairs) ∧
    (Filled (mcDeviceList pointerSize (some pairs)) ↔ deviceKeys.Fillable pointerSize pairs) := by
  constructor
  · exact filled_iff (accountBranches own) pointerSize pairs
  · exact filled_iff deviceBranches pointerSize pairs

/-- A reply with rid 0 and a count of 1. -/
private def countOne : RpcReq := [entryOf (ascii "rid", ascii "0"), entryOf (ascii "count", ascii "1")]

/-- Two records for one entry. -/
private def twoUuids : RpcReq :=
  countOne ++ [entryOf (ascii "uuid", ascii "a"), entryOf (ascii "uuid", ascii "b")]

/-- A field before the record it belongs to. -/
private def fieldFirst : RpcReq :=
  countOne ++ [entryOf (ascii "nickname", ascii "a"), entryOf (ascii "uuid", ascii "b")]

theorem not_lists_filled : checkRid (some twoUuids) "rid" = 0 ∧ checkRid (some fieldFirst) "rid" = 0 ∧
    mcAccountList 8 [] (some twoUuids) = .error .outOfBounds ∧
    mcDeviceList 8 (some twoUuids) = .error .outOfBounds ∧
    mcAccountList 8 [] (some fieldFirst) = .error .outOfBounds ∧
    mcDeviceList 8 (some fieldFirst) = .error .outOfBounds ∧
    ¬Filled (mcAccountList 8 [] (some countOne)) ∧ ¬Filled (mcDeviceList 8 (some countOne)) := by
  refine ⟨rfl, rfl, rfl, rfl, rfl, rfl, fun filled => ?_, fun filled => ?_⟩
  · cases filled.whole ⟨.ok, [], 1⟩ rfl rfl
  · cases filled.whole ⟨.ok, [], 1⟩ rfl rfl

end Livezure.Client
