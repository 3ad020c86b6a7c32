import Livezure.Core.Signed
import Livezure.Service.Decimal
import Mathlib.Data.PNat.Defs

/-! What the list functions of the client (`media_api_account.c`, `media_api_device.c`) make of
the pairs of a reply: a loop that starts a record with each `uuid` and fills its fields. -/
namespace Livezure.Client
open Livezure.Core Db Rpc Service

inductive McStatus where
  | ok
  | serverNotResponse
  | noPermission
  | syntaxError
  | internalError
  | sessionExpired
  deriving DecidableEq

def checkRid (req : Option RpcReq) (id : String) : Int :=
  atoi ((parserGet req id).getD (ascii "-256"))

/-- The text of a zeroed field after `strncpy` into it, from a pointer. -/
def strncpy (value : Option Bytes) (size : Nat) : Except Fault Bytes :=
  match value with
  | none => .error .nullPointer
  | some value => .ok ((cstring value).take size)

def atoiAt : Option Bytes → Except Fault Int
  | none => .error .nullPointer
  | some value => .ok (atoi (cstring value))

/-- `rpc_parser_add` for each pair of a reply, byte for byte. -/
def parserAddAll (reply : Reply) : Except Fault RpcReq :=
  reply.foldlM (fun req pair => rpcParserAdd req (pair.1 ++ [0]) pair.2 pair.2.length) []

/-- A text that a field for `size` characters can hold. -/
def FitsField (size : Nat) (text : Bytes) : Prop := 0 ∉ text ∧ text.length ≤ size

/-! ### The pairs -/

/-- The value pointer of a pair. -/
def pointer (value : Bytes) : Option Bytes := if value = [] then none else some value

def entryOf (pair : Bytes × Bytes) : RpcReqEntry := ⟨pair.1, pointer pair.2, pair.2.length⟩

private theorem rpcParserAdd_pair (req : RpcReq) {pair : Bytes × Bytes} (clean : 0 ∉ pair.1) :
    rpcParserAdd req (pair.1 ++ [0]) pair.2 pair.2.length = .ok (req ++ [entryOf pair]) := by
  have known : ¬ (pair.2.length : Int) < 0 := by omega
  simp only [rpcParserAdd, strlen_terminated clean, slice_front, sizeOr_known known, slice_whole,
    bind, Except.bind, pure, Except.pure, List.length_eq_zero_iff, entryOf, pointer]
  split
  · rename_i empty
    rw [empty]
    rfl
  · rfl

theorem parserAddAll_ok {reply : Reply} (clean : ∀ pair ∈ reply, 0 ∉ pair.1) :
    parserAddAll reply = .ok (reply.map entryOf) := by
  have from_here : ∀ req, reply.foldlM (fun req pair =>
      rpcParserAdd req (pair.1 ++ [0]) pair.2 pair.2.length) req = .ok (req ++ reply.map entryOf) := by
    induction reply with
    | nil =>
      intro req
      rw [List.map_nil, List.append_nil]
      rfl
    | cons pair rest ih =>
      intro req
      rw [List.foldlM_cons, rpcParserAdd_pair req (clean pair List.mem_cons_self)]
      refine (ih (fun other member => clean other (List.mem_cons_of_mem _ member)) _).trans ?_
      rw [List.append_assoc]
      rfl
  exact from_here []

/-! ### Pointers and fields -/

theorem strncpy_ok {text : Bytes} :
    strncpy (pointer text) size = .ok field ↔ text ≠ [] ∧ (cstring text).take size = field := by
  by_cases empty : text = []
  · rw [pointer, if_pos empty]
    exact ⟨(by intro impossible; cases impossible), fun sent => absurd empty sent.1⟩
  · rw [pointer, if_neg empty, strncpy, Except.ok.injEq, and_iff_right empty]

theorem strncpy_length {value : Option Bytes} (copied : strncpy value size = .ok field) :
    field.length ≤ size := by
  cases value with
  | none => cases copied
  | some text =>
    obtain rfl := Except.ok.inj copied
    exact List.length_take_le _ _

theorem atoiAt_ok {text : Bytes} :
    atoiAt (pointer text) = .ok value ↔ text ≠ [] ∧ atoi (cstring text) = value := by
  by_cases empty : text = []
  · rw [pointer, if_pos empty]
    exact ⟨(by intro impossible; cases impossible), fun sent => absurd empty sent.1⟩
  · rw [pointer, if_neg empty, atoiAt, Except.ok.injEq, and_iff_right empty]

theorem cstring_of_clean {text : Bytes} (clean : 0 ∉ text) : cstring text = text := by
  have terminated := cstring_append text [] clean
  rwa [List.append_nil, show cstring [] = [] from rfl, List.append_nil] at terminated

theorem cstring_take (text : Bytes) (size : Nat) :
    cstring (text.take size) = (cstring text).take size := by
  induction text generalizing size with
  | nil => rw [List.take_nil, show cstring [] = [] from rfl, List.take_nil]
  | cons byte rest ih =>
    cases size with
    | zero => rfl
    | succ size =>
      by_cases ends : byte = 0
      · rw [ends]
        rfl
      · have kept : ∀ text, cstring (byte :: text) = byte :: cstring text :=
          fun text => List.takeWhile_cons_of_pos (decide_eq_true ends)
        rw [List.take_succ_cons, kept, kept, List.take_succ_cons, ih]

theorem fitsField_iff {text : Bytes} : FitsField size text ↔ (cstring text).take size = text := by
  constructor
  · rintro ⟨clean, short⟩
    rw [cstring_of_clean clean, List.take_of_length_le short]
  · intro same
    constructor
    · rw [← same]
      exact fun member => cstring_clean text (List.mem_of_mem_take member)
    · rw [← same]
      exact List.length_take_le _ _

theorem toInt_eq_iff : toInt number = number ↔ IsInt number := by
  rw [← atoi_decimal, atoi_decimal_iff]

/-- A key of a field other than the uuid. -/
def IsField (key : Bytes) : Prop :=
  key ≠ ascii "rid" ∧ key ≠ ascii "count" ∧ key ≠ ascii "uuid"

/-! ### The loop -/

section Loop
variable {Record : Type}

/-- What the branch for a key writes to the last record. -/
abbrev FieldOf (Record : Type) := Bytes → Option Bytes → Option (Record → Except Fault Record)

/-- The loop over the pairs, with the records allocated so far in `count` pointers. -/
def recordLoop (start : Option Bytes → Except Fault Record) (field : FieldOf Record) (count : Nat) :
    RpcReq → List Record → Except Fault (List Record)
  | [], records => .ok records
  | pair :: rest, records =>
    if pair.key = ascii "rid" ∨ pair.key = ascii "count" then
      recordLoop start field count rest records
    else if pair.key = ascii "uuid" then
      if records.length < count then do
        let record ← start pair.value
        recordLoop start field count rest (records ++ [record])
      else .error .outOfBounds
    else
      match field pair.key pair.value with
      | none => recordLoop start field count rest records
      | some assign =>
        match records.getLast? with
        | none => .error .outOfBounds
        | some record => do
          let record ← assign record
          recordLoop start field count rest (records.dropLast ++ [record])

def assignPairs (field : FieldOf Record) : RpcReq → Record → Except Fault Record
  | [], record => .ok record
  | pair :: rest, record =>
    match field pair.key pair.value with
    | none => assignPairs field rest record
    | some assign => assign record >>= assignPairs field rest

variable {start : Option Bytes → Except Fault Record} {field : FieldOf Record} {count : Nat}

theorem recordLoop_fields {pairs rest : RpcReq} (fields : ∀ pair ∈ pairs, IsField pair.key)
    (records : List Record) (record : Record) :
    recordLoop start field count (pairs ++ rest) (records ++ [record]) =
      assignPairs field pairs record >>= fun record =>
        recordLoop start field count rest (records ++ [record]) := by
  induction pairs generalizing record with
  | nil => rfl
  | cons pair pairs ih =>
    obtain ⟨notRid, notCount, notUuid⟩ := fields pair List.mem_cons_self
    have later := ih fun other member => fields other (List.mem_cons_of_mem _ member)
    rw [List.cons_append, recordLoop, if_neg (not_or.mpr ⟨notRid, notCount⟩), if_neg notUuid,
      assignPairs]
    cases field pair.key pair.value with
    | none => exact later record
    | some assign =>
      simp only [List.getLast?_concat, List.dropLast_concat]
      cases assign record with
      | error fault => rfl
      | ok record => exact later record

theorem recordLoop_length {pairs : RpcReq} {records result : List Record}
    (within : records.length ≤ count)
    (looped : recordLoop start field count pairs records = .ok result) : result.length ≤ count := by
  induction pairs generalizing records with
  | nil =>
    cases looped
    exact within
  | cons pair rest ih =>
    unfold recordLoop at looped
    split at looped
    · exact ih within looped
    · split at looped
      · split at looped
        · rename_i room
          obtain ⟨record, _, looped⟩ := bind_ok looped
          apply ih _ looped
          rw [List.length_append, List.length_singleton]
          exact room
        · cases looped
      · split at looped
        · exact ih within looped
        · split at looped
          · cases looped
          · rename_i last found
            obtain ⟨record, _, looped⟩ := bind_ok looped
            have some_ : 0 < records.length := List.length_pos_of_mem (List.mem_of_getLast? found)
            apply ih _ looped
            rw [List.length_append, List.length_dropLast, List.length_singleton]
            omega

/-- What holds of a record from its start on. -/
theorem recordLoop_forall (holds : Record → Prop)
    (started : ∀ value record, start value = .ok record → holds record)
    (kept : ∀ key value assign before after, field key value = some assign → holds before →
      assign before = .ok after → holds after)
    {pairs : RpcReq} {records result : List Record} (before : ∀ record ∈ records, holds record)
    (looped : recordLoop start field count pairs records = .ok result) :
    ∀ record ∈ result, holds record := by
  induction pairs generalizing records with
  | nil =>
    cases looped
    exact before
  | cons pair rest ih =>
    unfold recordLoop at looped
    split at looped
    · exact ih before looped
    · split at looped
      · split at looped
        · obtain ⟨record, begun, looped⟩ := bind_ok looped
          apply ih _ looped
          intro other member
          rcases List.mem_append.mp member with old | new
          · exact before other old
          · rw [List.mem_singleton.mp new]
            exact started _ _ begun
        · cases looped
      · split at looped
        · exact ih before looped
        · rename_i assign known
          split at looped
          · cases looped
          · rename_i last found
            obtain ⟨record, assigned, looped⟩ := bind_ok looped
            apply ih _ looped
            intro other member
            rcases List.mem_append.mp member with old | new
            · exact before other (List.mem_of_mem_dropLast old)
            · rw [List.mem_singleton.mp new]
              exact kept _ _ _ _ _ known (before last (List.mem_of_getLast? found)) assigned

end Loop

section Fields
variable {Record : Type} {field : FieldOf Record} {rest : RpcReq} {record result : Record}
  {key text : Bytes}

theorem assignPairs_cons {pair : RpcReqEntry} {assign : Record → Except Fault Record}
    (known : field pair.key pair.value = some assign) :
    assignPairs field (pair :: rest) record = .ok result ↔
      ∃ next, assign record = .ok next ∧ assignPairs field rest next = .ok result := by
  rw [assignPairs, known]
  exact bind_ok_iff

theorem assignPairs_text (set : Record → Bytes → Record) (size : Nat)
    (known : field key (pointer text) = some fun record =>
      return set record (← strncpy (pointer text) size)) :
    assignPairs field (entryOf (key, text) :: rest) record = .ok result ↔
      text ≠ [] ∧ assignPairs field rest (set record ((cstring text).take size)) = .ok result := by
  rw [assignPairs_cons known]
  simp only [bind_ok_iff, strncpy_ok, pure, Except.pure, Except.ok.injEq]
  constructor
  · rintro ⟨_, ⟨_, ⟨sent, rfl⟩, rfl⟩, done⟩
    exact ⟨sent, done⟩
  · rintro ⟨sent, done⟩
    exact ⟨_, ⟨_, ⟨sent, rfl⟩, rfl⟩, done⟩

theorem assignPairs_number (set : Record → Int → Record)
    (known : field key (pointer text) = some fun record =>
      return set record (← atoiAt (pointer text))) :
    assignPairs field (entryOf (key, text) :: rest) record = .ok result ↔
      text ≠ [] ∧ assignPairs field rest (set record (atoi (cstring text))) = .ok result := by
  rw [assignPairs_cons known]
  simp only [bind_ok_iff, atoiAt_ok, pure, Except.pure, Except.ok.injEq]
  constructor
  · rintro ⟨_, ⟨_, ⟨sent, rfl⟩, rfl⟩, done⟩
    exact ⟨sent, done⟩
  · rintro ⟨sent, done⟩
    exact ⟨_, ⟨_, ⟨sent, rfl⟩, rfl⟩, done⟩

theorem assignPairs_decimal {number : Int} (set : Record → Int → Record)
    (known : field key (pointer (decimal number)) = some fun record =>
      return set record (← atoiAt (pointer (decimal number)))) :
    assignPairs field (entryOf (key, decimal number) :: rest) record = .ok result ↔
      assignPairs field rest (set record (toInt number)) = .ok result := by
  rw [assignPairs_number set known, cstring_of_clean (decimal_clean number), atoi_decimal]
  exact and_iff_right (decimal_ne_nil number)

end Fields

/-! ### Whole lists -/

theorem length_le_of_entries {Item Record : Type} {items : List Item} {records : List Record}
    (entries : ∀ (index : Nat) (item : Item), items[index]? = some item →
      ∃ record, records[index]? = some record) : items.length ≤ records.length := by
  by_contra longer
  have inside : records.length < items.length := Nat.lt_of_not_le longer
  obtain ⟨record, found⟩ := entries _ _ (List.getElem?_eq_getElem inside)
  rw [List.getElem?_length] at found
  cases found

/-- What a list function gives back; the pointers behind the records are NULL. -/
structure Listing (Record : Type) where
  status : McStatus
  records : List Record
  count : Int

/-- `xcalloc(1, count * sizeof(..))` for an array of pointers: its size is an `int`, and a negative
one is cleared far beyond any block. -/
def xcallocPointers (pointerSize : Nat) (count : Int) : Except Fault Nat :=
  let size := narrow 32 (count * pointerSize)
  if size < 0 then .error .outOfBounds else .ok (size.toNat / pointerSize)

theorem xcallocPointers_ok {pointerSize : Nat} {count : Int} (some_ : 0 < pointerSize) (positive : 0 ≤ count)
    (fits : Fits 32 (count * pointerSize)) : xcallocPointers pointerSize count = .ok count.toNat := by
  have size := narrow_of_fits fits (by decide)
  have grows : 0 ≤ count * pointerSize := Int.mul_nonneg positive (Int.natCast_nonneg _)
  have whole : (count * pointerSize).toNat / pointerSize = count.toNat := by
    rw [Int.toNat_mul positive (Int.natCast_nonneg _), Int.toNat_natCast]
    exact Nat.mul_div_cancel _ some_
  rw [xcallocPointers, size]
  change (if _ then _ else _) = _
  rw [if_neg (Int.not_lt.mpr grows), whole]

theorem xcallocPointers_error {pointerSize : Nat} {count : Int} {fault : Fault}
    (failed : xcallocPointers pointerSize count = .error fault) : fault = .outOfBounds := by
  unfold xcallocPointers at failed
  dsimp only at failed
  split at failed
  · cases failed
    rfl
  · cases failed

theorem xcallocPointers_room {pointerSize allocated : Nat} {count : Int}
    (done : xcallocPointers pointerSize count = .ok allocated) : allocated * pointerSize < 2 ^ 31 := by
  have high := (@narrow_fits 32 (count * pointerSize)).2
  unfold xcallocPointers at done
  dsimp only at done
  split at done
  · cases done
  · obtain rfl := Except.ok.inj done
    calc (narrow 32 (count * pointerSize)).toNat / pointerSize * pointerSize
        ≤ (narrow 32 (count * pointerSize)).toNat := Nat.div_mul_le_self _ _
      _ < 2 ^ 31 := by omega

/-- A list function from the answer of `rpc_request_ok` on, with its loop. -/
def mcList {Record : Type} (pointerSize : Nat) (loop : Nat → RpcReq → Except Fault (List Record))
    (req : Option RpcReq) : Except Fault (Listing Record) :=
  match req with
  | none => .ok ⟨.serverNotResponse, [], 0⟩
  | some pairs =>
    let rid := checkRid req "rid"
    if rid = 0 then
      let count := checkRid req "count"
      if count = 0 then .ok ⟨.ok, [], 0⟩
      else do
        let allocated ← xcallocPointers pointerSize count
        let records ← loop allocated pairs
        return ⟨.ok, records, count⟩
    else if rid = -1 then .ok ⟨.noPermission, [], 0⟩
    else if rid = -255 then .ok ⟨.syntaxError, [], 0⟩
    else if rid = -300 then .ok ⟨.sessionExpired, [], 0⟩
    else .ok ⟨.internalError, [], 0⟩

def listReply {Item : Type} (items : List Item) (pairsOf : Item → Reply) : Reply :=
  rid 0 ++ [(ascii "count", decimal items.length)] ++ items.flatMap pairsOf

section Items
variable {Item Record : Type} {start : Option Bytes → Except Fault Record} {field : FieldOf Record}
  {pairsOf : Item → Reply} {arrived : Item → Record} {Sent : Item → Prop} {items : List Item}

theorem parserAddAll_listReply (clean : ∀ item ∈ items, ∀ pair ∈ pairsOf item, 0 ∉ pair.1) :
    parserAddAll (listReply items pairsOf) = .ok ((listReply items pairsOf).map entryOf) := by
  apply parserAddAll_ok
  intro pair member
  rcases List.mem_append.mp member with head | listed
  · rcases List.mem_pair.mp head with rfl | rfl
    · exact (by decide : 0 ∉ ascii "rid")
    · exact (by decide : 0 ∉ ascii "count")
  · obtain ⟨item, known, inside⟩ := List.mem_flatMap.mp listed
    exact clean item known pair inside

theorem checkRid_count (items : List Item) (pairsOf : Item → Reply) :
    checkRid (some ((listReply items pairsOf).map entryOf)) "count" = toInt items.length := by
  have found : checkRid (some ((listReply items pairsOf).map entryOf)) "count" =
      atoi (((pointer (decimal items.length)).map cstring).getD (ascii "-256")) := rfl
  rw [found, pointer, if_neg (decimal_ne_nil _), Option.map_some, Option.getD_some,
    cstring_of_clean (decimal_clean _), atoi_decimal]

theorem mcList_listReply (pointerSize : Nat) (items : List Item) (pairsOf : Item → Reply) :
    mcList pointerSize (fun count pairs => recordLoop start field count pairs [])
        (some ((listReply items pairsOf).map entryOf)) =
      if toInt items.length = 0 then .ok ⟨.ok, [], 0⟩
      else do
        let allocated ← xcallocPointers pointerSize (toInt items.length)
        let records ← recordLoop start field allocated ((items.flatMap pairsOf).map entryOf) []
        return ⟨.ok, records, toInt items.length⟩ := by
  have accepted : checkRid (some ((listReply items pairsOf).map entryOf)) "rid" = 0 := rfl
  simp only [mcList, accepted, if_true, checkRid_count]
  rfl

variable (each : ∀ item ∈ items, ∀ count rest (records result : List Record), records.length < count →
  (recordLoop start field count ((pairsOf item).map entryOf ++ rest) records = .ok result ↔
    Sent item ∧ recordLoop start field count rest (records ++ [arrived item]) = .ok result))
include each

theorem recordLoop_items {count : Nat} {records result : List Record}
    (room : records.length + items.length ≤ count) :
    recordLoop start field count ((items.flatMap pairsOf).map entryOf) records = .ok result ↔
      (∀ item ∈ items, Sent item) ∧ records ++ items.map arrived = result := by
  induction items generalizing records with
  | nil =>
    rw [List.map_nil, List.append_nil]
    change Except.ok records = .ok result ↔ _
    rw [Except.ok.injEq]
    exact ⟨fun same => ⟨fun _ member => absurd member List.not_mem_nil, same⟩, And.right⟩
  | cons item rest ih =>
    rw [List.length_cons] at room
    have later : (records ++ [arrived item]).length + rest.length ≤ count := by
      rw [List.length_append, List.length_singleton]
      omega
    have one := each item List.mem_cons_self count ((rest.flatMap pairsOf).map entryOf) records result
      (by omega)
    rw [List.flatMap_cons, List.map_append, one,
      ih (fun other member => each other (List.mem_cons_of_mem _ member)) later, List.append_assoc,
      List.forall_mem_cons, and_assoc]
    rfl

/-- A whole list arrives exactly if its array has an `int` size and each item is sent. -/
theorem mcList_items (pointerSize : ℕ+) (listing : Listing Record) :
    mcList pointerSize (fun count pairs => recordLoop start field count pairs [])
        (some ((listReply items pairsOf).map entryOf)) = .ok listing ∧
        listing.count = items.length ∧ items.length ≤ listing.records.length ↔
      (items.length * pointerSize < 2 ^ 31 ∧ ∀ item ∈ items, Sent item) ∧
        listing = ⟨.ok, items.map arrived, items.length⟩ := by
  have looped : ∀ allocated result, items.length ≤ allocated →
      (recordLoop start field allocated ((items.flatMap pairsOf).map entryOf) [] = .ok result ↔
        (∀ item ∈ items, Sent item) ∧ items.map arrived = result) := by
    intro allocated result room
    apply recordLoop_items each
    rwa [List.length_nil, Nat.zero_add]
  rw [mcList_listReply]
  constructor
  · rintro ⟨done, count, whole⟩
    split at done
    · obtain rfl := Except.ok.inj done
      obtain rfl := List.eq_nil_of_length_eq_zero (Int.ofNat_eq_zero.mp count.symm)
      refine ⟨⟨?_, fun _ member => absurd member List.not_mem_nil⟩, rfl⟩
      rw [List.length_nil, Nat.zero_mul]
      exact Nat.two_pow_pos 31
    · obtain ⟨allocated, size, done⟩ := bind_ok done
      obtain ⟨received, ended, done⟩ := bind_ok done
      obtain rfl := Except.ok.inj done
      dsimp only at count whole
      have room : items.length ≤ allocated := whole.trans (recordLoop_length (Nat.zero_le _) ended)
      obtain ⟨sent, rfl⟩ := (looped _ _ room).mp ended
      have few : items.length * pointerSize < 2 ^ 31 :=
        (Nat.mul_le_mul_right _ room).trans_lt (xcallocPointers_room size)
      rw [count]
      exact ⟨⟨few, sent⟩, rfl⟩
  · rintro ⟨⟨few, sent⟩, rfl⟩
    have number : items.length ≤ items.length * pointerSize :=
      Nat.le_mul_of_pos_right _ pointerSize.pos
    refine ⟨?_, rfl, (List.length_map _).ge⟩
    rw [toInt_of_isInt ⟨by omega, by omega⟩]
    split
    · rename_i none
      rw [List.eq_nil_of_length_eq_zero (Int.ofNat_eq_zero.mp none)]
      rfl
    · have fits : Fits 32 ((items.length : Int) * (pointerSize : Nat)) := by
        rw [← Int.natCast_mul]
        exact ⟨by omega, by omega⟩
      rw [xcallocPointers_ok pointerSize.pos (Int.natCast_nonneg _) fits, Int.toNat_natCast]
      have arrive := (looped items.length _ le_rfl).mpr ⟨sent, rfl⟩
      change (recordLoop start field items.length _ [] >>= _) = _
      rw [arrive]
      rfl

end Items

/-- The records of a list come from its loop, if there are any. -/
theorem mcList_records {Record : Type} {pointerSize : Nat}
    {loop : Nat → RpcReq → Except Fault (List Record)} {req : Option RpcReq} {listing : Listing Record}
    (done : mcList pointerSize loop req = .ok listing) :
    listing.records = [] ∨ ∃ count pairs, loop count pairs = .ok listing.records := by
  have nothing : ∀ {status},
      (.ok ⟨status, [], 0⟩ : Except Fault (Listing Record)) = .ok listing → listing.records = [] :=
    fun same => by rw [← Except.ok.inj same]
  unfold mcList at done
  split at done
  · exact .inl (nothing done)
  · rename_i pairs
    dsimp only at done
    split at done
    · split at done
      · exact .inl (nothing done)
      · obtain ⟨_, _, done⟩ := bind_ok done
        obtain ⟨records, looped, done⟩ := bind_ok done
        obtain rfl := Except.ok.inj done
        exact .inr ⟨_, _, looped⟩
    · split at done
      · exact .inl (nothing done)
      · split at done
        · exact .inl (nothing done)
        · split at done
          · exact .inl (nothing done)
          · exact .inl (nothing done)

end Livezure.Client
