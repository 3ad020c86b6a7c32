import Livezure.Client.Records
import Livezure.Db.HashKey
import Livezure.Rpc.Appends
import Livezure.Rpc.Lookup

/-! Pairs of a key and a text on their way: `rpc_keypair_append` with the size -1 on one side,
`rpc_parser_new` and `rpc_parser_get` on the other. -/
namespace Livezure.Client
open Livezure.Core Db Rpc Service

/-- `rpc_keypair_append` for each pair in order, on the memories of a key and of a text with
their NULs. -/
def keypairAppendTexts (buffer : Option RpcBuffer) :
    List (Bytes × Bytes) → Except Fault (Option RpcBuffer)
  | [] => .ok buffer
  | pair :: rest => do
    let buffer ← rpcKeypairAppend buffer (pair.1 ++ [0]) (pair.2 ++ [0]) (-1)
    keypairAppendTexts (some buffer) rest

/-- A key that is found again in front of its separator. -/
structure TextPair (pair : Bytes × Bytes) : Prop where
  key_clean : 0 ∉ pair.1
  uncoloned : 58 ∉ pair.1

instance (pair : Bytes × Bytes) : Decidable (TextPair pair) :=
  decidable_of_iff (0 ∉ pair.1 ∧ 58 ∉ pair.1) ⟨fun both => ⟨both.1, both.2⟩, fun pair => ⟨pair.1, pair.2⟩⟩

/-- The texts end at their first NUL. -/
def cTexts (pairs : List (Bytes × Bytes)) : List (Bytes × Bytes) := pairs.map fun pair => (pair.1, cstring pair.2)

def pairContent (pair : Bytes × Bytes) : Bytes := pair.1 ++ divide ++ pair.2

def pairFrame (pair : Bytes × Bytes) : Bytes :=
  leBytes sizeofSize (pairContent pair).length ++ pairContent pair

/-! ### Appending -/

theorem pairContent_ne (pair : Bytes × Bytes) : pairContent pair ≠ [] := by
  simp [pairContent, divide, ascii]

theorem pairFrame_length (pair : Bytes × Bytes) :
    (pairFrame pair).length = sizeofSize + (pairContent pair).length := by
  rw [pairFrame, List.length_append, leBytes_length]

section Appending
variable {pair : Bytes × Bytes}

private theorem item_text (text : Bytes) {size : Int} (unsized : size ≤ 0) :
    item (text ++ [0]) size = cstring text := by
  rw [item, if_pos unsized, cstring_last]

private theorem givenItem_text {text : Bytes} (short : (cstring text).length < 2 ^ 31) {size : Int}
    (unsized : size ≤ 0) : GivenItem (text ++ [0]) size where
  terminated _ := by simp
  present := by rw [List.length_append]; omega
  counted := by rw [item_text text unsized]; exact short

private theorem rpcKeypairAppend_text (texts : TextPair pair)
    (short : (pairContent (pair.1, cstring pair.2)).length < 2 ^ 31) (buffer : Option RpcBuffer) :
    rpcKeypairAppend buffer (pair.1 ++ [0]) (pair.2 ++ [0]) (-1) =
      appendItem buffer (pairContent (pair.1, cstring pair.2)) := by
  have length : (pairContent (pair.1, cstring pair.2)).length =
      pair.1.length + divide.length + (cstring pair.2).length := by
    rw [pairContent, List.length_append, List.length_append]
  have key : cstring pair.1 = pair.1 := cstring_of_clean texts.key_clean
  rw [rpcKeypairAppend_item (givenItem_text (by rw [key]; omega) (Int.le_refl 0))
    (givenItem_text (by omega) (by decide)), item_text _ (Int.le_refl 0), item_text _ (by decide), key,
    pairContent]

private theorem appendItem_bytes {buffer : Option RpcBuffer} {bytes : Bytes} {after : RpcBuffer}
    (done : appendItem buffer bytes = .ok after) :
    after.bytes = (buffer.map RpcBuffer.bytes).getD [] ++ (leBytes sizeofSize bytes.length ++ bytes) := by
  rw [RpcBuffer.refill_bytes done, List.append_assoc]
  cases buffer with
  | none => rfl
  | some buffer => rfl

end Appending

theorem keypairAppendTexts_bytes {buffer result : Option RpcBuffer} {pairs : List (Bytes × Bytes)}
    (texts : ∀ pair ∈ pairs, TextPair pair)
    (short : ∀ pair ∈ cTexts pairs, (pairContent pair).length < 2 ^ 31)
    (done : keypairAppendTexts buffer pairs = .ok result) :
    (result.map RpcBuffer.bytes).getD [] =
      (buffer.map RpcBuffer.bytes).getD [] ++ (cTexts pairs).flatMap pairFrame ∧
    (pairs ≠ [] → result ≠ none) := by
  induction pairs generalizing buffer with
  | nil =>
    obtain rfl := Except.ok.inj done
    exact ⟨by simp [cTexts], fun present => absurd rfl present⟩
  | cons pair rest ih =>
    obtain ⟨next, appended, done⟩ := bind_ok done
    rw [rpcKeypairAppend_text (texts pair List.mem_cons_self) (short _ List.mem_cons_self)] at appended
    obtain ⟨bytes, filled⟩ := ih (fun other member => texts other (List.mem_cons_of_mem _ member))
      (fun other member => short other (List.mem_cons_of_mem _ member)) done
    constructor
    · rw [bytes, Option.map_some, Option.getD_some, appendItem_bytes appended, List.append_assoc]
      rfl
    · intro _
      cases rest with
      | nil =>
        rw [← Except.ok.inj done]
        exact Option.some_ne_none next
      | cons other more => exact filled (List.cons_ne_nil _ _)

/-! ### Parsing -/

/-- The entries that a parsed body has; the memory behind the last pair is the tail. -/
def storedTexts (tail : Bytes) : List (Bytes × Bytes) → RpcReq
  | [] => []
  | pair :: rest =>
    ⟨cstring (pairContent pair ++ rest.flatMap pairFrame ++ tail), pointer pair.2, pair.2.length⟩ ::
      storedTexts tail rest

section Parsing
variable {tail : Bytes} {pair : Bytes × Bytes} (texts : TextPair pair)
include texts

theorem TextPair.cstring_front (more : Bytes) :
    cstring (pair.1 ++ divide ++ more) = pair.1 ++ divide ++ cstring more := by
  apply cstring_append
  intro member
  rcases List.mem_append.mp member with inKey | inDivide
  · exact texts.key_clean inKey
  · exact absurd inDivide (by decide)

theorem TextPair.separator (more : Bytes) : separator (pairFrame pair ++ more) = some pair.1.length := by
  rw [Rpc.separator, pairFrame, List.append_assoc, List.drop_left' (by simp), pairContent,
    List.append_assoc, texts.cstring_front, strstr_divide texts.uncoloned]

theorem TextPair.parsed {buffer : RpcBuffer} {position : Nat} {more : Bytes}
    (short : (pairContent pair).length < 2 ^ 31) (inside : position ≤ buffer.chunkUsed)
    (rest : buffer.rest position = pairFrame pair ++ more) (behind : buffer.tail = tail) :
    rpcKeypairNext (buffer.seek position) = .ok (buffer.seek (position + (pairFrame pair).length : Nat),
      some (pairContent pair ++ more ++ tail, pair.2 ++ more ++ tail, (pair.2.length : Int))) := by
  have memory : buffer.rest position ++ buffer.tail = pairFrame pair ++ (more ++ tail) := by
    rw [rest, behind, List.append_assoc]
  have announced : announced (pairFrame pair ++ (more ++ tail)) = ((pairContent pair).length : Nat) :=
    announced_sized short _
  obtain ⟨framed, _, after⟩ := Framed.of_content inside rest (pairContent_ne pair) short
  rw [← pairFrame_length] at after
  have start : (pairFrame pair ++ (more ++ tail)).drop sizeofSize =
      pair.1 ++ divide ++ (pair.2 ++ more ++ tail) := by
    rw [pairFrame, List.append_assoc, List.drop_left' (by simp), pairContent]
    simp only [List.append_assoc]
  have value : (pair.1 ++ divide ++ (pair.2 ++ more ++ tail)).drop (pair.1.length + divide.length) =
      pair.2 ++ more ++ tail :=
    List.drop_left' (by simp)
  have content : (pairContent pair).length = pair.1.length + divide.length + pair.2.length := by
    rw [pairContent, List.length_append, List.length_append]
  have left : ((pairContent pair).length : Int) - pair.1.length - divide.length = pair.2.length := by
    omega
  rw [framed.keypair, memory, texts.separator, after]
  simp only [start, value, announced, left]
  simp only [pairContent, List.append_assoc]

end Parsing

private theorem rpcParserAdd_text {tail : Bytes} (ended : 0 ∈ tail) (req : RpcReq) (pair : Bytes × Bytes)
    (more : Bytes) :
    rpcParserAdd req (pairContent pair ++ more ++ tail) (pair.2 ++ more ++ tail) pair.2.length = .ok (req ++
      [⟨cstring (pairContent pair ++ more ++ tail), pointer pair.2, pair.2.length⟩]) := by
  have known : ¬ (pair.2.length : Int) < 0 := by omega
  have terminated : 0 ∈ pairContent pair ++ more ++ tail := List.mem_append_right _ ended
  generalize pairContent pair ++ more ++ tail = memory at terminated ⊢
  have key : slice memory 0 (cstring memory).length = .ok (cstring memory) := by
    have front : cstring memory <+: memory := List.takeWhile_prefix _
    rw [slice_ok (by rw [Nat.zero_add]; exact front.length_le), List.drop_zero,
      ← List.prefix_iff_eq_take.mp front]
  simp only [rpcParserAdd, strlen, if_pos terminated, bind, Except.bind, key, sizeOr_known known,
    List.append_assoc, slice_front, pure, Except.pure, List.length_eq_zero_iff, pointer]
  split
  · rename_i empty
    rw [empty]
    rfl
  · rfl

theorem frames_length (pairs : List (Bytes × Bytes)) :
    pairs.length ≤ (pairs.flatMap pairFrame).length := by
  induction pairs with
  | nil => exact Nat.le_refl 0
  | cons pair rest ih =>
    have size : sizeofSize = 4 := rfl
    rw [List.flatMap_cons, List.length_append, pairFrame_length, List.length_cons]
    omega

private theorem rpcParserLoop_texts {buffer : RpcBuffer} {tail : Bytes} {pairs : List (Bytes × Bytes)}
    (position : Nat) (behind : buffer.tail = tail) (ended : 0 ∈ tail)
    (texts : ∀ pair ∈ pairs, TextPair pair)
    (short : ∀ pair ∈ pairs, (pairContent pair).length < 2 ^ 31)
    (inside : position ≤ buffer.chunkUsed) (rest : buffer.rest position = pairs.flatMap pairFrame)
    (enough : pairs.length < fuel) (req : RpcReq) :
    rpcParserLoop fuel (buffer.seek position) req = .ok (req ++ storedTexts tail pairs) := by
  induction pairs generalizing position fuel req with
  | nil =>
    have unframed : ¬ Framed buffer position := by
      intro framed
      have impossible := framed.enough
      rw [rest] at impossible
      cases impossible
    obtain ⟨fuel, rfl⟩ := Nat.exists_eq_succ_of_ne_zero (Nat.ne_of_gt enough)
    rcases rpcKeypairNext_unframed inside unframed with ⟨next, _⟩ | ⟨_, impossible, _⟩
    · simp only [rpcParserLoop, next, bind, Except.bind, pure, Except.pure, storedTexts, List.append_nil]
    · rw [rest] at impossible
      cases impossible
  | cons pair pairs ih =>
    obtain ⟨fuel, rfl⟩ := Nat.exists_eq_succ_of_ne_zero (Nat.ne_of_gt (Nat.zero_lt_of_lt enough))
    rw [List.flatMap_cons] at rest
    have length := rest_length inside
    rw [rest, List.length_append] at length
    have later := ih (position + (pairFrame pair).length)
      (fun other member => texts other (List.mem_cons_of_mem _ member))
      (fun other member => short other (List.mem_cons_of_mem _ member)) (by omega)
      (by rw [RpcBuffer.rest, ← List.drop_drop, ← RpcBuffer.rest, rest, List.drop_left])
      (Nat.lt_of_succ_lt_succ enough)
    simp only [rpcParserLoop,
      (texts pair List.mem_cons_self).parsed (short pair List.mem_cons_self) inside rest behind,
      rpcParserAdd_text ended, bind, Except.bind]
    rw [later, storedTexts, List.append_assoc]
    rfl

/-- What a receiver parses from the bytes that were appended, wherever the next NUL is. -/
theorem rpcParserNew_texts {buffer : RpcBuffer} {pairs : List (Bytes × Bytes)}
    (bytes : buffer.bytes = pairs.flatMap pairFrame) (ended : 0 ∈ buffer.tail)
    (texts : ∀ pair ∈ pairs, TextPair pair)
    (short : ∀ pair ∈ pairs, (pairContent pair).length < 2 ^ 31) :
    rpcParserNew (some buffer) = .ok (some (storedTexts buffer.tail pairs)) := by
  have count := frames_length pairs
  rw [← bytes, RpcBuffer.bytes_length] at count
  exact congrArg (some <$> ·) (rpcParserLoop_texts 0 rfl ended texts short (Nat.zero_le _)
    bytes (Nat.lt_succ_of_le count) [])

/-! ### Looking up -/

/-- `rpc_parser_get` makes no difference between pairs that were received and the same pairs added
by `rpc_parser_add`. -/
theorem rpcParserGet_stored {pairs : List (Bytes × Bytes)} (texts : ∀ pair ∈ pairs, TextPair pair)
    (tail : Bytes) {key : Bytes} (uncoloned : 58 ∉ key) :
    (rpcParserGet (some (storedTexts tail pairs)) key).bind RpcReqEntry.value =
      (rpcParserGet (some (pairs.map entryOf)) key).bind RpcReqEntry.value := by
  unfold rpcParserGet
  rw [Option.getD_some, Option.getD_some]
  induction pairs with
  | nil => rfl
  | cons pair rest ih =>
    have own := texts pair List.mem_cons_self
    have later := ih fun other member => texts other (List.mem_cons_of_mem _ member)
    have front := own.cstring_front (pair.2 ++ rest.flatMap pairFrame ++ tail)
    simp only [← List.append_assoc] at front
    rw [storedTexts, List.map_cons]
    by_cases same : key <+: pair.1
    · have received : key.isPrefixOf (cstring (pairContent pair ++ rest.flatMap pairFrame ++ tail)) = true := by
        rw [List.isPrefixOf_iff_prefix, pairContent, front, List.append_assoc]
        exact same.trans (List.prefix_append _ _)
      have added : key.isPrefixOf (entryOf pair).key = true := List.isPrefixOf_iff_prefix.mpr same
      rw [List.find?_cons_of_pos (p := fun entry : RpcReqEntry => key.isPrefixOf entry.key) received,
        List.find?_cons_of_pos (p := fun entry : RpcReqEntry => key.isPrefixOf entry.key) added]
      rfl
    · have received : key.isPrefixOf (cstring (pairContent pair ++ rest.flatMap pairFrame ++ tail)) = false := by
        rw [Bool.eq_false_iff, ne_eq, List.isPrefixOf_iff_prefix, pairContent, front]
        exact fun longer => same (prefix_of_stored uncoloned longer)
      have added : key.isPrefixOf (entryOf pair).key = false := by
        rw [Bool.eq_false_iff, ne_eq, List.isPrefixOf_iff_prefix]
        exact same
      simp only [List.find?_cons, received, added]
      exact later

/-- A request that holds the pairs; no pairs are sent as no body. -/
def addedReq (pairs : List (Bytes × Bytes)) : Option RpcReq :=
  if pairs = [] then none else some ((cTexts pairs).map entryOf)

def receivedReq (tail : Bytes) (pairs : List (Bytes × Bytes)) : Option RpcReq :=
  if pairs = [] then none else some (storedTexts tail (cTexts pairs))

theorem cTexts_texts {pairs : List (Bytes × Bytes)} (texts : ∀ pair ∈ pairs, TextPair pair) :
    ∀ pair ∈ cTexts pairs, TextPair pair := by
  intro pair member
  obtain ⟨origin, inside, rfl⟩ := List.mem_map.mp member
  exact ⟨(texts origin inside).key_clean, (texts origin inside).uncoloned⟩

/-- Two requests that give the same text for every key without a colon. -/
def SameTexts (left right : Option RpcReq) : Prop :=
  ∀ key : String, 58 ∉ ascii key → parserGet left key = parserGet right key

theorem received_same {pairs : List (Bytes × Bytes)} (texts : ∀ pair ∈ pairs, TextPair pair)
    (tail : Bytes) : SameTexts (receivedReq tail pairs) (addedReq pairs) := by
  intro key uncoloned
  unfold receivedReq addedReq
  split
  · rfl
  · exact congrArg (Option.map cstring) (rpcParserGet_stored (cTexts_texts texts) tail uncoloned)

/-- A key that came over a connection runs on: it is none of the keys of the program. -/
theorem storedTexts_key {pairs : List (Bytes × Bytes)} (texts : ∀ pair ∈ pairs, TextPair pair)
    {tail : Bytes} {entry : RpcReqEntry} (member : entry ∈ storedTexts tail pairs) : 58 ∈ entry.key := by
  induction pairs with
  | nil => cases member
  | cons pair rest ih =>
    rcases List.mem_cons.mp member with rfl | later
    · have front := (texts pair List.mem_cons_self).cstring_front (pair.2 ++ rest.flatMap pairFrame ++ tail)
      simp only [← List.append_assoc] at front
      rw [pairContent, front]
      simp [divide, ascii]
    · exact ih (fun other member => texts other (List.mem_cons_of_mem _ member)) later

end Livezure.Client
