import Livezure.Rpc.Frames

/-! What `rpc_parser_get` finds: in requests parsed from encoded pairs, whose keys run on
behind the keys that were sent, and in requests made by `rpc_parser_add`. -/
namespace Livezure.Rpc
open Livezure.Core

/-! ### Requests parsed from encoded pairs -/

/-- A pair whose key has no colon, and whose frame has a size that is an `rpc_size_t`. -/
structure KeyPair.Plain (pair : KeyPair) : Prop where
  uncoloned : 58 ∉ pair.key
  sized : (pair.key ++ divide ++ pair.value).length < 2 ^ 31

/-- A buffer with more room behind its bytes. -/
def RpcBuffer.widen (buffer : RpcBuffer) (room : Nat) : RpcBuffer :=
  { buffer with
    chunkSize := buffer.chunkSize + room
    chunk_le := Nat.le_trans buffer.chunk_le (Nat.le_add_right _ _) }

/-- `encodePairs`, where each buffer has more room before a pair is appended to it. -/
def encodePairsIn (room : Nat) (buffer : Option RpcBuffer) :
    List KeyPair → Except Fault (Option RpcBuffer)
  | [] => .ok buffer
  | pair :: rest => do
    let buffer ← rpcKeypairAppend (buffer.map fun buffer => buffer.widen room) (pair.key ++ [0])
      pair.value pair.value.length
    encodePairsIn room (some buffer) rest

/-- The entries that a parsed body has: each key runs on to the next NUL. -/
def storedEntries : List KeyPair → RpcReq
  | [] => []
  | pair :: rest =>
    ⟨cstring (pair.key ++ divide ++ pair.value ++ rest.flatMap KeyPair.frame ++ [0]), some pair.value,
      pair.value.length⟩ :: storedEntries rest

theorem RpcBuffer.refill_room {chunk bytes : Bytes} {chunkSize : Nat} (position : Int)
    (room : bytes.length ≤ chunkSize) (within : chunk.length ≤ chunkSize) :
    ∃ result, RpcBuffer.refill chunk chunkSize position bytes = .ok result := by
  rw [RpcBuffer.refill, dif_pos ⟨room, within⟩]
  exact ⟨_, rfl⟩

/-- `rpc_buffer_append` to a chunk with room for the size and the bytes. -/
theorem rpcBufferAppend_fits {buffer : Option RpcBuffer} {content : Bytes} (nonempty : content ≠ [])
    (fits : (buffer.getD (.fresh content.length)).chunkUsed + sizeofSize + content.length ≤
      (buffer.getD (.fresh content.length)).chunkSize) :
    ∃ result, rpcBufferAppend buffer content content.length = .ok result := by
  have positive : 0 < content.length := List.length_pos_iff.mpr nonempty
  have sized : ¬ (content.length : Int) ≤ 0 := by omega
  simp only [rpcBufferAppend, sizeOr_known sized, bind, Except.bind, slice_whole]
  generalize buffer.getD (.fresh content.length) = buffer at fits ⊢
  have full : ¬ buffer.chunkUsed + content.length > buffer.chunkSize := by omega
  simp only [if_neg full]
  apply RpcBuffer.refill_room
  · rw [List.length_append, List.length_append, leBytes_length, RpcBuffer.bytes_length]
    exact fits
  · exact buffer.chunk_le

theorem rpcBufferAppend_in (buffer : Option RpcBuffer) {content : Bytes} (nonempty : content ≠ [])
    (enough : sizeofSize + content.length ≤ room) :
    ∃ result, rpcBufferAppend (buffer.map fun buffer => buffer.widen room) content content.length =
      .ok result := by
  apply rpcBufferAppend_fits nonempty
  cases buffer with
  | none =>
    simp only [Option.map_none, Option.getD_none, RpcBuffer.fresh, sizeofSize, rpcBufferDefGrowSize]
    omega
  | some buffer =>
    have used := Nat.le_trans buffer.used_le buffer.chunk_le
    simp only [Option.map_some, Option.getD_some, RpcBuffer.widen]
    omega

private theorem rpcKeypairAppend_in (buffer : Option RpcBuffer) {pair : KeyPair}
    (enough : pair.frame.length ≤ room) :
    ∃ result, rpcKeypairAppend (buffer.map fun buffer => buffer.widen room) (pair.key ++ [0])
      pair.value pair.value.length = .ok result ∧
        result.bytes = (buffer.map RpcBuffer.bytes).getD [] ++ pair.frame := by
  have positive : 0 < pair.value.length := List.length_pos_iff.mpr pair.value_ne
  have sized : ¬ (pair.value.length : Int) ≤ 0 := by omega
  rw [KeyPair.frame, List.length_append, leBytes_length] at enough
  have nonempty : pair.key ++ divide ++ pair.value ≠ [] := by simp [divide, ascii]
  obtain ⟨result, appended⟩ := rpcBufferAppend_in buffer nonempty enough
  have done : rpcKeypairAppend (buffer.map fun buffer => buffer.widen room) (pair.key ++ [0])
      pair.value pair.value.length = .ok result := by
    simp only [rpcKeypairAppend, strlen_terminated pair.key_clean, sizeOr_known sized, bind,
      Except.bind, slice_front, slice_whole]
    exact appended
  refine ⟨result, done, ?_⟩
  have bytes := rpcKeypairAppend_bytes done
  cases buffer <;> exact bytes

theorem encodePairsIn_ok (buffer : Option RpcBuffer) {pairs : List KeyPair}
    (enough : ∀ pair ∈ pairs, pair.frame.length ≤ room) :
    ∃ result, encodePairsIn room buffer pairs = .ok result ∧
      (result.map RpcBuffer.bytes).getD [] =
        (buffer.map RpcBuffer.bytes).getD [] ++ pairs.flatMap KeyPair.frame := by
  induction pairs generalizing buffer with
  | nil => exact ⟨buffer, rfl, by simp⟩
  | cons pair rest ih =>
    obtain ⟨next, appended, bytes⟩ := rpcKeypairAppend_in buffer
      (enough pair List.mem_cons_self)
    obtain ⟨result, done, whole⟩ := ih (some next)
      fun other member => enough other (List.mem_cons_of_mem _ member)
    refine ⟨result, ?_, ?_⟩
    · simp only [encodePairsIn, appended, bind, Except.bind]
      exact done
    · rw [whole, Option.map_some, Option.getD_some, bytes, List.flatMap_cons, List.append_assoc]

/-- The separator behind a key without a colon is the first one. -/
theorem strstr_divide {key more : Bytes} (uncoloned : 58 ∉ key) :
    strstr divide (key ++ divide ++ more) = some key.length := by
  induction key with
  | nil =>
    have here : divide <+: divide ++ more := List.prefix_append _ _
    change strstr divide (58 :: (32 :: more)) = some 0
    rw [strstr]
    exact if_pos here
  | cons byte key ih =>
    obtain ⟨other, later⟩ := not_or.mp (mt List.mem_cons.mpr uncoloned)
    have elsewhere : ¬ divide <+: byte :: (key ++ divide ++ more) := by
      intro here
      exact other (List.cons_prefix_cons.mp here).1
    rw [List.cons_append, List.cons_append, strstr, if_neg elsewhere, ih later, List.length_cons]
    rfl

/-- The key and its separator are in front of the first NUL. -/
theorem KeyPair.cstring_front (pair : KeyPair) (more : Bytes) :
    cstring (pair.key ++ divide ++ more) = pair.key ++ divide ++ cstring more := by
  apply cstring_append
  intro member
  rcases List.mem_append.mp member with inKey | inDivide
  · exact pair.key_clean inKey
  · exact absurd inDivide (by decide)

section Frame
variable {pair : KeyPair} (plain : pair.Plain)
include plain

theorem KeyPair.Plain.announced (more : Bytes) :
    announced (pair.frame ++ more) = ((pair.key ++ divide ++ pair.value).length : Nat) :=
  announced_sized plain.sized more

theorem KeyPair.Plain.separator (more : Bytes) :
    separator (pair.frame ++ more) = some pair.key.length := by
  rw [Rpc.separator, KeyPair.frame, List.append_assoc, List.drop_left' (by simp),
    List.append_assoc, KeyPair.cstring_front, strstr_divide plain.uncoloned]

/-- A frame in front of others is parsed to its pair. -/
theorem KeyPair.Plain.parsed {buffer : RpcBuffer} {position : Nat} {more : Bytes}
    (inside : position ≤ buffer.chunkUsed) (rest : buffer.rest position = pair.frame ++ more)
    (tail : buffer.tail = [0]) :
    rpcKeypairNext (buffer.seek position) = .ok (buffer.seek (position + pair.frame.length : Nat),
      some (pair.key ++ divide ++ pair.value ++ more ++ [0], pair.value ++ more ++ [0],
        (pair.value.length : Int))) := by
  have memory : buffer.rest position ++ buffer.tail = pair.frame ++ (more ++ [0]) := by
    rw [rest, tail, List.append_assoc]
  have announced := plain.announced (more ++ [0])
  have frame : pair.frame.length = sizeofSize + (pair.key ++ divide ++ pair.value).length := by
    rw [KeyPair.frame, List.length_append, leBytes_length]
  have content : (pair.key ++ divide ++ pair.value).length =
      pair.key.length + divide.length + pair.value.length := by
    rw [List.length_append, List.length_append]
  have nonempty : pair.key ++ divide ++ pair.value ≠ [] := by simp [divide, ascii]
  obtain ⟨framed, _, behind⟩ := Framed.of_content inside rest nonempty plain.sized
  rw [← frame] at behind
  have start : (pair.frame ++ (more ++ [0])).drop sizeofSize =
      pair.key ++ divide ++ (pair.value ++ more ++ [0]) := by
    rw [KeyPair.frame, List.append_assoc, List.drop_left' (by simp)]
    simp only [List.append_assoc]
  have value : (pair.key ++ divide ++ (pair.value ++ more ++ [0])).drop
      (pair.key.length + divide.length) = pair.value ++ more ++ [0] :=
    List.drop_left' (by simp)
  rw [framed.keypair, memory, plain.separator, behind]
  simp only [start, value, announced]
  have left : ((pair.key ++ divide ++ pair.value).length : Int) - pair.key.length - divide.length =
      pair.value.length := by
    omega
  rw [left]
  simp only [List.append_assoc]

end Frame

private theorem rpcParserAdd_stored (req : RpcReq) (pair : KeyPair) (more : Bytes) :
    rpcParserAdd req (pair.key ++ divide ++ pair.value ++ more ++ [0]) (pair.value ++ more ++ [0])
      pair.value.length = .ok (req ++
        [⟨cstring (pair.key ++ divide ++ pair.value ++ more ++ [0]), some pair.value,
          pair.value.length⟩]) := by
  have positive : 0 < pair.value.length := List.length_pos_iff.mpr pair.value_ne
  have known : ¬ (pair.value.length : Int) < 0 := by omega
  have nonzero : ¬ pair.value.length = 0 := by omega
  have terminated : 0 ∈ pair.key ++ divide ++ pair.value ++ more ++ [0] := by simp
  generalize pair.key ++ divide ++ pair.value ++ more ++ [0] = memory at terminated ⊢
  have key : slice memory 0 (cstring memory).length = .ok (cstring memory) := by
    have front : cstring memory <+: memory := List.takeWhile_prefix _
    rw [slice_ok (by rw [Nat.zero_add]; exact front.length_le), List.drop_zero,
      ← List.prefix_iff_eq_take.mp front]
  simp only [rpcParserAdd, strlen, if_pos terminated, bind, Except.bind, key, sizeOr_known known,
    if_neg nonzero, List.append_assoc, slice_front, pure, Except.pure]

theorem KeyPair.frames_length (pairs : List KeyPair) :
    pairs.length ≤ (pairs.flatMap KeyPair.frame).length := by
  induction pairs with
  | nil => exact Nat.le_refl 0
  | cons pair rest ih =>
    have size : sizeofSize = 4 := rfl
    rw [List.flatMap_cons, List.length_append, KeyPair.frame, List.length_append, leBytes_length,
      List.length_cons]
    omega

/-- The loop of `rpc_parser_new` over the frames of encoded pairs. -/
theorem rpcParserLoop_pairs {buffer : RpcBuffer} {pairs : List KeyPair} (position : Nat)
    (tail : buffer.tail = [0]) (plain : ∀ pair ∈ pairs, pair.Plain)
    (inside : position ≤ buffer.chunkUsed)
    (rest : buffer.rest position = pairs.flatMap KeyPair.frame) (enough : pairs.length < fuel)
    (req : RpcReq) :
    rpcParserLoop fuel (buffer.seek position) req = .ok (req ++ storedEntries pairs) := by
  induction pairs generalizing position fuel req with
  | nil =>
    have unframed : ¬ Framed buffer position := by
      intro framed
      have impossible := framed.enough
      rw [rest] at impossible
      cases impossible
    obtain ⟨fuel, rfl⟩ := Nat.exists_eq_succ_of_ne_zero (Nat.ne_of_gt enough)
    rcases rpcKeypairNext_unframed inside unframed with ⟨next, _⟩ | ⟨_, impossible, _⟩
    · simp only [rpcParserLoop, next, bind, Except.bind, pure, Except.pure, storedEntries,
        List.append_nil]
    · rw [rest] at impossible
      cases impossible
  | cons pair pairs ih =>
    obtain ⟨fuel, rfl⟩ := Nat.exists_eq_succ_of_ne_zero (Nat.ne_of_gt (Nat.zero_lt_of_lt enough))
    have own := plain pair List.mem_cons_self
    rw [List.flatMap_cons] at rest
    have length := rest_length inside
    rw [rest, List.length_append] at length
    have later := ih (position + pair.frame.length)
      (fun other member => plain other (List.mem_cons_of_mem _ member)) (by omega)
      (by rw [RpcBuffer.rest, ← List.drop_drop, ← RpcBuffer.rest, rest, List.drop_left])
      (Nat.lt_of_succ_lt_succ enough)
    simp only [rpcParserLoop, own.parsed inside rest tail, rpcParserAdd_stored, bind, Except.bind]
    rw [later, storedEntries, List.append_assoc]
    rfl

/-- A key without a colon that starts a stored key starts the key that was sent. -/
theorem prefix_of_stored {key own more : Bytes} (uncoloned : 58 ∉ key)
    (longer : key <+: own ++ divide ++ more) : key <+: own := by
  rw [List.append_assoc] at longer
  rcases Nat.lt_or_ge own.length key.length with beyond | within
  · have colon : own ++ [58] <+: own ++ (divide ++ more) :=
      (List.prefix_append_right_inj own).mpr (List.prefix_append [58] (32 :: more))
    have inside : own ++ [58] <+: key :=
      List.prefix_of_prefix_length_le colon longer (by rw [List.length_append]; exact beyond)
    exact absurd (inside.subset (by simp)) uncoloned
  · exact List.prefix_of_prefix_length_le longer (List.prefix_append own _) within

/-- `rpc_parser_get` gives the value and the size of the first pair that has the key. -/
def FindsPair (pairs : List KeyPair) (req : Option RpcReq) (key : Bytes) : Prop :=
  (rpcParserGet req key).map (fun entry => (entry.value, entry.valueSize)) =
    (pairs.find? fun pair => decide (pair.key = key)).map fun pair =>
      (some pair.value, (pair.value.length : Int))

private theorem findsPair_stored {pairs : List KeyPair} {key : Bytes} (uncoloned : 58 ∉ key)
    (whole : ∀ pair ∈ pairs, key <+: pair.key → pair.key = key) :
    FindsPair pairs (some (storedEntries pairs)) key := by
  unfold FindsPair rpcParserGet
  rw [Option.getD_some]
  induction pairs with
  | nil => rfl
  | cons pair rest ih =>
    have later := ih fun other member => whole other (List.mem_cons_of_mem _ member)
    have front := pair.cstring_front (pair.value ++ rest.flatMap KeyPair.frame ++ [0])
    simp only [← List.append_assoc] at front
    by_cases same : pair.key = key
    · have found : key.isPrefixOf (cstring
          (pair.key ++ divide ++ pair.value ++ rest.flatMap KeyPair.frame ++ [0])) = true := by
        rw [List.isPrefixOf_iff_prefix, front, same, List.append_assoc]
        exact List.prefix_append _ _
      rw [storedEntries, List.find?_cons_of_pos (p := fun entry : RpcReqEntry => key.isPrefixOf entry.key)
        found,
        List.find?_cons_of_pos (by simpa using same)]
      rfl
    · have passed : key.isPrefixOf (cstring
          (pair.key ++ divide ++ pair.value ++ rest.flatMap KeyPair.frame ++ [0])) = false := by
        rw [Bool.eq_false_iff, ne_eq, List.isPrefixOf_iff_prefix, front]
        intro longer
        exact same (whole pair List.mem_cons_self (prefix_of_stored uncoloned longer))
      simp only [storedEntries, List.find?_cons, passed, same, decide_false]
      exact later

/-- The buffer is built, copied and parsed, and each key that is not a proper prefix of a
listed one is looked up as it was sent. -/
theorem findsPair_parsed (pairs : List KeyPair) (plain : ∀ pair ∈ pairs, pair.Plain)
    (room : Nat) (enough : ∀ pair ∈ pairs, pair.frame.length ≤ room) :
    ∃ buffer copy req, encodePairsIn room none pairs = .ok buffer ∧
      rpcBufferNew (buffer.map RpcBuffer.bytes) ((buffer.map RpcBuffer.chunkUsed).getD 0) =
        .ok copy ∧
      rpcParserNew copy = .ok req ∧
      ∀ key, 58 ∉ key → (∀ pair ∈ pairs, key <+: pair.key → pair.key = key) →
        FindsPair pairs req key := by
  obtain ⟨buffer, encoded, bytes⟩ := encodePairsIn_ok none enough
  rw [Option.map_none, Option.getD_none, List.nil_append] at bytes
  cases buffer with
  | none =>
    have empty : pairs = [] := by
      cases pairs with
      | nil => rfl
      | cons pair rest =>
        have nonempty : pair.frame ≠ [] := by simp [KeyPair.frame, divide, ascii]
        rw [List.flatMap_cons] at bytes
        exact absurd (List.append_eq_nil_iff.mp bytes.symm).1 nonempty
    rw [empty]
    exact ⟨none, none, none, rfl, rfl, rfl, fun _ _ _ => rfl⟩
  | some buffer =>
    have whole : buffer.bytes = pairs.flatMap KeyPair.frame := bytes
    have used : buffer.chunkUsed = (pairs.flatMap KeyPair.frame).length := by
      rw [← RpcBuffer.bytes_length, whole]
    have filled : pairs ≠ [] := by
      rintro rfl
      cases encoded
    have count := KeyPair.frames_length pairs
    have positive : 0 < (pairs.flatMap KeyPair.frame).length :=
      Nat.lt_of_lt_of_le (List.length_pos_iff.mpr filled) count
    have copied := rpcBufferNew_filled positive (Nat.le_refl (pairs.flatMap KeyPair.frame).length)
    rw [List.take_length] at copied
    have tail : (RpcBuffer.filled (pairs.flatMap KeyPair.frame)).tail = [0] := List.drop_left
    have parsed := rpcParserLoop_pairs 0 tail plain (Nat.zero_le _) (RpcBuffer.filled_bytes _)
      (Nat.lt_succ_of_le count) []
    refine ⟨some buffer, some (.filled (pairs.flatMap KeyPair.frame)), some (storedEntries pairs),
      encoded, ?_, ?_, fun key => findsPair_stored⟩
    · rw [Option.map_some, Option.map_some, Option.getD_some, whole, used]
      exact copied
    · exact congrArg (some <$> ·) parsed

/-- A key that starts another one, and that one twice. -/
private def uuidTwice : List KeyPair :=
  [⟨ascii "uu", [8], by decide, by decide, by decide, by decide⟩,
    ⟨ascii "uuid", [7], by decide, by decide, by decide, by decide⟩,
    ⟨ascii "uuid", [9], by decide, by decide, by decide, by decide⟩]

/-- The value of the first `uuid` is found, by that key only. -/
theorem findsPair_uuid : ∃ buffer copy req, encodePairsIn 32 none uuidTwice = .ok buffer ∧
    rpcBufferNew (buffer.map RpcBuffer.bytes) ((buffer.map RpcBuffer.chunkUsed).getD 0) = .ok copy ∧
    rpcParserNew copy = .ok req ∧
    (rpcParserGet req (ascii "uuid")).map (fun entry => (entry.value, entry.valueSize)) =
      some (some [7], 1) ∧ FindsPair uuidTwice req (ascii "uuids") := by
  have plain : ∀ pair ∈ uuidTwice, pair.Plain := fun pair member =>
    ⟨(by decide : ∀ pair ∈ uuidTwice, 58 ∉ pair.key) pair member,
      (by decide : ∀ pair ∈ uuidTwice, (pair.key ++ divide ++ pair.value).length < 2 ^ 31) pair member⟩
  obtain ⟨buffer, copy, req, encoded, copied, parsed, finds⟩ :=
    findsPair_parsed uuidTwice plain 32 (by decide)
  exact ⟨buffer, copy, req, encoded, copied, parsed, finds (ascii "uuid") (by decide) (by decide),
    finds (ascii "uuids") (by decide) (by decide)⟩

/-! ### Requests made by `rpc_parser_add` -/

/-- `rpc_parser_add` for the memories from `key` and `value` on, and `valuesize`. -/
def rpcParserAddAll (calls : List (Bytes × Bytes × Int)) : Except Fault RpcReq :=
  calls.foldlM (fun req call => rpcParserAdd req call.1 call.2.1 call.2.2) []

/-- `rpc_parser_get` gives the value of the first entry that has the key, and never
that of an entry whose key only starts with it. -/
structure FindsKey (req : RpcReq) (key : Bytes) : Prop where
  first : rpcParserGet (some req) key = req.find? fun entry => decide (entry.key = key)
  own : ∀ entry, rpcParserGet (some req) key = some entry → entry.key = key

/-- Every entry whose key only starts with the key stands behind one that has it. -/
def ShadowsBehind (req : RpcReq) (key : Bytes) : Prop :=
  ∀ front entry back, req = front ++ entry :: back → key <+: entry.key → entry.key ≠ key →
    ∃ earlier ∈ front, earlier.key = key

/-- `rpc_parser_get` finds a key exactly if no longer key that starts with it comes first. -/
theorem findsKey_iff (req : RpcReq) (key : Bytes) : FindsKey req key ↔ ShadowsBehind req key := by
  constructor
  · rintro ⟨_, own⟩ front entry back rfl longer differ
    have matched : key.isPrefixOf entry.key = true := List.isPrefixOf_iff_prefix.mpr longer
    -- the entry itself would be found, if nothing in front of it were
    cases before : front.find? fun entry => key.isPrefixOf entry.key with
    | none =>
      have found : rpcParserGet (some (front ++ entry :: back)) key = some entry := by
        rw [rpcParserGet, Option.getD_some, List.find?_append, before, Option.none_or]
        exact List.find?_cons_of_pos matched
      exact absurd (own entry found) differ
    | some earlier =>
      have found : rpcParserGet (some (front ++ entry :: back)) key = some earlier := by
        rw [rpcParserGet, Option.getD_some, List.find?_append, before, Option.some_or]
      exact ⟨earlier, List.mem_of_find?_eq_some before, own earlier found⟩
  · intro behind
    cases found : rpcParserGet (some req) key with
    | none =>
      refine ⟨?_, fun entry same => by cases found.symm.trans same⟩
      rw [found, eq_comm, List.find?_eq_none]
      intro entry member same
      have absent := List.find?_eq_none.mp found entry member
      rw [of_decide_eq_true same, List.isPrefixOf_iff_prefix] at absent
      exact absent (List.prefix_refl key)
    | some entry =>
      obtain ⟨matched, front, back, rfl, skipped⟩ := List.find?_eq_some_iff_append.mp found
      have passed : ∀ earlier ∈ front, earlier.key ≠ key := by
        intro earlier member same
        have absent := skipped earlier member
        rw [same, List.isPrefixOf_iff_prefix.mpr (List.prefix_refl key)] at absent
        cases absent
      have own : entry.key = key := by
        by_contra differ
        obtain ⟨earlier, member, same⟩ :=
          behind front entry back rfl (List.isPrefixOf_iff_prefix.mp matched) differ
        exact passed earlier member same
      refine ⟨?_, fun other same => Option.some.inj (found.symm.trans same) ▸ own⟩
      rw [found, eq_comm, List.find?_eq_some_iff_append]
      refine ⟨decide_eq_true own, front, back, rfl, fun earlier member => ?_⟩
      rw [decide_eq_false (passed earlier member)]
      rfl

/-- A request with `old_pwd_hint` in front of `old_pwd`. -/
theorem findsKey_old_pwd : ∃ req, rpcParserAddAll
    [(ascii "old_pwd_hint" ++ [0], ascii "h" ++ [0], -1), (ascii "old_pwd" ++ [0], ascii "p" ++ [0], -1)] =
      .ok req ∧ ¬ FindsKey req (ascii "old_pwd") := by
  refine ⟨_, rfl, fun finds => ?_⟩
  have own := finds.own _ rfl
  exact absurd own (by decide)

end Livezure.Rpc
