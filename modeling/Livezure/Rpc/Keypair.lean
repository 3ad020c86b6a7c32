import Livezure.Rpc.Buffer

/-! The "key: value" encoding (`rpc_keypair.c`) and the requests parsed from it
(`rpc_parser.c`). -/
namespace Livezure.Rpc
open Livezure.Core

/-- `divide`, of length `divide_len`. -/
def divide : Bytes := ascii ": "

/-- `rpc_keypair_append` on the memories from `key` and `body` on. -/
def rpcKeypairAppend (buffer : Option RpcBuffer) (key body : Bytes) (bodySize : Int) :
    Except Fault RpcBuffer := do
  let keySize ← strlen key
  let bodySize ← sizeOr (bodySize ≤ 0) body bodySize
  let keyBytes ← slice key 0 keySize
  let bodyBytes ← slice body 0 bodySize
  let keybuf := keyBytes ++ divide ++ bodyBytes
  rpcBufferAppend buffer keybuf keybuf.length

/-- `rpc_keypair_next`: the memories from `*key` and `*body` on, and `*bodysize`. -/
def rpcKeypairNext (buffer : RpcBuffer) :
    Except Fault (RpcBuffer × Option (Bytes × Bytes × Int)) := do
  let (buffer, stream) ← rpcBufferNext buffer
  match stream with
  | none => return (buffer, none)
  | some (offset, streamSize) =>
    let memory := buffer.chunk.drop offset.toNat
    match strstr divide (cstring memory) with
    | none => if 0 ∈ memory then return (buffer, none) else .error .unterminated
    | some query =>
      return (buffer, some (memory, memory.drop (query + divide.length),
        streamSize - query - divide.length))

/-- An entry of `rpc_req_t`. The key ends with a NUL that is not part of it, and
an empty value is a null pointer. -/
structure RpcReqEntry where
  key : Bytes
  value : Option Bytes
  valueSize : Int
  deriving DecidableEq, Repr

abbrev RpcReq := List RpcReqEntry

/-- `rpc_parser_add`. -/
def rpcParserAdd (req : RpcReq) (key value : Bytes) (valueSize : Int) : Except Fault RpcReq := do
  let keySize ← strlen key
  let keyBytes ← slice key 0 keySize
  let valueSize ← sizeOr (valueSize < 0) value valueSize
  if valueSize = 0 then return req ++ [⟨keyBytes, none, 0⟩]
  else do
    let valueBytes ← slice value 0 valueSize
    return req ++ [⟨keyBytes, some valueBytes, valueSize⟩]

def rpcParserLoop : Nat → RpcBuffer → RpcReq → Except Fault RpcReq
  | 0, _, _ => .error .exhausted
  | fuel + 1, buffer, req => do
    let (buffer, pair) ← rpcKeypairNext buffer
    match pair with
    | none => return req
    | some (key, value, valueSize) => do
      let req ← rpcParserAdd req key value valueSize
      rpcParserLoop fuel buffer req

/-- `rpc_parser_new`. A frame takes more than four bytes, so the fuel is enough
unless one announces a negative size. -/
def rpcParserNew : Option RpcBuffer → Except Fault (Option RpcReq)
  | none => .ok none
  | some buffer => some <$> rpcParserLoop (buffer.chunkUsed + 1) (rpcBufferRewind buffer) []

/-- `rpc_parser_count`; a null request has no entries. -/
def rpcParserCount (req : Option RpcReq) : Nat := (req.getD []).length

/-- `rpc_parser_index`. -/
def rpcParserIndex (req : Option RpcReq) (index : Nat) : Option RpcReqEntry := (req.getD [])[index]?

/-- `rpc_parser_get` compares as many bytes as the key asked for has: the first
entry whose key starts with it. -/
def rpcParserGet (req : Option RpcReq) (key : Bytes) : Option RpcReqEntry :=
  (req.getD []).find? (fun entry => key.isPrefixOf entry.key)

/-- A pair that can be encoded. -/
structure KeyPair where
  key : Bytes
  value : Bytes
  key_ne : key ≠ []
  key_clean : 0 ∉ key
  key_plain : ¬ divide <:+: key
  value_ne : value ≠ []

/-- `rpc_keypair_append` for each pair in order; the key is passed with its NUL. -/
def encodePairs (buffer : Option RpcBuffer) : List KeyPair → Except Fault (Option RpcBuffer)
  | [] => .ok buffer
  | pair :: rest => do
    let buffer ← rpcKeypairAppend buffer (pair.key ++ [0]) pair.value pair.value.length
    encodePairs (some buffer) rest

/-- Building, delivering a copy and parsing give the same pairs back. -/
def RoundTrip (pairs : List KeyPair) : Prop :=
  ∃ buffer copy req, encodePairs none pairs = .ok buffer ∧
    rpcBufferNew (buffer.map RpcBuffer.bytes) ((buffer.map RpcBuffer.chunkUsed).getD 0) = .ok copy ∧
    rpcParserNew copy = .ok req ∧ rpcParserCount req = pairs.length ∧
    ∀ index pair, pairs[index]? = some pair →
      rpcParserIndex req index = some ⟨pair.key, some pair.value, pair.value.length⟩

/-! ### What is encoded -/

/-- The bytes that encode one pair. -/
def KeyPair.frame (pair : KeyPair) : Bytes :=
  leBytes sizeofSize (pair.key ++ divide ++ pair.value).length ++
    (pair.key ++ divide ++ pair.value)

theorem strlen_terminated {text : Bytes} (clean : 0 ∉ text) :
    strlen (text ++ [0]) = .ok text.length := by
  rw [strlen, if_pos (by simp), cstring_terminated text [] clean]

theorem slice_front (front back : Bytes) :
    slice (front ++ back) 0 front.length = .ok front := by
  rw [slice_ok (by simp), List.drop_zero, List.take_left]

theorem slice_whole (block : Bytes) : slice block 0 block.length = .ok block := by
  rw [slice_ok (by simp), List.drop_zero, List.take_length]

theorem rpcBufferAppend_bytes {buffer : Option RpcBuffer} {content : Bytes}
    (nonempty : content ≠ [])
    (done : rpcBufferAppend buffer content content.length = .ok result) :
    result.bytes = (buffer.map RpcBuffer.bytes).getD [] ++
      (leBytes sizeofSize content.length ++ content) := by
  have positive : 0 < content.length := List.length_pos_iff.mpr nonempty
  have sized : ¬ (content.length : Int) ≤ 0 := by omega
  simp only [rpcBufferAppend, sizeOr_known sized, bind, Except.bind, slice_whole] at done
  rw [RpcBuffer.refill_bytes done, List.append_assoc]
  cases buffer with
  | none => simp [RpcBuffer.bytes, RpcBuffer.fresh]
  | some buffer => rfl

theorem rpcKeypairAppend_bytes {buffer : Option RpcBuffer} {pair : KeyPair}
    (done : rpcKeypairAppend buffer (pair.key ++ [0]) pair.value pair.value.length = .ok result) :
    result.bytes = (buffer.map RpcBuffer.bytes).getD [] ++ pair.frame := by
  have positive : 0 < pair.value.length := List.length_pos_iff.mpr pair.value_ne
  have sized : ¬ (pair.value.length : Int) ≤ 0 := by omega
  simp only [rpcKeypairAppend, strlen_terminated pair.key_clean, sizeOr_known sized, bind,
    Except.bind, slice_front, slice_whole] at done
  exact rpcBufferAppend_bytes (by simp [divide, ascii]) done

theorem encodePairs_bytes {buffer result : Option RpcBuffer} {pairs : List KeyPair}
    (done : encodePairs buffer pairs = .ok result) :
    (result.map RpcBuffer.bytes).getD [] =
      (buffer.map RpcBuffer.bytes).getD [] ++ pairs.flatMap KeyPair.frame := by
  induction pairs generalizing buffer with
  | nil =>
    rw [← Except.ok.inj done]
    simp
  | cons pair rest ih =>
    obtain ⟨next, appended, done⟩ := bind_ok done
    have bytes := ih done
    have first : (Option.map RpcBuffer.bytes (some next)).getD [] = _ :=
      rpcKeypairAppend_bytes appended
    rw [bytes, first, List.flatMap_cons, List.append_assoc]

theorem encodePairs_some {buffer : RpcBuffer} {pairs : List KeyPair}
    (done : encodePairs (some buffer) pairs = .ok result) : ∃ last, result = some last := by
  induction pairs generalizing buffer with
  | nil => exact ⟨buffer, (Except.ok.inj done).symm⟩
  | cons pair rest ih =>
    obtain ⟨next, _, done⟩ := bind_ok done
    exact ih done

/-! ### What is decoded -/

theorem rpcParserAdd_ok {req result : RpcReq} {key : Bytes}
    (done : rpcParserAdd req key value valueSize = .ok result) :
    ∃ entry, result = req ++ [entry] ∧ entry.key = cstring key := by
  obtain ⟨keySize, sized, done⟩ := bind_ok done
  obtain ⟨keyBytes, read, done⟩ := bind_ok done
  obtain ⟨valueLength, _, done⟩ := bind_ok done
  have bytes : keyBytes = cstring key := by
    unfold strlen at sized
    split at sized
    · obtain ⟨_, same⟩ := slice_eq_ok read
      rw [same, ← Except.ok.inj sized, List.drop_zero]
      exact (List.prefix_iff_eq_take.mp (List.takeWhile_prefix _)).symm
    · cases sized
  split at done
  · exact ⟨_, (Except.ok.inj done).symm, bytes⟩
  · obtain ⟨valueBytes, _, done⟩ := bind_ok done
    exact ⟨_, (Except.ok.inj done).symm, bytes⟩

theorem rpcParserLoop_prefix {buffer : RpcBuffer} {req result : RpcReq}
    (done : rpcParserLoop fuel buffer req = .ok result) : req <+: result := by
  induction fuel generalizing buffer req with
  | zero => cases done
  | succ fuel ih =>
    obtain ⟨⟨next, pair⟩, _, done⟩ := bind_ok done
    cases pair with
    | none => exact Except.ok.inj done ▸ List.prefix_refl req
    | some triple =>
      obtain ⟨longer, added, done⟩ := bind_ok done
      obtain ⟨entry, rfl, _⟩ := rpcParserAdd_ok added
      exact (List.prefix_append req [entry]).trans (ih done)

/-- The key pointer of the first pair is the start of its frame. -/
theorem rpcKeypairNext_first {bytes key value : Bytes}
    (next : rpcKeypairNext (rpcBufferRewind (.filled bytes)) = .ok (after, some (key, value, size))) :
    key = (bytes ++ [0]).drop sizeofSize := by
  obtain ⟨⟨buffer, stream⟩, framed, next⟩ := bind_ok next
  have offset : ∀ start length, stream = some (start, length) → start = sizeofSize ∧
      buffer.chunk = bytes ++ [0] := by
    intro start length same
    subst same
    unfold rpcBufferNext at framed
    split at framed
    · cases framed
    · split at framed
      · cases framed
      · obtain ⟨word, _, framed⟩ := bind_ok framed
        dsimp only at framed
        split at framed
        · cases framed
        · split at framed
          · cases framed
          · have parts := Prod.mk.inj (Except.ok.inj framed)
            have pointer := Prod.mk.inj (Option.some.inj parts.2)
            refine ⟨pointer.1.symm, ?_⟩
            rw [← parts.1]
            rfl
  cases stream with
  | none => cases next
  | some pointer =>
    obtain ⟨start, chunk⟩ := offset pointer.1 pointer.2 rfl
    dsimp only at next
    split at next
    · split at next
      · cases next
      · cases next
    · have parts := Prod.mk.inj (Except.ok.inj next)
      have memory := (Prod.mk.inj (Option.some.inj parts.2)).1
      rw [← memory, chunk, start]
      rfl

/-- The first key decoded from a frame runs on behind the key that was encoded. -/
theorem rpcParserNew_first {pair : KeyPair} {more : Bytes} {req : RpcReq}
    (done : rpcParserNew (some (.filled (pair.frame ++ more))) = .ok (some req)) :
    req = [] ∨ ∃ entry rest, req = entry :: rest ∧ pair.key ++ divide <+: entry.key := by
  cases looped : rpcParserLoop ((RpcBuffer.filled (pair.frame ++ more)).chunkUsed + 1)
      (rpcBufferRewind (.filled (pair.frame ++ more))) [] with
  | error fault =>
    rw [rpcParserNew, looped] at done
    cases done
  | ok result =>
    rw [rpcParserNew, looped] at done
    have same : result = req := Option.some.inj (Except.ok.inj done)
    subst same
    obtain ⟨⟨next, found⟩, step, looped⟩ := bind_ok looped
    cases found with
    | none => exact Or.inl (Except.ok.inj looped).symm
    | some triple =>
      obtain ⟨longer, added, looped⟩ := bind_ok looped
      obtain ⟨entry, rfl, key⟩ := rpcParserAdd_ok added
      obtain ⟨rest, grown⟩ := rpcParserLoop_prefix looped
      refine Or.inr ⟨entry, rest, by simpa using grown.symm, ?_⟩
      have clean : 0 ∉ pair.key ++ divide := by
        intro member
        rcases List.mem_append.mp member with inKey | inDivide
        · exact pair.key_clean inKey
        · exact absurd inDivide (by decide)
      have front : triple.1 = pair.key ++ divide ++ (pair.value ++ more ++ [0]) := by
        rw [rpcKeypairNext_first step, KeyPair.frame, List.append_assoc, List.append_assoc,
          List.drop_left' (by simp)]
        simp only [List.append_assoc]
      rw [key, front, cstring_append _ _ clean]
      exact List.prefix_append _ _

/-- A decoded key is a pointer to text that the encoder does not end with a NUL. -/
theorem RoundTrip.empty {pairs : List KeyPair} (trip : RoundTrip pairs) : pairs = [] := by
  obtain ⟨buffer, copy, req, encoded, copied, parsed, count, entries⟩ := trip
  cases pairs with
  | nil => rfl
  | cons pair rest =>
    exfalso
    obtain ⟨first, appended, encoded⟩ := bind_ok encoded
    obtain ⟨last, rfl⟩ := encodePairs_some encoded
    have bytes : last.bytes = pair.frame ++ rest.flatMap KeyPair.frame := by
      have whole := encodePairs_bytes encoded
      have start := rpcKeypairAppend_bytes appended
      simpa [start] using whole
    have length : last.bytes.length = last.chunkUsed := by
      rw [RpcBuffer.bytes, List.length_take]
      exact Nat.min_eq_left last.used_le
    have positive : 0 < last.bytes.length := by
      rw [bytes, KeyPair.frame]
      simp only [List.length_append, leBytes_length, sizeofSize]
      omega
    have filled := rpcBufferNew_filled positive (Nat.le_refl _)
    rw [List.take_length] at filled
    simp only [Option.map_some, Option.getD_some, ← length, filled] at copied
    rw [← Except.ok.inj copied, bytes] at parsed
    obtain ⟨inner, rfl⟩ : ∃ inner, req = some inner := by
      cases req with
      | none =>
        simp only [rpcParserNew, Functor.map, Except.map] at parsed
        split at parsed <;> cases parsed
      | some inner => exact ⟨inner, rfl⟩
    rcases rpcParserNew_first parsed with rfl | ⟨entry, others, rfl, longer⟩
    · cases count
    · have own := entries 0 pair rfl
      have key : entry.key = pair.key := congrArg RpcReqEntry.key (Option.some.inj own)
      have size := longer.length_le
      rw [key, List.length_append] at size
      have divided : divide.length = 2 := rfl
      omega

/-- The encoding comes back only when there is nothing to encode. -/
theorem roundTrip_iff (pairs : List KeyPair) : RoundTrip pairs ↔ pairs = [] := by
  constructor
  · intro trip
    exact trip.empty
  · rintro rfl
    exact ⟨none, none, none, rfl, rfl, rfl, rfl, by simp⟩

theorem roundTrip_uuid_lost :
    ¬ RoundTrip [⟨ascii "uuid", ascii "7", by decide, by decide, by decide, by decide⟩] := by
  intro trip
  cases trip.empty

example : rpcParserLoop 2 (.filled
    (KeyPair.frame ⟨ascii "uuid", ascii "7", by decide, by decide, by decide, by decide⟩)) [] =
      .ok [⟨ascii "uuid: 7", some (ascii "7"), 1⟩] := by
  decide

end Livezure.Rpc
