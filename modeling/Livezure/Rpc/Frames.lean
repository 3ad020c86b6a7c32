import Livezure.Rpc.Keypair

/-! Which packet bodies `rpc_parser_new` walks through without leaving its frames. -/
namespace Livezure.Rpc
open Livezure.Core

/-- The memory behind the bytes in use, as far as it is written. -/
def RpcBuffer.tail (buffer : RpcBuffer) : Bytes := buffer.chunk.drop buffer.chunkUsed

def announced (memory : Bytes) : Int := (BitVec.ofNat 32 (leNat (memory.take sizeofSize))).toInt

/-- `strstr` for the separator, up to the first NUL. -/
def separator (memory : Bytes) : Option Nat := strstr divide (cstring (memory.drop sizeofSize))

/-- The bytes still to be parsed, in front of a tail, are a sequence of frames. -/
inductive WellFramed (tail : Bytes) : Bytes → Prop where
  | stop {rest : Bytes} : rest.length ≤ 2 → WellFramed tail rest
  /-- A size of zero, or one that is too large, ends the parsing. -/
  | refused {rest : Bytes} : sizeofSize ≤ (rest ++ tail).length →
      announced (rest ++ tail) = 0 ∨ rest.length < announced (rest ++ tail) → WellFramed tail rest
  /-- So does a frame without a separator before the next NUL. -/
  | unseparated {rest : Bytes} : sizeofSize ≤ (rest ++ tail).length →
      announced (rest ++ tail) ≠ 0 → 0 < sizeofSize + announced (rest ++ tail) →
      sizeofSize + announced (rest ++ tail) ≤ rest.length →
      0 ∈ (rest ++ tail).drop sizeofSize → separator (rest ++ tail) = none → WellFramed tail rest
  /-- The frame and its size are within the body, and the separator is within the frame. -/
  | pair {rest : Bytes} {query : Nat} : sizeofSize + announced (rest ++ tail) ≤ rest.length →
      0 ∈ (rest ++ tail).drop sizeofSize → separator (rest ++ tail) = some query →
      query + divide.length ≤ announced (rest ++ tail) →
      WellFramed tail (rest.drop (sizeofSize + (announced (rest ++ tail)).toNat)) →
      WellFramed tail rest

/-- The buffers that successive pairs leave. -/
inductive Visits : RpcBuffer → RpcBuffer → Prop where
  | here (buffer : RpcBuffer) : Visits buffer buffer
  | next {buffer after visited : RpcBuffer} {pair : Bytes × Bytes × Int} :
      rpcKeypairNext buffer = .ok (after, some pair) → Visits after visited → Visits buffer visited

def RpcBuffer.address (buffer : RpcBuffer) (memory : Bytes) : Int :=
  buffer.chunk.length - memory.length

/-- Every frame moves the position forward and not beyond the bytes in use. -/
def FramesWithin (buffer : RpcBuffer) : Prop :=
  ∀ after frame, rpcBufferNext buffer = .ok (after, some frame) →
    buffer.parsePosition < after.parsePosition ∧ after.parsePosition ≤ after.chunkUsed

/-- Every pair lies in its frame. -/
def PairsWithin (buffer : RpcBuffer) : Prop :=
  ∀ after offset frameSize later key value size,
    rpcBufferNext buffer = .ok (after, some (offset, frameSize)) →
    rpcKeypairNext buffer = .ok (later, some (key, value, size)) →
    offset ≤ buffer.address key ∧ buffer.address key ≤ buffer.address value ∧ 0 ≤ size ∧
      buffer.address value + size ≤ offset + frameSize

/-- `rpc_parser_new` returns, and all it does on the way stays within the frames. -/
structure ParsesSafely (buffer : RpcBuffer) : Prop where
  terminates : ∃ req, rpcParserNew (some buffer) = .ok req
  frames : ∀ visited, Visits (rpcBufferRewind buffer) visited → FramesWithin visited
  pairs : ∀ visited, Visits (rpcBufferRewind buffer) visited → PairsWithin visited

/-! ### One frame -/

section Frame
variable (buffer : RpcBuffer) {position : Nat}

def RpcBuffer.seek (position : Int) : RpcBuffer := { buffer with parsePosition := position }

def RpcBuffer.rest (position : Nat) : Bytes := buffer.bytes.drop position

variable {buffer}

theorem rest_length (inside : position ≤ buffer.chunkUsed) :
    (buffer.rest position).length + position = buffer.chunkUsed := by
  rw [RpcBuffer.rest, List.length_drop, RpcBuffer.bytes_length]
  omega

theorem rest_tail (inside : position ≤ buffer.chunkUsed) :
    buffer.rest position ++ buffer.tail = buffer.chunk.drop position := by
  have bytes : buffer.bytes ++ buffer.tail = buffer.chunk := List.take_append_drop _ _
  rw [RpcBuffer.rest, ← List.drop_append_of_le_length (by rw [RpcBuffer.bytes_length]; exact inside),
    bytes]

/-- `rpc_buffer_next` by the bytes that are left. -/
theorem rpcBufferNext_seek (inside : position ≤ buffer.chunkUsed) :
    rpcBufferNext (buffer.seek position) =
      if (buffer.rest position).length ≤ 2 then .ok (buffer.seek position, none)
      else if (buffer.rest position ++ buffer.tail).length < sizeofSize then .error .outOfBounds
      else if announced (buffer.rest position ++ buffer.tail) = 0 ∨
          (buffer.rest position).length < announced (buffer.rest position ++ buffer.tail) then
        .ok (buffer.seek position, none)
      else .ok (buffer.seek (position + sizeofSize +
          announced (buffer.rest position ++ buffer.tail)),
        some (position + sizeofSize, announced (buffer.rest position ++ buffer.tail))) := by
  have length := rest_length inside
  have written := buffer.used_le
  have memory := rest_tail inside
  have few : ((position : Int) + 2 ≥ buffer.chunkUsed) ↔ (buffer.rest position).length ≤ 2 := by
    omega
  have nonneg : ¬ (position : Int) < 0 := by omega
  unfold rpcBufferNext
  simp only [RpcBuffer.seek, few, nonneg, if_false, Int.toNat_natCast]
  split
  · rfl
  · rw [slice, memory, List.length_drop]
    by_cases short : buffer.chunk.length - position < sizeofSize
    · rw [if_pos short, if_neg (by omega)]
      rfl
    · rw [if_neg short, if_pos (by omega)]
      have large : (announced (buffer.chunk.drop position) > (buffer.chunkUsed : Int) - position) ↔
          ((buffer.rest position).length : Int) < announced (buffer.chunk.drop position) := by
        omega
      change (if announced (buffer.chunk.drop position) = 0 then _ else
        if announced (buffer.chunk.drop position) > (buffer.chunkUsed : Int) - position then _
        else _) = _
      simp only [large]
      by_cases zero : announced (buffer.chunk.drop position) = 0
      · rw [if_pos zero, if_pos (.inl zero)]
        rfl
      · rw [if_neg zero]
        by_cases exceeds : ((buffer.rest position).length : Int) < announced (buffer.chunk.drop position)
        · rw [if_pos exceeds, if_pos (.inr exceeds)]
          rfl
        · rw [if_neg exceeds, if_neg (not_or.mpr ⟨zero, exceeds⟩)]
          rfl

/-- A frame starts at the position. -/
structure Framed (buffer : RpcBuffer) (position : Nat) : Prop where
  inside : position ≤ buffer.chunkUsed
  enough : 2 < (buffer.rest position).length
  sized : sizeofSize ≤ (buffer.rest position ++ buffer.tail).length
  nonzero : announced (buffer.rest position ++ buffer.tail) ≠ 0
  fits : announced (buffer.rest position ++ buffer.tail) ≤ (buffer.rest position).length

def RpcBuffer.behind (buffer : RpcBuffer) (position : Nat) : Int :=
  position + sizeofSize + announced (buffer.rest position ++ buffer.tail)

theorem Framed.next (framed : Framed buffer position) :
    rpcBufferNext (buffer.seek position) = .ok (buffer.seek (buffer.behind position),
      some (position + sizeofSize, announced (buffer.rest position ++ buffer.tail))) := by
  rw [rpcBufferNext_seek framed.inside, if_neg (Nat.not_le.mpr framed.enough),
    if_neg (Nat.not_lt.mpr framed.sized),
    if_neg (not_or.mpr ⟨framed.nonzero, Int.not_lt.mpr framed.fits⟩)]
  rfl

theorem Framed.of_next (inside : position ≤ buffer.chunkUsed)
    (next : rpcBufferNext (buffer.seek position) = .ok (after, some frame)) :
    Framed buffer position := by
  rw [rpcBufferNext_seek inside] at next
  split at next
  · cases next
  · rename_i enough
    split at next
    · cases next
    · rename_i sized
      split at next
      · cases next
      · rename_i accepted
        obtain ⟨nonzero, fits⟩ := not_or.mp accepted
        exact ⟨inside, Nat.not_le.mp enough, Nat.not_lt.mp sized, nonzero, Int.not_lt.mp fits⟩

theorem announced_sized {content : Bytes} (sized : content.length < 2 ^ 31) (more : Bytes) :
    announced (leBytes sizeofSize content.length ++ content ++ more) = content.length := by
  rw [announced, List.append_assoc, List.take_left' (by simp),
    leNat_leBytes _ _ (Nat.lt_trans sized (by decide)),
    BitVec.toInt_eq_toNat_of_lt (by rw [BitVec.toNat_ofNat]; omega), BitVec.toNat_ofNat,
    Nat.mod_eq_of_lt (by omega)]

/-- The size of some bytes and the bytes are a frame. -/
theorem Framed.of_content {content more : Bytes} (inside : position ≤ buffer.chunkUsed)
    (rest : buffer.rest position = leBytes sizeofSize content.length ++ content ++ more)
    (nonempty : content ≠ []) (sized : content.length < 2 ^ 31) :
    Framed buffer position ∧
      announced (buffer.rest position ++ buffer.tail) = content.length ∧
      buffer.behind position = (position + (sizeofSize + content.length) : Nat) := by
  have size : sizeofSize = 4 := rfl
  have positive : 0 < content.length := List.length_pos_iff.mpr nonempty
  have length : (buffer.rest position).length = sizeofSize + content.length + more.length := by
    rw [rest, List.length_append, List.length_append, leBytes_length]
  have whole : announced (buffer.rest position ++ buffer.tail) = content.length := by
    rw [rest, List.append_assoc]
    exact announced_sized sized (more ++ buffer.tail)
  refine ⟨⟨inside, by omega, by rw [List.length_append]; omega, by omega, by omega⟩, whole, ?_⟩
  rw [RpcBuffer.behind, whole]
  omega

/-- `rpc_keypair_next` by the bytes that are left. -/
theorem Framed.keypair (framed : Framed buffer position) :
    rpcKeypairNext (buffer.seek position) =
      match separator (buffer.rest position ++ buffer.tail) with
      | none =>
        if 0 ∈ (buffer.rest position ++ buffer.tail).drop sizeofSize then
          .ok (buffer.seek (buffer.behind position), none)
        else .error .unterminated
      | some query =>
        .ok (buffer.seek (buffer.behind position),
          some ((buffer.rest position ++ buffer.tail).drop sizeofSize,
            ((buffer.rest position ++ buffer.tail).drop sizeofSize).drop (query + divide.length),
            announced (buffer.rest position ++ buffer.tail) - query - divide.length)) := by
  have memory : (buffer.seek (buffer.behind position)).chunk.drop
      ((position : Int) + sizeofSize).toNat =
        (buffer.rest position ++ buffer.tail).drop sizeofSize := by
    rw [rest_tail framed.inside, List.drop_drop]
    rfl
  unfold rpcKeypairNext separator
  rw [framed.next]
  simp only [bind, Except.bind, memory]
  cases strstr divide (cstring ((buffer.rest position ++ buffer.tail).drop sizeofSize)) <;> rfl

theorem rpcKeypairNext_unframed (inside : position ≤ buffer.chunkUsed)
    (unframed : ¬ Framed buffer position) :
    (rpcKeypairNext (buffer.seek position) = .ok (buffer.seek position, none) ∧
      ((buffer.rest position).length ≤ 2 ∨
        sizeofSize ≤ (buffer.rest position ++ buffer.tail).length)) ∨
    (rpcKeypairNext (buffer.seek position) = .error .outOfBounds ∧
      2 < (buffer.rest position).length ∧
      (buffer.rest position ++ buffer.tail).length < sizeofSize) := by
  have next := rpcBufferNext_seek inside
  unfold rpcKeypairNext
  split at next
  · rename_i few
    rw [next]
    exact .inl ⟨rfl, .inl few⟩
  · rename_i enough
    split at next
    · rename_i short
      rw [next]
      exact .inr ⟨rfl, Nat.not_le.mp enough, short⟩
    · rename_i sized
      split at next
      · rw [next]
        exact .inl ⟨rfl, .inr (Nat.not_lt.mp sized)⟩
      · rename_i accepted
        obtain ⟨nonzero, fits⟩ := not_or.mp accepted
        exact absurd ⟨inside, Nat.not_le.mp enough, Nat.not_lt.mp sized, nonzero, Int.not_lt.mp fits⟩
          unframed

private theorem strstr_le {needle text : Bytes} (found : strstr needle text = some query) :
    query + needle.length ≤ text.length := by
  induction text generalizing query with
  | nil =>
    rw [strstr] at found
    split at found
    · rename_i empty
      obtain rfl := Option.some.inj found
      simp [empty]
    · cases found
  | cons byte rest ih =>
    rw [strstr] at found
    split at found
    · rename_i here
      obtain rfl := Option.some.inj found
      simpa using here.length_le
    · obtain ⟨earlier, later, rfl⟩ := Option.map_eq_some_iff.mp found
      have inside := ih later
      rw [List.length_cons]
      omega

theorem separator_le {memory : Bytes} (found : separator memory = some query) :
    query + divide.length ≤ (memory.drop sizeofSize).length :=
  Nat.le_trans (strstr_le found) (List.takeWhile_prefix _).length_le

private theorem rpcParserAdd_defined (req : RpcReq) {key value : Bytes} {size : Nat}
    (terminated : 0 ∈ key) (room : size ≤ value.length) :
    ∃ longer, rpcParserAdd req key value size = .ok longer := by
  have inside : (cstring key).length ≤ key.length := (List.takeWhile_prefix _).length_le
  have known : ¬ (size : Int) < 0 := by omega
  simp only [rpcParserAdd, strlen, if_pos terminated, bind, Except.bind,
    slice_ok (show 0 + (cstring key).length ≤ key.length by omega), sizeOr_known known,
    slice_ok (show 0 + size ≤ value.length by omega)]
  split
  · exact ⟨_, rfl⟩
  · exact ⟨_, rfl⟩

end Frame

/-! ### A whole body -/

/-- Parsing from here on returns, and stays within the frames. -/
structure SafeFrom (buffer : RpcBuffer) : Prop where
  terminates : ∃ fuel req result, rpcParserLoop fuel buffer req = .ok result
  frames : ∀ visited, Visits buffer visited → FramesWithin visited
  pairs : ∀ visited, Visits buffer visited → PairsWithin visited

section Body
variable {buffer : RpcBuffer} {position : Nat}

/-- The loop goes through `rpc_keypair_next` and `rpc_parser_add` without a fault. -/
theorem rpcParserLoop_ok {result req : RpcReq}
    (done : rpcParserLoop fuel buffer req = .ok result) :
    ∃ after pair, rpcKeypairNext buffer = .ok (after, pair) ∧
      ∀ key value size, pair = some (key, value, size) → 0 ∈ key ∧
        ∃ fuel longer, rpcParserLoop fuel after longer = .ok result := by
  cases fuel with
  | zero => cases done
  | succ fuel =>
    obtain ⟨⟨after, pair⟩, next, done⟩ := bind_ok done
    refine ⟨after, pair, next, ?_⟩
    rintro key value size rfl
    obtain ⟨longer, added, done⟩ := bind_ok done
    obtain ⟨keySize, measured, _⟩ := bind_ok added
    refine ⟨?_, fuel, longer, done⟩
    by_contra endless
    rw [strlen, if_neg endless] at measured
    cases measured

theorem SafeFrom.next {pair : Bytes × Bytes × Int} (safe : SafeFrom buffer)
    (next : rpcKeypairNext buffer = .ok (after, some pair)) : SafeFrom after := by
  refine ⟨?_, fun visited later => safe.frames visited (.next next later),
    fun visited later => safe.pairs visited (.next next later)⟩
  obtain ⟨fuel, req, result, done⟩ := safe.terminates
  obtain ⟨other, found, same, rest⟩ := rpcParserLoop_ok done
  obtain ⟨rfl, rfl⟩ := Prod.mk.inj (Except.ok.inj (next.symm.trans same))
  obtain ⟨_, fuel, longer, done⟩ := rest _ _ _ rfl
  exact ⟨fuel, longer, result, done⟩

theorem Framed.of_safe (framed : Framed buffer position) (safe : SafeFrom (buffer.seek position)) :
    0 < sizeofSize + announced (buffer.rest position ++ buffer.tail) ∧
      sizeofSize + announced (buffer.rest position ++ buffer.tail) ≤
        (buffer.rest position).length ∧
      0 ∈ (buffer.rest position ++ buffer.tail).drop sizeofSize ∧
      ∀ query, separator (buffer.rest position ++ buffer.tail) = some query →
        query + divide.length ≤ announced (buffer.rest position ++ buffer.tail) ∧
          SafeFrom (buffer.seek (buffer.behind position)) := by
  have length := rest_length framed.inside
  obtain ⟨forward, within⟩ := safe.frames _ (.here _) _ _ framed.next
  simp only [RpcBuffer.seek, RpcBuffer.behind] at forward within
  obtain ⟨fuel, req, result, done⟩ := safe.terminates
  obtain ⟨after, pair, found, rest⟩ := rpcParserLoop_ok done
  have keypair := framed.keypair
  cases separated : separator (buffer.rest position ++ buffer.tail) with
  | none =>
    rw [separated] at keypair
    dsimp only at keypair
    refine ⟨by omega, by omega, ?_, fun query impossible => by cases impossible⟩
    by_contra endless
    rw [if_neg endless] at keypair
    cases keypair.symm.trans found
  | some query =>
    rw [separated] at keypair
    dsimp only at keypair
    obtain ⟨rfl, rfl⟩ := Prod.mk.inj (Except.ok.inj (keypair.symm.trans found))
    refine ⟨by omega, by omega, (rest _ _ _ rfl).1, ?_⟩
    intro other same
    obtain rfl := Option.some.inj same
    obtain ⟨_, _, nonneg, _⟩ := safe.pairs _ (.here _) _ _ _ _ _ _ _ framed.next keypair
    exact ⟨by omega, safe.next keypair⟩

/-- A safe walk is over a well-formed body: by what is left of it. -/
theorem wellFramed_of_safe (inside : position ≤ buffer.chunkUsed)
    (safe : SafeFrom (buffer.seek position)) : WellFramed buffer.tail (buffer.rest position) := by
  induction left : buffer.chunkUsed - position using Nat.strongRecOn generalizing position with
  | ind left ih =>
    by_cases framed : Framed buffer position
    · obtain ⟨forward, within, terminated, pairs⟩ := framed.of_safe safe
      cases separated : separator (buffer.rest position ++ buffer.tail) with
      | none =>
        exact .unseparated framed.sized framed.nonzero forward within terminated separated
      | some query =>
        obtain ⟨inFrame, later⟩ := pairs query separated
        have length := rest_length inside
        have behind : buffer.behind position = (position + (sizeofSize +
            (announced (buffer.rest position ++ buffer.tail)).toNat) : Nat) := by
          rw [RpcBuffer.behind]
          omega
        rw [behind] at later
        refine .pair within terminated separated inFrame ?_
        rw [RpcBuffer.rest, List.drop_drop]
        apply ih _ _ _ later rfl
        · simp only [sizeofSize]
          omega
        · omega
    · rcases rpcKeypairNext_unframed inside framed with ⟨_, few | sized⟩ | ⟨fault, _, _⟩
      · exact .stop few
      · by_cases few : (buffer.rest position).length ≤ 2
        · exact .stop few
        · refine .refused sized ?_
          by_contra accepted
          obtain ⟨nonzero, fits⟩ := not_or.mp accepted
          exact framed ⟨inside, Nat.not_le.mp few, sized, nonzero, Int.not_lt.mp fits⟩
      · obtain ⟨fuel, req, result, done⟩ := safe.terminates
        obtain ⟨after, pair, found, _⟩ := rpcParserLoop_ok done
        cases fault.symm.trans found

/-- The walk over a body is safe, and its loop has enough fuel. -/
structure Walks (buffer : RpcBuffer) (fuel : Nat) : Prop where
  returns : ∀ req, ∃ result, rpcParserLoop fuel buffer req = .ok result
  frames : ∀ visited, Visits buffer visited → FramesWithin visited
  pairs : ∀ visited, Visits buffer visited → PairsWithin visited

theorem Walks.of_none (fuel : Nat) (next : rpcKeypairNext buffer = .ok (after, none))
    (within : FramesWithin buffer) : Walks buffer (fuel + 1) := by
  have here : ∀ visited, Visits buffer visited → visited = buffer := by
    intro visited visits
    cases visits with
    | here => rfl
    | next found _ => cases next.symm.trans found
  refine ⟨?_, ?_, ?_⟩
  · intro req
    exact ⟨req, by simp only [rpcParserLoop, next, bind, Except.bind, pure, Except.pure]⟩
  · intro visited visits
    rw [here visited visits]
    exact within
  · intro visited visits
    rw [here visited visits]
    intro _ _ _ later key value size _ found
    cases next.symm.trans found

theorem Walks.of_some {key value : Bytes} {size : Nat}
    (next : rpcKeypairNext buffer = .ok (after, some (key, value, (size : Int))))
    (terminated : 0 ∈ key) (room : size ≤ value.length) (within : FramesWithin buffer)
    (pairs : PairsWithin buffer) (later : Walks after fuel) : Walks buffer (fuel + 1) := by
  have cases_visits : ∀ visited, Visits buffer visited → visited = buffer ∨ Visits after visited := by
    intro visited visits
    cases visits with
    | here => exact .inl rfl
    | next found rest =>
      obtain ⟨rfl, _⟩ := Prod.mk.inj (Except.ok.inj (next.symm.trans found))
      exact .inr rest
  refine ⟨?_, ?_, ?_⟩
  · intro req
    obtain ⟨longer, added⟩ := rpcParserAdd_defined req terminated room
    obtain ⟨result, done⟩ := later.returns longer
    exact ⟨result, by simp only [rpcParserLoop, next, added, bind, Except.bind, done]⟩
  · intro visited visits
    rcases cases_visits visited visits with rfl | rest
    · exact within
    · exact later.frames visited rest
  · intro visited visits
    rcases cases_visits visited visits with rfl | rest
    · exact pairs
    · exact later.pairs visited rest

private theorem framesWithin_unframed (inside : position ≤ buffer.chunkUsed)
    (unframed : ¬ Framed buffer position) : FramesWithin (buffer.seek position) := by
  intro after frame next
  exact absurd (Framed.of_next inside next) unframed

theorem Framed.framesWithin (framed : Framed buffer position)
    (forward : 0 < sizeofSize + announced (buffer.rest position ++ buffer.tail))
    (within : sizeofSize + announced (buffer.rest position ++ buffer.tail) ≤
      (buffer.rest position).length) : FramesWithin (buffer.seek position) := by
  intro after frame next
  have length := rest_length framed.inside
  obtain ⟨rfl, _⟩ := Prod.mk.inj (Except.ok.inj (framed.next.symm.trans next))
  simp only [RpcBuffer.seek, RpcBuffer.behind]
  omega

/-- The separator is within the frame, and so are the key before it and the value behind it. -/
theorem Framed.pairsWithin (framed : Framed buffer position)
    (separated : separator (buffer.rest position ++ buffer.tail) = some query)
    (inFrame : query + divide.length ≤ announced (buffer.rest position ++ buffer.tail)) :
    PairsWithin (buffer.seek position) := by
  intro after offset frameSize later key value size next found
  have keypair := framed.keypair
  rw [separated] at keypair
  obtain ⟨_, frame⟩ := Prod.mk.inj (Except.ok.inj (framed.next.symm.trans next))
  obtain ⟨rfl, rfl⟩ := Prod.mk.inj (Option.some.inj frame)
  obtain ⟨_, pair⟩ := Prod.mk.inj (Except.ok.inj (keypair.symm.trans found))
  obtain ⟨rfl, rest⟩ := Prod.mk.inj (Option.some.inj pair)
  obtain ⟨rfl, rfl⟩ := Prod.mk.inj rest
  have inside := separator_le separated
  have memory := congrArg List.length (rest_tail framed.inside)
  have written := buffer.used_le
  have sized := framed.sized
  have place := framed.inside
  rw [List.length_drop] at memory inside
  simp only [RpcBuffer.address, RpcBuffer.seek, List.length_drop]
  omega

/-- A well-formed body is walked safely: one case for each way the walk goes on. -/
theorem WellFramed.walks {rest : Bytes} (formed : WellFramed buffer.tail rest)
    (inside : position ≤ buffer.chunkUsed) (left : buffer.rest position = rest) (fuel : Nat)
    (enough : rest.length < fuel) : Walks (buffer.seek position) fuel := by
  induction formed generalizing position fuel with
  | stop few =>
    subst left
    have unframed : ¬ Framed buffer position := fun framed => Nat.not_le.mpr framed.enough few
    obtain ⟨fuel, rfl⟩ := Nat.exists_eq_add_one_of_ne_zero (Nat.ne_zero_of_lt enough)
    rcases rpcKeypairNext_unframed inside unframed with ⟨next, _⟩ | ⟨_, long, _⟩
    · exact .of_none fuel next (framesWithin_unframed inside unframed)
    · exact absurd few (Nat.not_le.mpr long)
  | refused sized refused =>
    subst left
    have unframed : ¬ Framed buffer position := by
      rintro ⟨_, _, _, nonzero, fits⟩
      rcases refused with zero | large
      · exact nonzero zero
      · exact absurd fits (Int.not_le.mpr large)
    obtain ⟨fuel, rfl⟩ := Nat.exists_eq_add_one_of_ne_zero (Nat.ne_zero_of_lt enough)
    rcases rpcKeypairNext_unframed inside unframed with ⟨next, _⟩ | ⟨_, _, short⟩
    · exact .of_none fuel next (framesWithin_unframed inside unframed)
    · exact absurd sized (Nat.not_le.mpr short)
  | unseparated sized nonzero forward within terminated separated =>
    subst left
    obtain ⟨fuel, rfl⟩ := Nat.exists_eq_add_one_of_ne_zero (Nat.ne_zero_of_lt enough)
    by_cases framed : Framed buffer position
    · have next := framed.keypair
      rw [separated] at next
      dsimp only at next
      rw [if_pos terminated] at next
      exact .of_none fuel next (framed.framesWithin forward within)
    · rcases rpcKeypairNext_unframed inside framed with ⟨next, _⟩ | ⟨_, _, short⟩
      · exact .of_none fuel next (framesWithin_unframed inside framed)
      · exact absurd sized (Nat.not_le.mpr short)
  | @pair rest query within terminated separated inFrame _ ih =>
    subst left
    have separating : divide.length = 2 := rfl
    have framed : Framed buffer position := by
      refine ⟨inside, ?_, ?_, ?_, ?_⟩
      · simp only [sizeofSize] at within
        omega
      · rw [List.length_append]
        omega
      · omega
      · omega
    have length := rest_length inside
    have forward : 0 < sizeofSize + announced (buffer.rest position ++ buffer.tail) := by omega
    obtain ⟨size, sized⟩ : ∃ size : Nat,
        announced (buffer.rest position ++ buffer.tail) - query - divide.length = size :=
      ⟨_, (Int.toNat_of_nonneg (by omega)).symm⟩
    have behind : buffer.behind position = (position + (sizeofSize +
        (announced (buffer.rest position ++ buffer.tail)).toNat) : Nat) := by
      rw [RpcBuffer.behind]
      omega
    have next := framed.keypair
    rw [separated] at next
    dsimp only at next
    rw [sized, behind] at next
    obtain ⟨fuel, rfl⟩ := Nat.exists_eq_add_one_of_ne_zero (Nat.ne_zero_of_lt enough)
    refine .of_some next terminated ?_ (framed.framesWithin forward within)
      (framed.pairsWithin separated inFrame) (ih ?_ ?_ fuel ?_)
    · rw [List.length_drop, List.length_drop, List.length_append]
      omega
    · omega
    · rw [RpcBuffer.rest, RpcBuffer.rest, List.drop_drop]
    · rw [List.length_drop]
      simp only [sizeofSize]
      omega

/-- A body is parsed safely exactly if it is a sequence of frames, each with a separator in it. -/
theorem parsesSafely_iff (buffer : RpcBuffer) :
    ParsesSafely buffer ↔ WellFramed buffer.tail buffer.bytes := by
  have start : rpcBufferRewind buffer = buffer.seek (0 : Nat) := rfl
  have whole : buffer.rest 0 = buffer.bytes := List.drop_zero
  constructor
  · intro safe
    rw [← whole]
    refine wellFramed_of_safe (Nat.zero_le _) ⟨?_, ?_, ?_⟩
    · obtain ⟨req, parsed⟩ := safe.terminates
      cases looped : rpcParserLoop (buffer.chunkUsed + 1) (rpcBufferRewind buffer) [] with
      | error fault =>
        rw [rpcParserNew, looped] at parsed
        cases parsed
      | ok result => exact ⟨_, _, result, start ▸ looped⟩
    · exact start ▸ safe.frames
    · exact start ▸ safe.pairs
  · intro formed
    have walks := formed.walks (Nat.zero_le _) whole (buffer.chunkUsed + 1)
      (by rw [RpcBuffer.bytes_length]; exact Nat.lt_succ_self _)
    rw [← start] at walks
    obtain ⟨result, done⟩ := walks.returns []
    exact ⟨⟨some result, by rw [rpcParserNew, done]; rfl⟩, walks.frames, walks.pairs⟩

end Body

/-- A frame of size -4 leaves the position where it was. -/
theorem frame_never_left : ¬ ParsesSafely (.filled [252, 255, 255, 255, 58, 32, 97]) := by
  intro safe
  have next : rpcBufferNext (rpcBufferRewind (.filled [252, 255, 255, 255, 58, 32, 97])) =
      .ok (rpcBufferRewind (.filled [252, 255, 255, 255, 58, 32, 97]), some (4, -4)) := rfl
  obtain ⟨forward, _⟩ := safe.frames _ (.here _) _ _ next
  exact absurd forward (Int.lt_irrefl _)

end Livezure.Rpc
