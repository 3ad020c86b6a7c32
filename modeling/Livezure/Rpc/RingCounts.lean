import Livezure.Rpc.RingQueue

/-! What the ring counts over any sequence of writes and reads: its offsets, what it holds and
what its functions return, whatever becomes of the bytes of a read across the end. -/
namespace Livezure.Rpc
open Livezure.Core

namespace RpcRb

def call (rb : RpcRb) : RingCall → Option RpcRb
  | .write data =>
    match rpcRbWrite rb data with
    | .error _ => none
    | .ok result => some result.rb
  | .read count =>
    match rpcRbRead rb count with
    | .error _ => none
    | .ok result => some result.rb

def calls : System RpcRb RingCall where
  Start rb := ∃ capacity expand, 0 < capacity ∧ 0 < expand ∧ rb = rpcRbNew capacity expand
  next := call

/-- A write of something, or a read of what there is. -/
def Permitted (rb : RpcRb) : RingCall → Prop
  | .write data => 1 ≤ data.length
  | .read count => 1 ≤ count ∧ count ≤ rpcRbCanRead rb

instance (rb : RpcRb) : (call : RingCall) → Decidable (rb.Permitted call)
  | .write data => inferInstanceAs (Decidable (1 ≤ data.length))
  | .read count => inferInstanceAs (Decidable (1 ≤ count ∧ count ≤ rpcRbCanRead rb))

/-- The offsets lie in the storage, and a ring is never so full that it looks empty. -/
structure InPlace (rb : RpcRb) : Prop where
  storage : rb.buffer.length = rb.capacity
  head_lt : rb.head < rb.capacity
  tail_lt : rb.tail < rb.capacity
  never_full : rpcRbCanRead rb < rb.capacity

/-- The call stays in its blocks, ends, returns its count and moves the size by it. -/
def Counts (rb : RpcRb) : RingCall → Prop
  | .write data => ∃ result, rpcRbWrite rb data = .ok result ∧ result.size = data.length ∧
      result.rb.InPlace ∧ rpcRbCanRead result.rb = rpcRbCanRead rb + data.length
  | .read count => ∃ result, rpcRbRead rb count = .ok result ∧ result.size = count ∧
      result.rb.InPlace ∧ rpcRbCanRead rb = rpcRbCanRead result.rb + count

/-- A write that makes the ring grow finds an `int` for the new capacity. -/
def CapacityFits (rb : RpcRb) : RingCall → Prop
  | .write data => rb.GrowthFits data.length
  | .read _ => True

instance (rb : RpcRb) : (call : RingCall) → Decidable (rb.CapacityFits call)
  | .write data => inferInstanceAs (Decidable (rb.GrowthFits data.length))
  | .read _ => inferInstanceAs (Decidable True)

theorem Valid.never_full {rb : RpcRb} (valid : rb.Valid) : rpcRbCanRead rb < rb.capacity := by
  have headLt := valid.head_lt
  have tailLt := valid.tail_lt
  unfold rpcRbCanRead
  split
  · omega
  · split <;> omega

theorem Valid.inPlace {rb : RpcRb} (valid : rb.Valid) : rb.InPlace :=
  ⟨valid.storage, valid.head_lt, valid.tail_lt, valid.never_full⟩

end RpcRb

/-! ### Reads -/

section Reads
variable {rb : RpcRb} {count : Nat}

/-- The second part of a read across the end of the storage: it starts at the front. -/
theorem rpcRbReadFuel_front {fuel : Nat} (start : rb.head = 0) (room : 0 < rb.capacity)
    (within : count ≤ rb.tail) :
    ∃ data, rpcRbReadFuel (fuel + 1) rb count = .ok ⟨{ rb with head := count }, data, count⟩ := by
  by_cases linear : 0 < rb.tail
  · have held : rpcRbCanRead rb = rb.tail := by
      rw [RpcRb.canRead_linear (by omega), start, Nat.sub_zero]
    refine ⟨.storage rb.generation rb.head, ?_⟩
    rw [rpcRbReadFuel, if_pos (start ▸ linear), held, Nat.min_eq_left within, start]
    simp only [Nat.zero_add]
  · -- Nothing is left to read: the branch of a wrapped read copies no bytes.
    obtain rfl : count = 0 := by omega
    have reserved : rpcRbReserve rb 0 = rb := if_neg (Nat.not_lt_zero _)
    refine ⟨.ret rb.retGeneration, ?_⟩
    simp only [rpcRbReadFuel, start, if_neg linear, reserved, Nat.sub_zero, if_pos room, bind,
      Except.bind, pure, Except.pure]
    rw [slice_ok (Nat.zero_le _)]
    simp [copyInto, splice]

/-- A ring whose unread bytes reach the end of the storage is wrapped. -/
theorem wrapped_of_across (valid : rb.Valid) (layout : rb.tail ≤ rb.head)
    (across : rb.capacity - rb.head ≤ count) (within : count ≤ rpcRbCanRead rb) : rb.Wrapped := by
  have headLt := valid.head_lt
  rcases Nat.lt_or_eq_of_le layout with less | same
  · exact less
  · rw [RpcRb.canRead_linear (Nat.le_of_eq same.symm)] at within
    omega

/-- A read across the end of the storage: its second part is read from the front. -/
theorem rpcRbRead_over (valid : rb.Valid) (layout : rb.tail ≤ rb.head)
    (across : rb.capacity - rb.head ≤ count) (within : count ≤ rpcRbCanRead rb) :
    ∃ side, count ≤ side.length ∧
      rpcRbRead rb count = .ok ⟨{ rpcRbReserve rb count with
        retBuffer := side, head := count - (rb.capacity - rb.head), strayed := true },
        .ret (rpcRbReserve rb count).retGeneration, count⟩ := by
  have storage := valid.storage
  have headLt := valid.head_lt
  have room := rpcRbReserve_room rb count
  have rest : count - (rb.capacity - rb.head) ≤ rb.tail := by
    rw [RpcRb.canRead_wrapped (wrapped_of_across valid layout across within)] at within
    omega
  have taken : ((rb.buffer.drop rb.head).take (rb.capacity - rb.head)).length =
      rb.capacity - rb.head := by
    rw [List.length_take, List.length_drop]
    omega
  obtain ⟨side, copied⟩ : ∃ side, splice (rpcRbReserve rb count).retBuffer 0
      ((rb.buffer.drop rb.head).take (rb.capacity - rb.head)) = side := ⟨_, rfl⟩
  obtain ⟨less, enough⟩ : ∃ less, count = less + 1 := ⟨count - 1, by omega⟩
  have front : (rpcRbReserve rb count).capacity = rb.capacity ∧
      (rpcRbReserve rb count).tail = rb.tail := ⟨by simp, by simp⟩
  obtain ⟨data, second⟩ := @rpcRbReadFuel_front
    { rpcRbReserve rb count with retBuffer := side, head := 0 } (count - (rb.capacity - rb.head)) less rfl
    (show 0 < (rpcRbReserve rb count).capacity by omega)
    (show count - (rb.capacity - rb.head) ≤ (rpcRbReserve rb count).tail by omega)
  refine ⟨side, ?_, ?_⟩
  · rw [← copied, splice_length (by omega)]
    exact room
  · rw [← enough] at second
    simp only [rpcRbReserve_buffer, rpcRbReserve_capacity] at second
    have sizes : ((rb.capacity - rb.head : Nat) : Int) +
        (count - (rb.capacity - rb.head) : Nat) = count := by omega
    simp only [rpcRbRead, rpcRbReadFuel, if_neg (Nat.not_lt.mpr layout), rpcRbReserve_buffer,
      rpcRbReserve_head, rpcRbReserve_capacity, if_neg (Nat.not_lt.mpr across), bind, Except.bind,
      pure, Except.pure]
    rw [slice_ok (by omega)]
    simp only
    rw [copyInto_ok (by omega), copied]
    simp only
    rw [second]
    simp only [sizes]

/-- A read that returns its count, leaves so much less, and whose data can be loaded. -/
structure ReadCounts (rb : RpcRb) (count : Nat) (result : RbRead) : Prop where
  size : result.size = count
  valid : result.rb.Valid
  held : rpcRbCanRead rb = rpcRbCanRead result.rb + count
  loads : ∃ bytes, result.rb.load result.data count = .ok bytes ∧ bytes.length = count

theorem RpcRb.load_ret {rb : RpcRb} (room : count ≤ rb.retBuffer.length) :
    ∃ bytes, rb.load (.ret rb.retGeneration) count = .ok bytes ∧ bytes.length = count := by
  refine ⟨(rb.retBuffer.drop 0).take count, ?_, List.length_take_of_le (by simpa using room)⟩
  simp only [RpcRb.load, RpcRb.memory, ↓reduceIte, bind, Except.bind]
  rw [slice_ok (by omega)]

private theorem readCounts_linear (valid : rb.Valid) (linear : rb.head < rb.tail)
    (within : count ≤ rpcRbCanRead rb) :
    ReadCounts rb count
      ⟨{ rb with head := rb.head + count }, .storage rb.generation rb.head, count⟩ := by
  have storage := valid.storage
  have tailLt := valid.tail_lt
  have held := RpcRb.canRead_linear (Nat.le_of_lt linear)
  have order : rb.head + count ≤ rb.tail := by omega
  refine ⟨rfl, ⟨storage, Nat.lt_of_le_of_lt order tailLt, tailLt, valid.expand_pos⟩, ?_, ?_⟩
  · rw [held, RpcRb.canRead_linear order]
    simp only
    omega
  · refine ⟨_, RpcRb.load_storage _ _ _ (by simp only; omega), ?_⟩
    rw [List.length_take, List.length_drop]
    simp only
    omega

private theorem readCounts_inside (valid : rb.Valid) (layout : rb.tail ≤ rb.head)
    (within : count ≤ rpcRbCanRead rb) (inside : count < rb.capacity - rb.head) :
    ReadCounts rb count
      ⟨{ rpcRbReserve rb count with retBuffer := sideBuffer rb count, head := rb.head + count },
        .ret (rpcRbReserve rb count).retGeneration, count⟩ := by
  have storage := valid.storage
  have room := rpcRbReserve_room rb count
  have taken : ((rb.buffer.drop rb.head).take count).length = count := by
    rw [List.length_take, List.length_drop]
    omega
  have side : count ≤ (sideBuffer rb count).length := by
    rw [sideBuffer, splice_length (by omega)]
    exact room
  refine ⟨rfl, ⟨by simp [storage], by simp; omega, by simp [valid.tail_lt], by simp [valid.expand_pos]⟩,
    ?_, RpcRb.load_ret side⟩
  rcases Nat.lt_or_eq_of_le layout with wrapped | empty
  · rw [RpcRb.canRead_wrapped wrapped, RpcRb.canRead_wrapped (by simp only [RpcRb.Wrapped]; simp; omega)]
    simp only [rpcRbReserve_tail, rpcRbReserve_capacity]
    omega
  · have nothing := RpcRb.canRead_linear (Nat.le_of_eq empty.symm)
    obtain rfl : count = 0 := by omega
    rw [nothing, RpcRb.canRead_linear (by simp [empty])]
    simp

private theorem rpcRbRead_counts (valid : rb.Valid) (within : count ≤ rpcRbCanRead rb) :
    ∃ result, rpcRbRead rb count = .ok result ∧ ReadCounts rb count result := by
  by_cases linear : rb.head < rb.tail
  · exact ⟨_, rpcRbRead_linear linear within, readCounts_linear valid linear within⟩
  · have layout := Nat.not_lt.mp linear
    by_cases inside : count < rb.capacity - rb.head
    · exact ⟨_, rpcRbRead_inside valid layout inside, readCounts_inside valid layout within inside⟩
    · have across := Nat.not_lt.mp inside
      obtain ⟨side, room, done⟩ := rpcRbRead_over valid layout across within
      have wrapped := wrapped_of_across valid layout across within
      have held := RpcRb.canRead_wrapped wrapped
      have order : count - (rb.capacity - rb.head) ≤ rb.tail := by omega
      have headLt := valid.head_lt
      have tailLt := valid.tail_lt
      have gap : rb.tail < rb.head := wrapped
      refine ⟨_, done, rfl, ⟨by simp [valid.storage], ?_, by simp [tailLt], by simp [valid.expand_pos]⟩,
        ?_, RpcRb.load_ret room⟩
      · simp only [rpcRbReserve_capacity]
        omega
      · rw [held, RpcRb.canRead_linear (by simpa using order)]
        simp only [rpcRbReserve_tail]
        omega

end Reads

/-! ### Writes -/

section Writes
variable {rb : RpcRb} {data : Bytes} {count : Nat}

/-- Growth moves what the ring holds to the front of a larger block, from either layout. -/
theorem rpcRbGrow_counts (valid : rb.Valid) (fits : rpcRbCapacityNew rb count < 2 ^ 31) :
    ∃ after, rpcRbGrow rb count = .ok after ∧ after.Valid ∧ after.head = 0 ∧
      after.tail = rpcRbCanRead rb ∧ after.capacity = rpcRbCanRead rb + count + rb.expand := by
  obtain ⟨result, done, counts⟩ := rpcRbRead_counts valid (Nat.le_refl _)
  obtain ⟨bytes, loaded, length⟩ := counts.loads
  have positive := valid.expand_pos
  have room : 0 + bytes.length ≤ (freshBlock (rpcRbCapacityNew rb count)).length := by
    rw [freshBlock_length, rpcRbCapacityNew]
    omega
  simp only [rpcRbGrow, if_pos fits, done, bind, Except.bind, counts.size, Int.toNat_natCast, loaded, pure, Except.pure]
  rw [copyInto_ok room]
  refine ⟨_, rfl, ⟨?_, ?_, ?_, counts.valid.expand_pos⟩, rfl, rfl, rfl⟩
  · simp only
    rw [splice_length room, freshBlock_length]
  · simp only [rpcRbCapacityNew]
    omega
  · simp only [rpcRbCapacityNew]
    omega

private theorem rpcRbWrite_large (valid : rb.Valid) (large : rpcRbCanWrite rb ≤ data.length)
    (fits : rb.GrowthFits data.length) :
    ∃ after, rpcRbWrite rb data = .ok ⟨after, data.length⟩ ∧ after.Valid ∧
      rpcRbCanRead after = rpcRbCanRead rb + data.length := by
  obtain ⟨bigger, grow, still, head, tail, capacity⟩ := rpcRbGrow_counts valid (fits large)
  have positive := valid.expand_pos
  have storage := still.storage
  have order : bigger.head ≤ bigger.tail := by omega
  have short : data.length ≤ bigger.capacity - bigger.tail := by omega
  have room : bigger.tail + data.length < bigger.capacity := by omega
  rw [rpcRbWrite, rpcRbWriteFuel, if_pos large, grow]
  simp only [bind, Except.bind, rpcRbPut, if_pos order, if_pos short, pure, Except.pure]
  rw [copyInto_ok (by omega)]
  have inner : bigger.tail + data.length ≠ bigger.capacity := Nat.ne_of_lt room
  simp only [if_neg inner]
  refine ⟨appended bigger data, rfl, appended_valid still room, ?_⟩
  rw [RpcRb.canRead_linear (by simp only [appended]; omega)]
  simp only [appended]
  omega

/-- A write whose capacity fits ends inside the storage, and the ring then holds so much more. -/
theorem rpcRbWrite_counts (valid : rb.Valid) (capacity : rb.GrowthFits data.length) :
    ∃ after, rpcRbWrite rb data = .ok ⟨after, data.length⟩ ∧ after.Valid ∧
      rpcRbCanRead after = rpcRbCanRead rb + data.length := by
  by_cases large : rpcRbCanWrite rb ≤ data.length
  · exact rpcRbWrite_large valid large capacity
  · have fits := Nat.not_le.mp large
    have sized {after : RpcRb} (still : after.Valid) (content : after.content = rb.content ++ data) :
        rpcRbCanRead after = rpcRbCanRead rb + data.length := by
      rw [← still.content_length, content, List.length_append, valid.content_length]
    by_cases wrapped : rb.Wrapped
    · obtain ⟨after, done, still, _, content, _⟩ := rpcRbWrite_behind valid wrapped fits
      exact ⟨after, done, still, sized still content⟩
    · by_cases room : rb.tail + data.length < rb.capacity
      · have still := appended_valid valid room
        exact ⟨_, rpcRbWrite_room valid wrapped fits room, still,
          sized still (appended_content valid wrapped (Nat.le_of_lt room))⟩
      · obtain ⟨after, done, still, _, content, _⟩ :=
          rpcRbWrite_past valid wrapped fits (Nat.not_lt.mp room)
        exact ⟨after, done, still, sized still content⟩

end Writes

/-! ### Sequences -/

namespace RpcRb

/-- The ring is in place, and the calls to come write something or read what there is. -/
structure Ready (rb : RpcRb) (rest : List RingCall) : Prop where
  valid : rb.Valid
  permitted : calls.Guarded Permitted rb rest

/-- A call counts exactly where a capacity that it computes is an `int`. -/
theorem Valid.counts_iff {rb : RpcRb} (valid : rb.Valid) (call : RingCall) (permitted : rb.Permitted call) :
    rb.Counts call ↔ rb.CapacityFits call := by
  cases call with
  | write data =>
    constructor
    · rintro ⟨result, done, _⟩
      exact .of_write done
    · intro fits
      obtain ⟨after, done, still, held⟩ := rpcRbWrite_counts valid fits
      exact ⟨_, done, rfl, still.inPlace, held⟩
  | read count =>
    obtain ⟨result, done, counts⟩ := rpcRbRead_counts valid permitted.2
    exact iff_of_true ⟨result, done, counts.size, counts.valid.inPlace, counts.held⟩ trivial

theorem Valid.call_valid {rb after : RpcRb} (valid : rb.Valid) (call : RingCall)
    (permitted : rb.Permitted call) (step : rb.call call = some after) : after.Valid := by
  cases call with
  | write data =>
    by_cases fits : rb.GrowthFits data.length
    · obtain ⟨written, done, still, _⟩ := rpcRbWrite_counts valid fits
      rw [RpcRb.call, done] at step
      obtain rfl := Option.some.inj step
      exact still
    · rw [RpcRb.call, rpcRbWrite_overflow fits] at step
      cases step
  | read count =>
    obtain ⟨result, done, counts⟩ := rpcRbRead_counts valid permitted.2
    rw [RpcRb.call, done] at step
    obtain rfl := Option.some.inj step
    exact counts.valid

theorem Ready.step {rb after : RpcRb} {call : RingCall} {rest : List RingCall}
    (ready : rb.Ready (call :: rest)) (step : rb.call call = some after) : after.Ready rest :=
  ⟨ready.valid.call_valid call ready.permitted.1 step, ready.permitted.2 after step⟩

/-- In every sequence of writes and of reads of what there is, the ring counts right exactly as
long as each new capacity is an `int`. -/
theorem ringCounts_iff (capacity expand : Nat) (positive : 0 < capacity) (growing : 0 < expand)
    (list : List RingCall) (permitted : calls.Guarded Permitted (rpcRbNew capacity expand) list) :
    (rpcRbNew capacity expand).InPlace ∧ rpcRbCanRead (rpcRbNew capacity expand) = 0 ∧
      (calls.Guarded Counts (rpcRbNew capacity expand) list ↔
        calls.Guarded CapacityFits (rpcRbNew capacity expand) list) := by
  have valid := rpcRbNew_valid positive growing
  refine ⟨valid.inPlace, rfl, ?_⟩
  apply System.guarded_iff Ready _ _ ⟨valid, permitted⟩
  · intro rb call rest ready
    exact ready.valid.counts_iff call ready.permitted.1
  · intro rb call rest after ready _ step
    exact ready.step step

/-- A ring of eight bytes that is read across its end and grows while it is wrapped. -/
theorem counts_across :
    let list : List RingCall := [.write [1, 2, 3, 4, 5, 6], .read 5, .write [7, 8, 9], .read 4,
      .write [1, 2, 3, 4, 5, 6], .write [7, 8], .write [9], .read 9]
    (rpcRbNew 8 4).InPlace ∧ rpcRbCanRead (rpcRbNew 8 4) = 0 ∧
      (calls.Guarded Counts (rpcRbNew 8 4) list ↔ calls.Guarded CapacityFits (rpcRbNew 8 4) list) := by
  intro list
  exact ringCounts_iff 8 4 (by decide) (by decide) list (by decide)

/-- A ring of one byte that is to grow by as much as an `int` can hold. -/
theorem not_counts_overflow :
    ¬calls.Guarded Counts (rpcRbNew 1 (2 ^ 31 - 1)) [.write [0]] := by
  rintro ⟨⟨result, done, _⟩, _⟩
  cases done

end RpcRb
end Livezure.Rpc
