import Livezure.Rpc.RingBuffer

namespace Livezure.Rpc
open Livezure.Core

namespace RpcRb

/-- The unread bytes in stream order. -/
def content (rb : RpcRb) : Bytes :=
  if rb.head ≤ rb.tail then (rb.buffer.drop rb.head).take (rb.tail - rb.head)
  else rb.buffer.drop rb.head ++ rb.buffer.take rb.tail

/-- The unread bytes run past the end of the storage. -/
def Wrapped (rb : RpcRb) : Prop := rb.tail < rb.head

structure Valid (rb : RpcRb) : Prop where
  storage : rb.buffer.length = rb.capacity
  head_lt : rb.head < rb.capacity
  tail_lt : rb.tail < rb.capacity
  expand_pos : 0 < rb.expand

theorem content_linear {rb : RpcRb} (linear : rb.head ≤ rb.tail) :
    rb.content = (rb.buffer.drop rb.head).take (rb.tail - rb.head) := by
  simp [content, linear]

theorem content_wrapped {rb : RpcRb} (wrapped : rb.Wrapped) :
    rb.content = rb.buffer.drop rb.head ++ rb.buffer.take rb.tail := by
  have beyond : ¬ rb.head ≤ rb.tail := Nat.not_le.mpr wrapped
  simp [content, beyond]

theorem canRead_linear {rb : RpcRb} (order : rb.head ≤ rb.tail) :
    rpcRbCanRead rb = rb.tail - rb.head := by
  unfold rpcRbCanRead
  split
  · omega
  · split <;> omega

theorem canRead_wrapped {rb : RpcRb} (wrapped : rb.Wrapped) :
    rpcRbCanRead rb = rb.capacity - (rb.head - rb.tail) := by
  have order : rb.tail < rb.head := wrapped
  unfold rpcRbCanRead
  rw [if_neg (by omega), if_neg (by omega)]

theorem Valid.content_length {rb : RpcRb} (valid : rb.Valid) :
    rb.content.length = rpcRbCanRead rb := by
  have storage := valid.storage
  have headLt := valid.head_lt
  have tailLt := valid.tail_lt
  by_cases order : rb.head ≤ rb.tail
  · rw [content_linear order, canRead_linear order, List.length_take, List.length_drop]
    omega
  · have wrapped : rb.Wrapped := Nat.not_le.mp order
    rw [content_wrapped wrapped, canRead_wrapped wrapped, List.length_append, List.length_drop,
      List.length_take]
    omega

theorem Wrapped.content_ne_nil {rb : RpcRb} (wrapped : rb.Wrapped) (valid : rb.Valid) :
    rb.content ≠ [] := by
  have storage := valid.storage
  have headLt := valid.head_lt
  intro empty
  have size := congrArg List.length empty
  rw [content_wrapped wrapped, List.length_append, List.length_drop, List.length_nil] at size
  omega

end RpcRb

theorem rpcRbNew_valid {capacity expand : Nat} (positive : 0 < capacity) (growing : 0 < expand) :
    (rpcRbNew capacity expand).Valid :=
  ⟨by simp [rpcRbNew], positive, positive, growing⟩

@[simp] theorem rpcRbNew_content (capacity expand : Nat) :
    (rpcRbNew capacity expand).content = [] := by
  simp [RpcRb.content, rpcRbNew]

/-- In the linear layout a read hands out the storage itself and only moves `head`. -/
theorem rpcRbRead_linear {rb : RpcRb} (linear : rb.head < rb.tail)
    (within : count ≤ rpcRbCanRead rb) :
    rpcRbRead rb count =
      .ok ⟨{ rb with head := rb.head + count }, .storage rb.generation rb.head, count⟩ := by
  have least : min count (rpcRbCanRead rb) = count := Nat.min_eq_left within
  simp [rpcRbRead, rpcRbReadFuel, linear, least]

theorem RpcRb.load_storage (rb : RpcRb) (offset size : Nat)
    (room : offset + size ≤ rb.buffer.length) :
    rb.load (.storage rb.generation offset) size = .ok ((rb.buffer.drop offset).take size) := by
  have inside : 0 + size ≤ (rb.buffer.drop offset).length := by
    rw [List.length_drop]
    omega
  simp only [load, memory, ↓reduceIte, bind, Except.bind]
  rw [slice_ok inside, List.drop_zero]

/-- The side buffer after a read of `count` bytes that does not cross the end. -/
def sideBuffer (rb : RpcRb) (count : Nat) : Bytes :=
  splice (rpcRbReserve rb count).retBuffer 0 ((rb.buffer.drop rb.head).take count)

@[simp] theorem rpcRbReserve_buffer (rb : RpcRb) (count : Nat) :
    (rpcRbReserve rb count).buffer = rb.buffer := by
  unfold rpcRbReserve
  split <;> rfl

@[simp] theorem rpcRbReserve_head (rb : RpcRb) (count : Nat) :
    (rpcRbReserve rb count).head = rb.head := by
  unfold rpcRbReserve
  split <;> rfl

@[simp] theorem rpcRbReserve_tail (rb : RpcRb) (count : Nat) :
    (rpcRbReserve rb count).tail = rb.tail := by
  unfold rpcRbReserve
  split <;> rfl

@[simp] theorem rpcRbReserve_capacity (rb : RpcRb) (count : Nat) :
    (rpcRbReserve rb count).capacity = rb.capacity := by
  unfold rpcRbReserve
  split <;> rfl

@[simp] theorem rpcRbReserve_expand (rb : RpcRb) (count : Nat) :
    (rpcRbReserve rb count).expand = rb.expand := by
  unfold rpcRbReserve
  split <;> rfl

@[simp] theorem rpcRbReserve_strayed (rb : RpcRb) (count : Nat) :
    (rpcRbReserve rb count).strayed = rb.strayed := by
  unfold rpcRbReserve
  split <;> rfl

@[simp] theorem rpcRbReserve_generation (rb : RpcRb) (count : Nat) :
    (rpcRbReserve rb count).generation = rb.generation := by
  unfold rpcRbReserve
  split <;> rfl

theorem rpcRbReserve_room (rb : RpcRb) (count : Nat) :
    count ≤ (rpcRbReserve rb count).retBuffer.length := by
  unfold rpcRbReserve
  split
  · simp
  · omega

/-- A wrapped read that ends before the end of the storage copies to the side buffer. -/
theorem rpcRbRead_inside {rb : RpcRb} (valid : rb.Valid) (layout : rb.tail ≤ rb.head)
    (inside : count < rb.capacity - rb.head) :
    rpcRbRead rb count =
      .ok ⟨{ rpcRbReserve rb count with retBuffer := sideBuffer rb count, head := rb.head + count },
        .ret (rpcRbReserve rb count).retGeneration, count⟩ := by
  have beyond : ¬ rb.head < rb.tail := Nat.not_lt.mpr layout
  have storage := valid.storage
  have taken : ((rb.buffer.drop rb.head).take count).length = count := by
    rw [List.length_take, List.length_drop]
    omega
  have room := rpcRbReserve_room rb count
  simp only [rpcRbRead, rpcRbReadFuel, if_neg beyond, rpcRbReserve_buffer, rpcRbReserve_head,
    rpcRbReserve_capacity, if_pos inside, bind, Except.bind, pure, Except.pure]
  rw [slice_ok (by omega)]
  simp only
  rw [copyInto_ok (by omega)]
  rfl

/-- A read up to the end of the storage or over it stores a pointer outside the ring. -/
theorem rpcRbRead_across {rb : RpcRb} (layout : rb.tail ≤ rb.head)
    (across : rb.capacity - rb.head ≤ count) (read : rpcRbRead rb count = .ok result) :
    result.rb.strayed = true := by
  have beyond : ¬ rb.head < rb.tail := Nat.not_lt.mpr layout
  have outside : ¬ count < rb.capacity - rb.head := Nat.not_lt.mpr across
  simp only [rpcRbRead, rpcRbReadFuel, if_neg beyond, rpcRbReserve_head, rpcRbReserve_capacity,
    if_neg outside] at read
  obtain ⟨_, _, read⟩ := bind_ok read
  obtain ⟨_, _, read⟩ := bind_ok read
  obtain ⟨_, _, read⟩ := bind_ok read
  rw [← Except.ok.inj read]

/-- What a read does to the byte queue, as long as it stores nothing outside the ring. -/
structure ReadsQueue (rb : RpcRb) (count : Nat) (result : RbRead) : Prop where
  clean : rb.strayed = false
  valid : result.rb.Valid
  size : result.size = count
  bytes : result.rb.load result.data count = .ok (rb.content.take count)
  content : result.rb.content = rb.content.drop count
  layout : result.rb.Wrapped ↔ rb.Wrapped

theorem ReadsQueue.canRead {rb : RpcRb} {result : RbRead} (reads : ReadsQueue rb count result)
    (valid : rb.Valid) : rpcRbCanRead result.rb = rpcRbCanRead rb - count := by
  rw [← reads.valid.content_length, reads.content, List.length_drop, valid.content_length]

private theorem readsQueue_linear {rb : RpcRb} (valid : rb.Valid) (clean : rb.strayed = false)
    (linear : rb.head < rb.tail) (within : count ≤ rpcRbCanRead rb) :
    ReadsQueue rb count
      ⟨{ rb with head := rb.head + count }, .storage rb.generation rb.head, count⟩ := by
  have storage := valid.storage
  have tailLt := valid.tail_lt
  have room : rb.head + count ≤ rb.tail := by
    rw [RpcRb.canRead_linear (Nat.le_of_lt linear)] at within
    omega
  refine ⟨clean, ⟨storage, ?_, tailLt, valid.expand_pos⟩, rfl, ?_, ?_, ?_⟩
  · exact Nat.lt_of_le_of_lt room tailLt
  · have moved : ({ rb with head := rb.head + count } : RpcRb).load
        (.storage rb.generation rb.head) count = .ok ((rb.buffer.drop rb.head).take count) :=
      RpcRb.load_storage { rb with head := rb.head + count } _ _ (by simp only; omega)
    rw [moved, RpcRb.content_linear (Nat.le_of_lt linear), List.take_take]
    congr 2
    omega
  · rw [RpcRb.content_linear (Nat.le_of_lt linear), RpcRb.content_linear room, List.drop_take,
      List.drop_drop]
    simp only
    congr 1
    omega
  · simp only [RpcRb.Wrapped]
    omega

private theorem sideBuffer_load {rb : RpcRb} (valid : rb.Valid)
    (inside : rb.head + count ≤ rb.capacity) :
    slice (sideBuffer rb count) 0 count = .ok ((rb.buffer.drop rb.head).take count) := by
  have storage := valid.storage
  have room := rpcRbReserve_room rb count
  have taken : ((rb.buffer.drop rb.head).take count).length = count := by
    rw [List.length_take, List.length_drop]
    omega
  have upto := splice_upto (rpcRbReserve rb count).retBuffer
    ((rb.buffer.drop rb.head).take count) (Nat.zero_le _) (Nat.le_refl 0)
  rw [slice_ok]
  · rw [taken] at upto
    simpa [sideBuffer] using upto
  · rw [sideBuffer, splice_length (by omega)]
    omega

private theorem readsQueue_inside {rb : RpcRb} (valid : rb.Valid) (clean : rb.strayed = false)
    (layout : rb.tail ≤ rb.head) (within : count ≤ rpcRbCanRead rb)
    (inside : count < rb.capacity - rb.head) :
    ReadsQueue rb count
      ⟨{ rpcRbReserve rb count with retBuffer := sideBuffer rb count, head := rb.head + count },
        .ret (rpcRbReserve rb count).retGeneration, count⟩ := by
  have storage := valid.storage
  have loaded : slice (sideBuffer rb count) 0 count = .ok ((rb.buffer.drop rb.head).take count) :=
    sideBuffer_load valid (by omega)
  by_cases empty : rb.head = rb.tail
  · have none : count = 0 := by simpa [rpcRbCanRead, empty] using within
    subst none
    have nothing : rb.content = [] := by simp [RpcRb.content, empty]
    refine ⟨clean, ⟨by simp [storage], by simp; omega, by simp [valid.tail_lt],
      by simp [valid.expand_pos]⟩, rfl, ?_, ?_, ?_⟩
    · simpa [RpcRb.load, RpcRb.memory, bind, Except.bind, nothing] using loaded
    · simp [RpcRb.content, empty]
    · simp [RpcRb.Wrapped]
  · have wrapped : rb.Wrapped := Nat.lt_of_le_of_ne layout (Ne.symm empty)
    have still : ¬ rb.head + count ≤ rb.tail := by
      have gap : rb.tail < rb.head := wrapped
      omega
    have front : count ≤ (rb.buffer.drop rb.head).length := by
      rw [List.length_drop]
      omega
    refine ⟨clean, ⟨by simp [storage], by simp; omega, by simp [valid.tail_lt],
      by simp [valid.expand_pos]⟩, rfl, ?_, ?_, ?_⟩
    · rw [RpcRb.content_wrapped wrapped, List.take_append_of_le_length front]
      simpa [RpcRb.load, RpcRb.memory, bind, Except.bind] using loaded
    · rw [RpcRb.content_wrapped wrapped, List.drop_append_of_le_length front, List.drop_drop]
      simp [RpcRb.content, still]
    · simp only [RpcRb.Wrapped, rpcRbReserve_tail] at wrapped ⊢
      omega

/-- Every read that stores nothing outside the ring takes the next bytes of the queue. -/
theorem rpcRbRead_queue {rb : RpcRb} (valid : rb.Valid) (within : count ≤ rpcRbCanRead rb)
    (read : rpcRbRead rb count = .ok result) (clean : result.rb.strayed = false) :
    ReadsQueue rb count result := by
  by_cases linear : rb.head < rb.tail
  · rw [rpcRbRead_linear linear within] at read
    have same := Except.ok.inj read
    subst same
    exact readsQueue_linear valid clean linear within
  · have layout : rb.tail ≤ rb.head := Nat.not_lt.mp linear
    by_cases inside : count < rb.capacity - rb.head
    · rw [rpcRbRead_inside valid layout inside] at read
      have same := Except.ok.inj read
      subst same
      exact readsQueue_inside valid (by simpa using clean) layout within inside
    · have strayed := rpcRbRead_across layout (Nat.not_lt.mp inside) read
      rw [strayed] at clean
      cases clean

theorem sideBuffer_zero (rb : RpcRb) : sideBuffer rb 0 = rb.retBuffer := by
  simp [sideBuffer, splice, rpcRbReserve]

/-- What growing comes to: an `int` for the capacity, and a read of all there is. -/
theorem rpcRbGrow_ok {rb result : RpcRb} (grow : rpcRbGrow rb count = .ok result) :
    rpcRbCapacityNew rb count < 2 ^ 31 ∧
      ∃ read, rpcRbRead rb (rpcRbCanRead rb) = .ok read ∧ result.strayed = read.rb.strayed := by
  unfold rpcRbGrow at grow
  split at grow
  · rename_i fits
    obtain ⟨read, done, grow⟩ := bind_ok grow
    obtain ⟨_, _, grow⟩ := bind_ok grow
    obtain ⟨_, _, grow⟩ := bind_ok grow
    refine ⟨fits, read, done, ?_⟩
    rw [← Except.ok.inj grow]
  · cases grow

/-- Growth from the linear layout: the unread bytes stand at the front of a new block. -/
def grown (rb : RpcRb) (count : Nat) : RpcRb :=
  { rb with
    buffer := rb.content ++ freshBlock (count + rb.expand), head := 0, tail := rpcRbCanRead rb
    capacity := rpcRbCapacityNew rb count, generation := rb.generation + 1 }

private theorem splice_fresh (bytes : Bytes) (spare : Nat) :
    splice (freshBlock (bytes.length + spare)) 0 bytes = bytes ++ freshBlock spare := by
  simp [splice, freshBlock]

private theorem rpcRbGrow_linear {rb : RpcRb} (valid : rb.Valid) (clean : rb.strayed = false)
    (linear : ¬ rb.Wrapped) (fits : rpcRbCapacityNew rb count < 2 ^ 31) :
    rpcRbGrow rb count = .ok (grown rb count) := by
  have length := valid.content_length
  have order : rb.head ≤ rb.tail := Nat.not_lt.mp linear
  -- An empty ring takes the side-buffer branch of the read, with nothing to copy.
  have read : ∃ result, rpcRbRead rb (rpcRbCanRead rb) = .ok result ∧ result.rb.strayed = false ∧
      { result.rb with head := 0 } = { rb with head := 0 } := by
    by_cases empty : rb.head = rb.tail
    · have none : rpcRbCanRead rb = 0 := by simp [rpcRbCanRead, empty]
      have room : 0 < rb.capacity - rb.head := Nat.sub_pos_of_lt valid.head_lt
      rw [none]
      refine ⟨_, rpcRbRead_inside valid (Nat.le_of_eq empty.symm) room, by simpa using clean, ?_⟩
      simp [sideBuffer_zero, rpcRbReserve]
    · exact ⟨_, rpcRbRead_linear (Nat.lt_of_le_of_ne order empty) (Nat.le_refl _), clean, rfl⟩
  obtain ⟨result, done, unstrayed, rest⟩ := read
  have queue := rpcRbRead_queue valid (Nat.le_refl _) done unstrayed
  have bytes := queue.bytes
  rw [List.take_of_length_le (Nat.le_of_eq length)] at bytes
  have capacity : rpcRbCapacityNew rb count = rb.content.length + (count + rb.expand) := by
    rw [rpcRbCapacityNew, length, Nat.add_assoc]
  simp only [rpcRbGrow, if_pos fits, done, bind, Except.bind, queue.size, Int.toNat_natCast, bytes,
    pure, Except.pure]
  have room : 0 + rb.content.length ≤ (freshBlock (rpcRbCapacityNew rb count)).length := by
    rw [freshBlock_length, capacity]
    omega
  rw [copyInto_ok room]
  simp only [grown, capacity, splice_fresh, ← length]
  cases rb
  cases result with | mk inner data size =>
  cases inner
  simp_all

private theorem rpcRbGrow_wrapped {rb : RpcRb} (valid : rb.Valid) (wrapped : rb.Wrapped)
    (grow : rpcRbGrow rb count = .ok result) : result.strayed = true := by
  have headLt := valid.head_lt
  have layout : rb.tail < rb.head := wrapped
  have across : rb.capacity - rb.head ≤ rpcRbCanRead rb := by
    rw [RpcRb.canRead_wrapped wrapped]
    omega
  obtain ⟨_, read, done, same⟩ := rpcRbGrow_ok grow
  exact same.trans (rpcRbRead_across (Nat.le_of_lt layout) across done)

theorem grown_valid {rb : RpcRb} (valid : rb.Valid) (count : Nat) : (grown rb count).Valid := by
  have length := valid.content_length
  have positive := valid.expand_pos
  refine ⟨?_, ?_, ?_, positive⟩
  · simp [grown, length, rpcRbCapacityNew, Nat.add_assoc]
  · simp only [grown, rpcRbCapacityNew]
    omega
  · simp only [grown, rpcRbCapacityNew]
    omega

theorem grown_content {rb : RpcRb} (valid : rb.Valid) (count : Nat) :
    (grown rb count).content = rb.content := by
  have length := valid.content_length
  rw [RpcRb.content_linear (by simp [grown])]
  simp [grown, ← length]

/-- Writing behind `tail` without reaching the end of the storage. -/
def appended (rb : RpcRb) (data : Bytes) : RpcRb :=
  { rb with buffer := splice rb.buffer rb.tail data, tail := rb.tail + data.length }

theorem appended_content {rb : RpcRb} (valid : rb.Valid) (linear : ¬ rb.Wrapped)
    (room : rb.tail + data.length ≤ rb.capacity) :
    (appended rb data).content = rb.content ++ data := by
  have storage := valid.storage
  have order : rb.head ≤ rb.tail := Nat.not_lt.mp linear
  rw [RpcRb.content_linear (show (appended rb data).head ≤ _ by simp only [appended]; omega),
    RpcRb.content_linear order]
  have upto := splice_upto rb.buffer data (by omega) order
  simp only [appended]
  rw [← upto]
  congr 1
  omega

theorem appended_valid {rb : RpcRb} (valid : rb.Valid)
    (room : rb.tail + data.length < rb.capacity) : (appended rb data).Valid := by
  have storage := valid.storage
  refine ⟨?_, valid.head_lt, room, valid.expand_pos⟩
  simp only [appended]
  rw [splice_length (by omega), storage]

theorem rpcRbWrite_room {rb : RpcRb} (valid : rb.Valid) (linear : ¬ rb.Wrapped)
    (fits : data.length < rpcRbCanWrite rb) (room : rb.tail + data.length < rb.capacity) :
    rpcRbWrite rb data = .ok ⟨appended rb data, data.length⟩ := by
  have storage := valid.storage
  have order : rb.head ≤ rb.tail := Nat.not_lt.mp linear
  have small : ¬ data.length ≥ rpcRbCanWrite rb := Nat.not_le.mpr fits
  have short : data.length ≤ rb.capacity - rb.tail := by omega
  have inner : rb.tail + data.length ≠ rb.capacity := Nat.ne_of_lt room
  simp only [rpcRbWrite, rpcRbWriteFuel, rpcRbPut, if_neg small, bind, Except.bind, pure, Except.pure,
    if_pos order, if_pos short]
  rw [copyInto_ok (by omega)]
  simp [appended, inner]

theorem rpcRbWrite_grown {rb : RpcRb} (valid : rb.Valid) (clean : rb.strayed = false)
    (linear : ¬ rb.Wrapped) (large : rpcRbCanWrite rb ≤ data.length)
    (fits : rb.GrowthFits data.length) :
    rpcRbWrite rb data = .ok ⟨appended (grown rb data.length) data, data.length⟩ := by
  have positive := valid.expand_pos
  have storage := (grown_valid valid data.length).storage
  have order : (grown rb data.length).head ≤ (grown rb data.length).tail := Nat.zero_le _
  have room : (grown rb data.length).tail + data.length < (grown rb data.length).capacity := by
    simp only [grown, rpcRbCapacityNew]
    omega
  have short : data.length ≤ (grown rb data.length).capacity - (grown rb data.length).tail := by
    omega
  simp only [rpcRbWrite, rpcRbWriteFuel, rpcRbPut, if_pos large,
    rpcRbGrow_linear valid clean linear (fits large), bind, Except.bind, pure, Except.pure, if_pos order, if_pos short]
  rw [copyInto_ok (by omega)]
  simp [appended, Nat.ne_of_lt room]

/-- What is left of a write at the front of the storage fits before `head`. -/
theorem rest_fits {rb : RpcRb} {data : Bytes} (valid : rb.Valid) (order : rb.head ≤ rb.tail)
    (fits : data.length < rpcRbCanWrite rb) (cut : rb.capacity - rb.tail < data.length) (buffer : Bytes) :
    0 < rb.head ∧ (data.drop (rb.capacity - rb.tail)).length <
      rpcRbCanWrite { rb with buffer, tail := 0 } := by
  have headLt := valid.head_lt
  have tailLt := valid.tail_lt
  have free : rpcRbCanWrite rb = rb.capacity - (rb.tail - rb.head) := by
    rw [rpcRbCanWrite, RpcRb.canRead_linear order]
  have positive : 0 < rb.head := by omega
  have wrapped : RpcRb.Wrapped { rb with buffer, tail := 0 } := positive
  refine ⟨positive, ?_⟩
  rw [rpcRbCanWrite, RpcRb.canRead_wrapped wrapped, List.length_drop]
  simp only
  omega

/-- A write that fits and reaches the end of the storage leaves the ring wrapped. -/
theorem rpcRbWrite_past {rb : RpcRb} (valid : rb.Valid) (linear : ¬ rb.Wrapped)
    (fits : data.length < rpcRbCanWrite rb) (past : rb.capacity ≤ rb.tail + data.length) :
    ∃ after, rpcRbWrite rb data = .ok ⟨after, data.length⟩ ∧ after.Valid ∧ after.Wrapped ∧
      after.content = rb.content ++ data ∧ after.strayed = rb.strayed := by
  have storage := valid.storage
  have headLt := valid.head_lt
  have tailLt := valid.tail_lt
  have order : rb.head ≤ rb.tail := Nat.not_lt.mp linear
  have small : ¬ data.length ≥ rpcRbCanWrite rb := Nat.not_le.mpr fits
  have ahead : rb.tail + data.length - rb.capacity < rb.head := by
    rw [rpcRbCanWrite, RpcRb.canRead_linear order] at fits
    omega
  simp only [rpcRbWrite, rpcRbWriteFuel, rpcRbPut, if_neg small, bind, Except.bind, pure, Except.pure,
    if_pos order]
  by_cases exact : data.length ≤ rb.capacity - rb.tail
  · have whole : rb.tail + data.length = rb.capacity := by omega
    rw [if_pos exact, copyInto_ok (by omega)]
    simp only [whole, ↓reduceIte]
    refine ⟨_, rfl, ⟨?_, headLt, by simp only; omega, valid.expand_pos⟩,
      by simp only [RpcRb.Wrapped]; omega, ?_, rfl⟩
    · simp only
      rw [splice_length (by omega), storage]
    · rw [RpcRb.content_wrapped (by simp only [RpcRb.Wrapped]; omega), RpcRb.content_linear order]
      have upto := splice_upto rb.buffer data (by omega) order
      simp only [List.take_zero, List.append_nil]
      rw [← upto, List.take_of_length_le]
      rw [List.length_drop, splice_length (by omega)]
      omega
  · -- The part behind `tail` fills the storage, the rest starts over at its front.
    have cut : (data.take (rb.capacity - rb.tail)).length = rb.capacity - rb.tail := by
      rw [List.length_take]
      omega
    obtain ⟨fuel, enough⟩ : ∃ fuel, data.length = fuel + 1 := ⟨data.length - 1, by omega⟩
    have parts : rb.capacity - rb.tail + (data.length - (rb.capacity - rb.tail)) = data.length := by
      omega
    rw [if_neg exact, copyInto_ok (by omega), enough]
    simp only
    generalize middle : splice rb.buffer rb.tail (data.take (rb.capacity - rb.tail)) = buffer
    have filled : buffer.length = rb.capacity := by
      rw [← middle, splice_length (by omega), storage]
    have free := Nat.not_le.mpr (rest_fits valid order fits (Nat.not_le.mp exact) buffer).2
    have beyond : ¬ rb.head ≤ 0 := by omega
    simp only [rpcRbWriteFuel, rpcRbPut, if_neg free, bind, Except.bind, pure, Except.pure,
      if_neg beyond]
    rw [copyInto_ok (by rw [List.length_drop]; omega)]
    simp only [List.length_drop, parts, ← enough]
    refine ⟨_, rfl, ⟨?_, headLt, by simp only; omega, valid.expand_pos⟩,
      by simp only [RpcRb.Wrapped]; omega, ?_, rfl⟩
    · simp only
      rw [splice_length (by rw [List.length_drop]; omega), filled]
    · rw [RpcRb.content_wrapped (by simp only [RpcRb.Wrapped]; omega), RpcRb.content_linear order]
      have upto := splice_upto rb.buffer (data.take (rb.capacity - rb.tail)) (by omega) order
      have front := splice_upto buffer (data.drop (rb.capacity - rb.tail)) (Nat.zero_le _) (Nat.le_refl 0)
      rw [middle, cut, List.take_of_length_le (by rw [List.length_drop]; omega)] at upto
      simp only [List.drop_zero, Nat.sub_self, Nat.zero_add, List.take_zero, List.nil_append,
        List.length_drop] at front
      simp only [Nat.zero_add]
      rw [splice_after (by rw [List.length_drop]; omega) (by rw [List.length_drop]; omega), upto,
        front, List.append_assoc, List.take_append_drop]

private theorem rpcRbReadFuel_strayed {rb : RpcRb} (strayed : rb.strayed = true)
    (read : rpcRbReadFuel fuel rb count = .ok result) : result.rb.strayed = true := by
  cases fuel with
  | zero => cases read
  | succ fuel =>
    by_cases linear : rb.head < rb.tail
    · simp only [rpcRbReadFuel, if_pos linear] at read
      rw [← Except.ok.inj read]
      exact strayed
    · simp only [rpcRbReadFuel, if_neg linear] at read
      split at read
      · obtain ⟨_, _, read⟩ := bind_ok read
        obtain ⟨_, _, read⟩ := bind_ok read
        rw [← Except.ok.inj read]
        simpa using strayed
      · obtain ⟨_, _, read⟩ := bind_ok read
        obtain ⟨_, _, read⟩ := bind_ok read
        obtain ⟨_, _, read⟩ := bind_ok read
        rw [← Except.ok.inj read]

private theorem rpcRbGrow_strayed {rb : RpcRb} (strayed : rb.strayed = true)
    (grow : rpcRbGrow rb count = .ok result) : result.strayed = true := by
  obtain ⟨_, read, done, same⟩ := rpcRbGrow_ok grow
  exact same.trans (rpcRbReadFuel_strayed strayed done)

private theorem rpcRbPut_strayed {rb : RpcRb} (strayed : rb.strayed = true)
    (kept : ∀ rb data result, again rb data = .ok result → rb.strayed = true →
      result.rb.strayed = true)
    (put : rpcRbPut again rb data = .ok result) : result.rb.strayed = true := by
  simp only [rpcRbPut] at put
  split at put
  · split at put
    · obtain ⟨_, _, put⟩ := bind_ok put
      rw [← Except.ok.inj put]
      exact strayed
    · obtain ⟨_, _, put⟩ := bind_ok put
      obtain ⟨rest, done, put⟩ := bind_ok put
      rw [← Except.ok.inj put]
      exact kept _ _ rest done strayed
  · obtain ⟨_, _, put⟩ := bind_ok put
    rw [← Except.ok.inj put]
    exact strayed

private theorem rpcRbWriteFuel_strayed (fuel : Nat) (rb : RpcRb) (data : Bytes) (result : RbWrite)
    (write : rpcRbWriteFuel fuel rb data = .ok result) (strayed : rb.strayed = true) :
    result.rb.strayed = true := by
  induction fuel generalizing rb data result with
  | zero => cases write
  | succ fuel ih =>
    rw [rpcRbWriteFuel] at write
    split at write
    · obtain ⟨bigger, grow, write⟩ := bind_ok write
      exact rpcRbPut_strayed (rpcRbGrow_strayed strayed grow) ih write
    · exact rpcRbPut_strayed strayed ih write

/-- A write that fits into a ring that is wrapped leaves it so. -/
theorem rpcRbWrite_behind {rb : RpcRb} (valid : rb.Valid) (wrapped : rb.Wrapped)
    (fits : data.length < rpcRbCanWrite rb) :
    ∃ after, rpcRbWrite rb data = .ok ⟨after, data.length⟩ ∧ after.Valid ∧ after.Wrapped ∧
      after.content = rb.content ++ data ∧ after.strayed = rb.strayed := by
  have storage := valid.storage
  have headLt := valid.head_lt
  have layout : rb.tail < rb.head := wrapped
  have beyond : ¬ rb.head ≤ rb.tail := Nat.not_le.mpr layout
  have small : ¬ data.length ≥ rpcRbCanWrite rb := Nat.not_le.mpr fits
  have free : rpcRbCanWrite rb = rb.head - rb.tail := by
    rw [rpcRbCanWrite, RpcRb.canRead_wrapped wrapped]
    omega
  simp only [rpcRbWrite, rpcRbWriteFuel, rpcRbPut, if_neg small, bind, Except.bind, pure, Except.pure,
    if_neg beyond]
  rw [copyInto_ok (by omega)]
  refine ⟨_, rfl, ⟨?_, headLt, by simp only; omega, valid.expand_pos⟩,
    by simp only [RpcRb.Wrapped]; omega, ?_, rfl⟩
  · simp only
    rw [splice_length (by omega), storage]
  · rw [RpcRb.content_wrapped (by simp only [RpcRb.Wrapped]; omega), RpcRb.content_wrapped wrapped]
    have upto := splice_upto rb.buffer data
      (by omega : rb.tail ≤ rb.buffer.length) (Nat.zero_le _)
    simp only [List.drop_zero, Nat.sub_zero] at upto
    simp only
    rw [splice_after (by omega) (by omega), upto, List.append_assoc]

/-- Growing reads the whole wrapped ring, and strays. -/
theorem rpcRbWrite_wrapped_grown {rb : RpcRb} (valid : rb.Valid) (wrapped : rb.Wrapped)
    (large : rpcRbCanWrite rb ≤ data.length) (write : rpcRbWrite rb data = .ok result) :
    result.rb.strayed = true := by
  rw [rpcRbWrite, rpcRbWriteFuel, if_pos large] at write
  obtain ⟨bigger, grow, write⟩ := bind_ok write
  exact rpcRbPut_strayed (rpcRbGrow_wrapped valid wrapped grow)
    (rpcRbWriteFuel_strayed data.length) write

theorem rpcRbWrite_wrapped {rb : RpcRb} (valid : rb.Valid) (wrapped : rb.Wrapped)
    (write : rpcRbWrite rb data = .ok result) (clean : result.rb.strayed = false) :
    result.rb.Valid ∧ result.rb.Wrapped ∧ result.rb.content = rb.content ++ data ∧
      rb.strayed = false := by
  by_cases large : rpcRbCanWrite rb ≤ data.length
  · rw [rpcRbWrite_wrapped_grown valid wrapped large write] at clean
    cases clean
  · obtain ⟨after, done, kept, still, content, strayed⟩ :=
      rpcRbWrite_behind valid wrapped (Nat.not_le.mp large)
    obtain rfl := Except.ok.inj (done.symm.trans write)
    exact ⟨kept, still, content, strayed ▸ clean⟩

/-- A write that needs a capacity that is no `int` does not end well. -/
theorem rpcRbWrite_overflow {rb : RpcRb} (large : ¬rb.GrowthFits data.length) :
    rpcRbWrite rb data = .error .outOfBounds := by
  obtain ⟨grows, beyond⟩ := Classical.not_imp.mp large
  rw [rpcRbWrite, rpcRbWriteFuel, if_pos grows, rpcRbGrow, if_neg beyond]
  rfl

theorem RpcRb.GrowthFits.of_write {rb : RpcRb} (write : rpcRbWrite rb data = .ok result) :
    rb.GrowthFits data.length := by
  by_cases fits : rb.GrowthFits data.length
  · exact fits
  · rw [rpcRbWrite_overflow fits] at write
    cases write

end Livezure.Rpc
