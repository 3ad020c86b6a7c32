import Livezure.Core.Memory

/-! The receive ring of a connection (`rpc_ringbuffer.c`). Offsets stand for the pointers `head`
and `tail`. Of the sums of sizes `capacity_new` is the first that may be no `int`. -/
namespace Livezure.Rpc
open Livezure.Core

/-- Where `*data` of a read points. Storage and side buffer are numbered, so a
pointer into a block that was freed since can be told from a live one. -/
inductive Place where
  | storage (generation offset : Nat)
  | ret (generation : Nat)
  deriving DecidableEq, Repr

structure RpcRb where
  buffer : Bytes
  head : Nat
  tail : Nat
  capacity : Nat
  expand : Nat
  /-- `ret_buffer`; its length is `ret_buffer_size`. -/
  retBuffer : Bytes
  generation : Nat
  retGeneration : Nat
  /-- A wrapped read has stored a pointer at `&rb->ret_buffer + size`. -/
  strayed : Bool
  deriving DecidableEq, Repr

/-- The contents of fresh memory are left open by C; nothing below depends on them. -/
def freshBlock (size : Nat) : Bytes := List.replicate size 0

@[simp] theorem freshBlock_length (size : Nat) : (freshBlock size).length = size := by
  simp [freshBlock]

def rpcRbNew (capacity expand : Nat) : RpcRb where
  buffer := freshBlock capacity
  head := 0
  tail := 0
  capacity := capacity
  expand := expand
  retBuffer := []
  generation := 0
  retGeneration := 0
  strayed := false

def rpcRbCanRead (rb : RpcRb) : Nat :=
  if rb.head = rb.tail then 0
  else if rb.head < rb.tail then rb.tail - rb.head
  else rb.capacity - (rb.head - rb.tail)

def rpcRbCanWrite (rb : RpcRb) : Nat := rb.capacity - rpcRbCanRead rb

/-- The bytes from a place to the end of its block. -/
def RpcRb.memory (rb : RpcRb) : Place → Except Fault Bytes
  | .storage generation offset =>
    if generation = rb.generation then .ok (rb.buffer.drop offset) else .error .useAfterFree
  | .ret generation =>
    if generation = rb.retGeneration then .ok rb.retBuffer else .error .useAfterFree

def RpcRb.load (rb : RpcRb) (place : Place) (size : Nat) : Except Fault Bytes := do
  let memory ← rb.memory place
  slice memory 0 size

/-- The side buffer is replaced when it is smaller than the read. -/
def rpcRbReserve (rb : RpcRb) (count : Nat) : RpcRb :=
  if rb.retBuffer.length < count then
    { rb with retBuffer := freshBlock count, retGeneration := rb.retGeneration + 1 }
  else rb

/-- The ring after a read, its `*data` and the value it returns. -/
structure RbRead where
  rb : RpcRb
  data : Place
  size : Int
  deriving DecidableEq, Repr

/-- `rpc_rb_read` for a count that is not negative. The recursive call of the
wrapped branch gets `&rb->ret_buffer + size` for its `data`: its bytes never
reach the side buffer, and a pointer is stored outside it. -/
def rpcRbReadFuel : Nat → RpcRb → Nat → Except Fault RbRead
  | 0, _, _ => .error .exhausted
  | fuel + 1, rb, count =>
    if rb.head < rb.tail then
      let size := min count (rpcRbCanRead rb)
      .ok ⟨{ rb with head := rb.head + size }, .storage rb.generation rb.head, size⟩
    else
      let rb := rpcRbReserve rb count
      if count < rb.capacity - rb.head then do
        let bytes ← slice rb.buffer rb.head count
        let retBuffer ← copyInto rb.retBuffer 0 bytes
        return ⟨{ rb with retBuffer, head := rb.head + count }, .ret rb.retGeneration, count⟩
      else do
        let size := rb.capacity - rb.head
        let bytes ← slice rb.buffer rb.head size
        let retBuffer ← copyInto rb.retBuffer 0 bytes
        let rest ← rpcRbReadFuel fuel { rb with retBuffer, head := 0 } (count - size)
        return ⟨{ rest.rb with strayed := true }, .ret rb.retGeneration, size + rest.size⟩

/-- `rpc_rb_read`. A negative count moves `head` backwards in the linear layout
and is a `memcpy` of a huge size in the wrapped one. -/
def rpcRbRead (rb : RpcRb) : Int → Except Fault RbRead
  | .ofNat count => rpcRbReadFuel (count + 1) rb count
  | .negSucc below =>
    if rb.head < rb.tail then
      if below < rb.head then
        .ok ⟨{ rb with head := rb.head - (below + 1) }, .storage rb.generation rb.head,
          .negSucc below⟩
      else .error .outOfBounds
    else .error .outOfBounds

def rpcRbCapacityNew (rb : RpcRb) (count : Nat) : Nat := rpcRbCanRead rb + count + rb.expand

/-- The growing part of `rpc_rb_write`: the unread bytes move to a larger block. A capacity that
is no `int` is a negative size for `malloc`. -/
def rpcRbGrow (rb : RpcRb) (count : Nat) : Except Fault RpcRb :=
  if rpcRbCapacityNew rb count < 2 ^ 31 then do
    let read ← rpcRbRead rb (rpcRbCanRead rb)
    let readbuf ← read.rb.load read.data read.size.toNat
    let buffer ← copyInto (freshBlock (rpcRbCapacityNew rb count)) 0 readbuf
    return { read.rb with
      buffer, head := 0, tail := read.size.toNat, capacity := rpcRbCapacityNew rb count
      generation := read.rb.generation + 1 }
  else .error .outOfBounds

/-- The ring after a write, and the value it returns. -/
structure RbWrite where
  rb : RpcRb
  size : Nat
  deriving DecidableEq

/-- The storing part of `rpc_rb_write`; `again` is its recursive call. -/
def rpcRbPut (again : RpcRb → Bytes → Except Fault RbWrite) (rb : RpcRb) (data : Bytes) :
    Except Fault RbWrite :=
  if rb.head ≤ rb.tail then
    let tailSize := rb.capacity - rb.tail
    if data.length ≤ tailSize then do
      let buffer ← copyInto rb.buffer rb.tail data
      let tail := rb.tail + data.length
      return ⟨{ rb with buffer, tail := if tail = rb.capacity then 0 else tail }, data.length⟩
    else do
      let buffer ← copyInto rb.buffer rb.tail (data.take tailSize)
      let rest ← again { rb with buffer, tail := 0 } (data.drop tailSize)
      return ⟨rest.rb, tailSize + rest.size⟩
  else do
    let buffer ← copyInto rb.buffer rb.tail data
    return ⟨{ rb with buffer, tail := rb.tail + data.length }, data.length⟩

def rpcRbWriteFuel : Nat → RpcRb → Bytes → Except Fault RbWrite
  | 0, _, _ => .error .exhausted
  | fuel + 1, rb, data =>
    if data.length ≥ rpcRbCanWrite rb then do
      let rb ← rpcRbGrow rb data.length
      rpcRbPut (rpcRbWriteFuel fuel) rb data
    else rpcRbPut (rpcRbWriteFuel fuel) rb data

def rpcRbWrite (rb : RpcRb) (data : Bytes) : Except Fault RbWrite :=
  rpcRbWriteFuel (data.length + 1) rb data

/-- A write that makes the ring grow finds an `int` for the new capacity. -/
def RpcRb.GrowthFits (rb : RpcRb) (count : Nat) : Prop :=
  rpcRbCanWrite rb ≤ count → rpcRbCapacityNew rb count < 2 ^ 31

instance (rb : RpcRb) (count : Nat) : Decidable (rb.GrowthFits count) :=
  inferInstanceAs (Decidable (_ → _))

end Livezure.Rpc
