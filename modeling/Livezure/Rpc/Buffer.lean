import Livezure.Rpc.Shell

/-! Byte buffers with a parse position (`rpc_buffer.c`) and the two ciphers they
are encrypted with (`rpc_crypt.c`). -/
namespace Livezure.Rpc
open Livezure.Core

def rpcBufferDefGrowSize : Nat := 64

def sizeofSize : Nat := 4

/-- `rpc_aes_crypt` and `rpc_tea_crypt`. They get the direction, the memory from
`in` on and `inlen`, and give the bytes of the block they allocate and `*outlen`. -/
structure RpcCrypt where
  aes : Bool → Bytes → Int → Except Fault (Bytes × Int)
  tea : Bool → Bytes → Int → Except Fault (Bytes × Int)

/-- Ciphers that fail: enough where every packet is sent in the clear. -/
def noCiphers : RpcCrypt where
  aes := fun _ _ _ => .error .uninitialised
  tea := fun _ _ _ => .error .uninitialised

/-- `rpc_buffer_t`. Of the `chunk_size` bytes of the chunk the first
`chunk.length` ones have been written. -/
structure RpcBuffer where
  chunk : Bytes
  chunkSize : Nat
  chunkUsed : Nat
  parsePosition : Int
  used_le : chunkUsed ≤ chunk.length
  chunk_le : chunk.length ≤ chunkSize
  deriving DecidableEq, Repr

namespace RpcBuffer

/-- The bytes in use: `rpc_buffer_get_buffer` and `rpc_buffer_get_size` together. -/
def bytes (buffer : RpcBuffer) : Bytes := buffer.chunk.take buffer.chunkUsed

def filled (bytes : Bytes) : RpcBuffer where
  chunk := bytes ++ [0]
  chunkSize := bytes.length + 1 + rpcBufferDefGrowSize
  chunkUsed := bytes.length
  parsePosition := 0
  used_le := by simp
  chunk_le := by simp

/-- `memcpy` to the start of a chunk, whose first `bytes.length` bytes are then in use. -/
def refill (chunk : Bytes) (chunkSize : Nat) (parsePosition : Int) (bytes : Bytes) :
    Except Fault RpcBuffer :=
  if room : bytes.length ≤ chunkSize ∧ chunk.length ≤ chunkSize then
    .ok {
      chunk := bytes ++ chunk.drop bytes.length
      chunkSize
      chunkUsed := bytes.length
      parsePosition
      used_le := by simp
      chunk_le := by
        simp only [List.length_append, List.length_drop]
        omega }
  else .error .outOfBounds

theorem refill_bytes {block content : Bytes} (refilled : refill block size position content = .ok result) :
    result.bytes = content := by
  unfold refill at refilled
  split at refilled
  · rw [← Except.ok.inj refilled]
    simp [RpcBuffer.bytes]
  · cases refilled

theorem bytes_length {buffer : RpcBuffer} : buffer.bytes.length = buffer.chunkUsed := by
  rw [RpcBuffer.bytes, List.length_take]
  exact Nat.min_eq_left buffer.used_le

@[simp] theorem filled_bytes (bytes : Bytes) : (filled bytes).bytes = bytes := by
  simp [RpcBuffer.bytes, filled]

end RpcBuffer

def rpcBufferNew (source : Option Bytes) (size : Int) : Except Fault (Option RpcBuffer) :=
  match source with
  | none => .ok none
  | some memory =>
    if size = 0 then .ok none
    else do
      let size ← sizeOr (size < 0) memory size
      let bytes ← slice memory 0 size
      return some (.filled bytes)

def rpcBufferRewind (buffer : RpcBuffer) : RpcBuffer := { buffer with parsePosition := 0 }

/-- The buffer that `rpc_buffer_append` allocates when it gets none. -/
def RpcBuffer.fresh (size : Nat) : RpcBuffer where
  chunk := []
  chunkSize := rpcBufferDefGrowSize + size
  chunkUsed := 0
  parsePosition := 0
  used_le := Nat.le_refl 0
  chunk_le := Nat.zero_le _

/-- `rpc_buffer_append` on the memory from `in` on. The test for a larger chunk
leaves out the four bytes that the size takes. -/
def rpcBufferAppend (buffer : Option RpcBuffer) (source : Bytes) (size : Int) :
    Except Fault RpcBuffer := do
  let size ← sizeOr (size ≤ 0) source size
  let bytes ← slice source 0 size
  let buffer := buffer.getD (.fresh size)
  let full := buffer.chunkUsed + size > buffer.chunkSize
  let chunkSize := if full then buffer.chunkUsed + size + rpcBufferDefGrowSize else buffer.chunkSize
  let chunk := if full then buffer.bytes else buffer.chunk
  RpcBuffer.refill chunk chunkSize buffer.parsePosition
    (buffer.bytes ++ leBytes sizeofSize size ++ bytes)

/-- `rpc_buffer_next`: the offset of the next frame in the chunk, and its size. -/
def rpcBufferNext (buffer : RpcBuffer) : Except Fault (RpcBuffer × Option (Int × Int)) :=
  if buffer.parsePosition + 2 ≥ buffer.chunkUsed then .ok (buffer, none)
  else if buffer.parsePosition < 0 then .error .outOfBounds
  else do
    let word ← slice buffer.chunk buffer.parsePosition.toNat sizeofSize
    let bufSize := (BitVec.ofNat 32 (leNat word)).toInt
    if bufSize = 0 then return (buffer, none)
    else if bufSize > buffer.chunkUsed - buffer.parsePosition then return (buffer, none)
    else
      let position := buffer.parsePosition + sizeofSize
      return ({ buffer with parsePosition := position + bufSize }, some (position, bufSize))

def encryptWith (cipher : Bool → Bytes → Int → Except Fault (Bytes × Int)) (buffer : RpcBuffer) :
    Except Fault RpcBuffer := do
  let (enc, encSize) ← cipher true buffer.chunk buffer.chunkUsed
  let enough := ¬ (buffer.chunkSize : Int) - sizeofSize < encSize
  let chunk := if enough then buffer.chunk else []
  let chunkSize := if enough then buffer.chunkSize else (encSize + sizeofSize + 1).toNat
  if encSize < 0 then .error .outOfBounds
  else do
    let encrypted ← slice enc 0 encSize.toNat
    RpcBuffer.refill chunk chunkSize buffer.parsePosition
      (leBytes sizeofSize buffer.chunkUsed ++ encrypted)

/-- The part of `rpc_buffer_decrypt` that the two ciphers share. The decrypted
size stands in front of the encrypted bytes and is not compared with theirs. -/
def decryptWith (cipher : Bool → Bytes → Int → Except Fault (Bytes × Int)) (buffer : RpcBuffer) :
    Except Fault RpcBuffer := do
  let (dec, decSize) ← cipher false (buffer.chunk.drop sizeofSize) (buffer.chunkUsed - sizeofSize)
  -- A chunk allocated anew is not initialised, and its first word is the size read next.
  if (buffer.chunkSize : Int) - sizeofSize < decSize then .error .uninitialised
  else do
    let original ← slice buffer.chunk 0 sizeofSize
    let used := (BitVec.ofNat 32 (leNat original)).toInt
    if used < 0 then .error .outOfBounds
    else do
      let decrypted ← slice dec 0 used.toNat
      RpcBuffer.refill buffer.chunk buffer.chunkSize buffer.parsePosition decrypted

def rpcBufferEncrypt (crypt : RpcCrypt) (buffer : Option RpcBuffer) (type : RpcCryptType) :
    Except Fault (Option RpcBuffer) :=
  match type, buffer with
  | .none, buffer => .ok buffer
  | .unknown, buffer => .ok buffer
  | _, none => .error .nullPointer
  | .aes, some buffer => some <$> encryptWith crypt.aes buffer
  | .tea, some buffer => some <$> encryptWith crypt.tea buffer

def rpcBufferDecrypt (crypt : RpcCrypt) (buffer : Option RpcBuffer) (type : RpcCryptType) :
    Except Fault (Option RpcBuffer) :=
  match type, buffer with
  | .none, buffer => .ok buffer
  | .unknown, buffer => .ok buffer
  | _, none => .error .nullPointer
  | .aes, some buffer => some <$> decryptWith crypt.aes buffer
  | .tea, some buffer => some <$> decryptWith crypt.tea buffer

theorem rpcBufferNew_filled {memory : Bytes} (positive : 0 < size) (room : size ≤ memory.length) :
    rpcBufferNew (some memory) size = .ok (some (.filled (memory.take size))) := by
  have nonzero : (size : Int) ≠ 0 := by omega
  have nonneg : ¬ (size : Int) < 0 := by omega
  simp only [rpcBufferNew, if_neg nonzero, sizeOr_known nonneg, bind, Except.bind, pure, Except.pure]
  rw [slice_ok (by omega), List.drop_zero]

end Livezure.Rpc
