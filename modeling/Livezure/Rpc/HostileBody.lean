import Livezure.Rpc.CryptInPlace

/-! `rpc_buffer_decrypt` on the body of a packet, whatever the peer put into it. -/
namespace Livezure.Rpc
open Livezure.Core

def RpcCrypt.cipher (crypt : RpcCrypt) :
    RpcCryptType → Option (Bool → Bytes → Int → Except Fault (Bytes × Int))
  | .aes => some crypt.aes
  | .tea => some crypt.tea
  | _ => none

/-- `rpc_buffer_decrypt` leaves the buffer as it was, or with content that the cipher made. -/
def RpcBuffer.DecryptsSafely (crypt : RpcCrypt) (type : RpcCryptType) (buffer : RpcBuffer) : Prop :=
  ∃ after, rpcBufferDecrypt crypt (some buffer) type = .ok (some after) ∧
    after.chunkUsed ≤ after.chunkSize ∧
    match crypt.cipher type with
    | none => after = buffer
    | some cipher => ∃ produced size, cipher false (buffer.chunk.drop sizeofSize)
        (buffer.chunkUsed - sizeofSize) = .ok (produced, size) ∧ after.bytes <+: produced

/-- The number of bytes that a cipher makes of a body. -/
def producedSize (body : Bytes) : RpcCryptType → Nat
  | .aes => (aesLength (body.length - sizeofSize)).toNat
  | .tea => qqDecryptCount (.ofBytes rpcPriKey) (body.drop sizeofSize)
  | _ => 0

/-- The size in front of a received body is one that the cipher reaches. -/
def ClaimFits (body : Bytes) (unwritten : Block rpcBufferDefGrowSize) (type : RpcCryptType) : Prop :=
  type = .none ∨ type = .unknown ∨
    0 ≤ ((RpcBuffer.filled body).withSlack unwritten.bytes).claimed ∧
      ((RpcBuffer.filled body).withSlack unwritten.bytes).claimed ≤ producedSize body type

section Cipher
variable {cipher : Bool → Bytes → Int → Except Fault (Bytes × Int)} {buffer : RpcBuffer}
  {produced : Bytes} {size : Int}

/-- Where no new chunk is allocated, the size in front decides. -/
theorem decryptWith_safe_iff
    (decodes : cipher false (buffer.chunk.drop sizeofSize) (buffer.chunkUsed - sizeofSize) =
      .ok (produced, size))
    (room : size ≤ buffer.chunkSize - sizeofSize) (inside : produced.length ≤ buffer.chunkSize)
    (word : sizeofSize ≤ buffer.chunk.length) :
    (∃ after, decryptWith cipher buffer = .ok after ∧ after.chunkUsed ≤ after.chunkSize ∧
      ∃ produced size, cipher false (buffer.chunk.drop sizeofSize)
        (buffer.chunkUsed - sizeofSize) = .ok (produced, size) ∧ after.bytes <+: produced) ↔
      0 ≤ buffer.claimed ∧ buffer.claimed ≤ produced.length := by
  constructor
  · rintro ⟨after, done, _⟩
    exact decryptWith_claimed decodes done
  · rintro ⟨positive, within⟩
    obtain ⟨after, done, bytes⟩ := decryptWith_copies decodes room (by omega) word positive within
    refine ⟨after, done, Nat.le_trans after.used_le after.chunk_le, produced, size, decodes, ?_⟩
    rw [bytes]
    exact List.take_prefix _ _

end Cipher

/-! ### The received chunk -/

section Received
variable (body : Bytes) (unwritten : Block rpcBufferDefGrowSize)

private theorem received_length :
    ((RpcBuffer.filled body).withSlack unwritten.bytes).chunk.length =
      body.length + 1 + rpcBufferDefGrowSize := by
  rw [RpcBuffer.withSlack_filled, List.length_append, List.length_append, Block.bytes_length,
    List.length_singleton]

/-- For a body of less than four bytes the length is negative, and so is the remainder. -/
theorem aesLength_received (size : Nat) :
    ∃ count : Nat, aesLength (size - sizeofSize) = (16 * count : Nat) ∧ 16 * count ≤ size + 16 := by
  by_cases long : sizeofSize ≤ size
  · refine ⟨(size - sizeofSize) / 16 + 1, ?_, ?_⟩
    · rw [← aesLength_eq, Int.ofNat_sub long]
    · rw [sizeofSize] at long ⊢
      omega
  · rw [sizeofSize] at long ⊢
    obtain rfl | rfl | rfl | rfl : size = 0 ∨ size = 1 ∨ size = 2 ∨ size = 3 := by omega
    · exact ⟨1, rfl, by decide⟩
    · exact ⟨1, rfl, by decide⟩
    · exact ⟨1, rfl, by decide⟩
    · exact ⟨0, rfl, by decide⟩

private theorem rpcAesCryptChunk_received (aes : AesCipher)
    (sized : body.length + 1 + rpcBufferDefGrowSize < 2 ^ 31) :
    ∃ produced size, rpcAesCryptChunk aes false
        (((RpcBuffer.filled body).withSlack unwritten.bytes).chunk.drop sizeofSize)
        (body.length - sizeofSize) = .ok (produced, size) ∧
      produced.length = producedSize body .aes ∧ size ≤ body.length + 28 ∧
      produced.length ≤ body.length + 28 := by
  obtain ⟨count, length, short⟩ := aesLength_received body.length
  have total := received_length body unwritten
  have grow : rpcBufferDefGrowSize = 64 := rfl
  have word : sizeofSize = 4 := rfl
  have fits : ((16 * count : Nat) : Int) < 2 ^ 31 := by omega
  let memory := ((RpcBuffer.filled body).withSlack unwritten.bytes).chunk.drop sizeofSize
  have behind : memory.length = body.length + 61 := by
    rw [List.length_drop, total]
    omega
  have read : slice memory 0 (16 * count) = .ok (memory.take (16 * count)) := by
    rw [slice_ok (by omega), List.drop_zero]
  have produced : (aesCbcEncrypt aes false (memory.take (16 * count))).length = 16 * count := by
    rw [aesCbcEncrypt_length, List.length_take, Nat.min_eq_left (by omega),
      Nat.mul_div_cancel_left _ (Nat.zero_lt_succ 15)]
  refine ⟨aesCbcEncrypt aes false (memory.take (16 * count)), (16 * count : Nat), ?_, ?_, by omega,
    by omega⟩
  · rw [rpcAesCryptChunk, length, if_pos fits, Int.toNat_natCast]
    change (slice memory 0 (16 * count) >>= _) = _
    rw [read]
    rfl
  · rw [produced, producedSize, length, Int.toNat_natCast]

private theorem received_behind :
    (((RpcBuffer.filled body).withSlack unwritten.bytes).chunk.drop sizeofSize).take
      (body.length - sizeofSize) = body.drop sizeofSize := by
  rw [RpcBuffer.withSlack_filled]
  by_cases long : sizeofSize ≤ body.length
  · rw [List.append_assoc, List.drop_append_of_le_length long]
    exact List.take_left' List.length_drop
  · have nothing : body.length - sizeofSize = 0 := by omega
    rw [nothing, List.take_zero, List.drop_eq_nil_of_le (by omega)]

private theorem rpcTeaCryptChunk_received (rand : Nat → Nat)
    (sized : body.length + 1 + rpcBufferDefGrowSize < 2 ^ 31) :
    ∃ produced size, rpcTeaCryptChunk rand false
        (((RpcBuffer.filled body).withSlack unwritten.bytes).chunk.drop sizeofSize)
        (body.length - sizeofSize) = .ok (produced, size) ∧
      produced.length = producedSize body .tea ∧ size ≤ body.length + 28 ∧
      produced.length ≤ body.length + 28 := by
  have total := received_length body unwritten
  have grow : rpcBufferDefGrowSize = 64 := rfl
  have word : sizeofSize = 4 := rfl
  let memory := ((RpcBuffer.filled body).withSlack unwritten.bytes).chunk.drop sizeofSize
  have behind : memory.length = body.length + 61 := by
    rw [List.length_drop, total]
    omega
  have inlen : ((body.length : Int) - sizeofSize).toNat = body.length - sizeofSize := by omega
  have read : slice memory 0 (body.length - sizeofSize) = .ok (body.drop sizeofSize) := by
    rw [slice_ok (by omega), List.drop_zero]
    exact congrArg _ (received_behind body unwritten)
  have length : (body.drop sizeofSize).length = body.length - sizeofSize := List.length_drop
  let outcome := qqDecrypt (.ofBytes rpcPriKey) (body.drop sizeofSize)
    ((body.length : Int) - sizeofSize + 32)
  obtain ⟨produced, size⟩ : outcome.1.length = producedSize body .tea ∧
      outcome.2 ≤ (body.length : Int) - sizeofSize + 32 := qqDecrypt_produces _ (by omega)
  have count : producedSize body .tea ≤ (body.drop sizeofSize).length := qqDecryptCount_le _ _
  refine ⟨outcome.1, outcome.2, ?_, produced, by omega, by omega⟩
  rw [rpcTeaCryptChunk_eq (by omega), rpcTeaCrypt, inlen]
  change (slice memory 0 (body.length - sizeofSize) >>= _) = _
  rw [read]
  rfl

private theorem decryptWith_received_iff {cipher : Bool → Bytes → Int → Except Fault (Bytes × Int)}
    {type : RpcCryptType}
    (decodes : ∃ produced size, cipher false
        (((RpcBuffer.filled body).withSlack unwritten.bytes).chunk.drop sizeofSize)
        (body.length - sizeofSize) = .ok (produced, size) ∧
      produced.length = producedSize body type ∧ size ≤ body.length + 28 ∧
      produced.length ≤ body.length + 28) :
    (∃ after, decryptWith cipher ((RpcBuffer.filled body).withSlack unwritten.bytes) = .ok after ∧
      after.chunkUsed ≤ after.chunkSize ∧ ∃ produced size, cipher false
        (((RpcBuffer.filled body).withSlack unwritten.bytes).chunk.drop sizeofSize)
        (body.length - sizeofSize) = .ok (produced, size) ∧ after.bytes <+: produced) ↔
      0 ≤ ((RpcBuffer.filled body).withSlack unwritten.bytes).claimed ∧
        ((RpcBuffer.filled body).withSlack unwritten.bytes).claimed ≤ producedSize body type := by
  obtain ⟨produced, size, decodes, length, room, short⟩ := decodes
  have chunkSize : ((RpcBuffer.filled body).withSlack unwritten.bytes).chunkSize =
      body.length + 1 + 64 := rfl
  have total := received_length body unwritten
  have grow : rpcBufferDefGrowSize = 64 := rfl
  have word : sizeofSize = 4 := rfl
  rw [← length]
  exact decryptWith_safe_iff decodes (by omega) (by omega) (by omega)

end Received

/-- The call in `rpc_io_enqueue` is safe exactly where the size in front of the body is one
that the cipher reaches. -/
theorem decryptsSafely_iff (aes : AesCipher) (rand : Nat → Nat) (body : Bytes)
    (unwritten : Block rpcBufferDefGrowSize)
    (sized : body.length + 1 + rpcBufferDefGrowSize < 2 ^ 31) (crypt : BitVec 6) :
    ((RpcBuffer.filled body).withSlack unwritten.bytes).DecryptsSafely (rpcCryptChunk aes rand)
        (.ofField crypt) ↔ ClaimFits body unwritten (.ofField crypt) := by
  generalize RpcCryptType.ofField crypt = type
  have chunkUsed : ((RpcBuffer.filled body).withSlack unwritten.bytes).chunkUsed = body.length := rfl
  cases type with
  | none => exact iff_of_true ⟨_, rfl, Nat.le_trans (RpcBuffer.used_le _) (RpcBuffer.chunk_le _), rfl⟩ (.inl rfl)
  | unknown =>
    exact iff_of_true ⟨_, rfl, Nat.le_trans (RpcBuffer.used_le _) (RpcBuffer.chunk_le _), rfl⟩
      (.inr (.inl rfl))
  | aes =>
    have safe := decryptWith_received_iff body unwritten (rpcAesCryptChunk_received body unwritten aes sized)
    simp only [RpcBuffer.DecryptsSafely, rpcBufferDecrypt, map_some_ok, ClaimFits, RpcCrypt.cipher,
      reduceCtorEq, false_or]
    exact safe
  | tea =>
    have safe := decryptWith_received_iff body unwritten (rpcTeaCryptChunk_received body unwritten rand sized)
    simp only [RpcBuffer.DecryptsSafely, rpcBufferDecrypt, map_some_ok, ClaimFits, RpcCrypt.cipher,
      reduceCtorEq, false_or]
    exact safe

/-- Three bytes in the block behind the size. -/
theorem decryptsSafely_block :
    ((RpcBuffer.filled ([3, 0, 0, 0] ++ List.replicate 16 0x5a)).withSlack
      (Block.zero 64).bytes).DecryptsSafely (rpcCryptChunk rpcAes fun _ => 0) (.ofField 1) :=
  (decryptsSafely_iff rpcAes (fun _ => 0) _ _ (by decide) 1).mpr (.inr (.inr (by decide)))

/-- Four bytes that claim a hundred, where `qq_decrypt` gives none. -/
theorem not_decryptsSafely_short :
    ¬ ((RpcBuffer.filled [100, 0, 0, 0]).withSlack (Block.zero 64).bytes).DecryptsSafely
      (rpcCryptChunk rpcAes fun _ => 0) (.ofField 2) := by
  rintro ⟨after, done, _⟩
  have claimed := decryptWith_claimed rfl (map_some_ok.mp done)
  exact absurd claimed (by decide)

end Livezure.Rpc
