import Livezure.Rpc.Crypt
import Livezure.Rpc.Keypair

/-! `rpc_buffer_encrypt` and then `rpc_buffer_decrypt` on one object, with whatever room
its chunk has. -/
namespace Livezure.Rpc
open Livezure.Core

/-- `rpc_aes_crypt` on the memory from `in` to the end of its chunk, as far as the length
fits into an `int`. -/
def rpcAesCryptChunk (aes : AesCipher) (enc : Bool) (memory : Bytes) (inlen : Int) :
    Except Fault (Bytes × Int) :=
  if aesLength inlen < 2 ^ 31 then do
    let source ← slice memory 0 (aesLength inlen).toNat
    return (aesCbcEncrypt aes enc source, aesLength inlen)
  else .error .outOfBounds

/-- `rpc_tea_crypt`, as far as `*outlen` fits into an `int`. -/
def rpcTeaCryptChunk (rand : Nat → Nat) (enc : Bool) (memory : Bytes) (inlen : Int) :
    Except Fault (Bytes × Int) :=
  if inlen + 32 < 2 ^ 31 then rpcTeaCrypt rand enc memory inlen
  else .error .outOfBounds

def rpcCryptChunk (aes : AesCipher) (rand : Nat → Nat) : RpcCrypt where
  aes := rpcAesCryptChunk aes
  tea := rpcTeaCryptChunk rand

/-- The buffer with `rest` in the bytes of its chunk that were never written. -/
def RpcBuffer.withSlack (buffer : RpcBuffer) (rest : Bytes) : RpcBuffer where
  chunk := buffer.chunk ++ rest.take (buffer.chunkSize - buffer.chunk.length)
  chunkSize := buffer.chunkSize
  chunkUsed := buffer.chunkUsed
  parsePosition := buffer.parsePosition
  used_le := by
    have used := buffer.used_le
    rw [List.length_append]
    omega
  chunk_le := by
    have written := buffer.chunk_le
    rw [List.length_append, List.length_take]
    omega

/-- The chunk of `rpc_buffer_new` with all its bytes. -/
theorem RpcBuffer.withSlack_filled (body : Bytes) (unwritten : Block rpcBufferDefGrowSize) :
    ((filled body).withSlack unwritten.bytes).chunk = body ++ [0] ++ unwritten.bytes := by
  have length : unwritten.bytes.length = rpcBufferDefGrowSize := Block.bytes_length unwritten
  have slack : (filled body).chunkSize - (filled body).chunk.length = rpcBufferDefGrowSize := by
    change body.length + 1 + rpcBufferDefGrowSize - (body ++ [0]).length = _
    rw [List.length_append, List.length_singleton, Nat.add_sub_cancel_left]
  change body ++ [0] ++ unwritten.bytes.take _ = _
  rw [slack, List.take_of_length_le (Nat.le_of_eq length)]

/-- The buffer is encrypted and decrypted in place, and is what it was. -/
def RpcBuffer.Restores (crypt : RpcCrypt) (type : RpcCryptType) (buffer : RpcBuffer) : Prop :=
  ∃ encrypted restored, rpcBufferEncrypt crypt (some buffer) type = .ok (some encrypted) ∧
    rpcBufferDecrypt crypt (some encrypted) type = .ok (some restored) ∧
    restored.chunkUsed = buffer.chunkUsed ∧ restored.bytes = buffer.bytes

/-- For AES the chunk holds the size, the coded blocks and the block that is read behind
them. TEA replaces a chunk that is too small, and only needs sizes that are `int`s. -/
def RpcBuffer.RoomInPlace (buffer : RpcBuffer) : RpcCryptType → Prop
  | .aes => sizeofSize + 16 * (buffer.chunkUsed / 16 + 2) ≤ buffer.chunk.length
  | .tea => 8 * teaBlocks buffer.chunkUsed + 32 < 2 ^ 31
  | _ => True

instance (buffer : RpcBuffer) (type : RpcCryptType) : Decidable (buffer.RoomInPlace type) := by
  cases type <;> unfold RpcBuffer.RoomInPlace <;> infer_instance

theorem RpcBuffer.roomInPlace_filled (body : Bytes) (unwritten : Block rpcBufferDefGrowSize) :
    ((filled body).withSlack unwritten.bytes).RoomInPlace .aes := by
  change sizeofSize + 16 * (body.length / 16 + 2) ≤ _
  rw [withSlack_filled, List.length_append, List.length_append, Block.bytes_length,
    List.length_singleton, sizeofSize, rpcBufferDefGrowSize]
  omega

/-! ### One cipher -/

section Cipher
variable {cipher : Bool → Bytes → Int → Except Fault (Bytes × Int)} {buffer : RpcBuffer} {coded : Bytes}

private theorem encryptWith_fails {fault : Fault}
    (fails : cipher true buffer.chunk buffer.chunkUsed = .error fault) :
    encryptWith cipher buffer = .error fault := by
  rw [encryptWith, fails]
  rfl

/-- What `rpc_buffer_decrypt` gives the cipher after `rpc_buffer_encrypt`. -/
theorem encryptWith_reads
    (codes : cipher true buffer.chunk buffer.chunkUsed = .ok (coded, coded.length)) :
    ∃ encrypted, encryptWith cipher buffer = .ok encrypted ∧
      encrypted.chunk = leBytes sizeofSize buffer.chunkUsed ++ coded ++ buffer.behindCoded coded.length ∧
      encrypted.chunk.drop sizeofSize = coded ++ buffer.behindCoded coded.length ∧
      (encrypted.chunkUsed : Int) - sizeofSize = coded.length := by
  obtain ⟨encrypted, done, chunk, used⟩ := encryptWith_copies codes
  refine ⟨encrypted, done, chunk, ?_, by omega⟩
  rw [chunk, List.append_assoc, List.drop_left' (leBytes_length _ _)]

/-- The two steps restore a buffer if the cipher undoes itself on what then stands in the chunk. -/
theorem restores_of_decodes {decoded : Bytes} {decSize : Int}
    (codes : cipher true buffer.chunk buffer.chunkUsed = .ok (coded, coded.length))
    (small : buffer.chunkUsed < 2 ^ 31) (longer : buffer.chunkUsed ≤ coded.length)
    (decodes : cipher false (coded ++ buffer.behindCoded coded.length) coded.length =
      .ok (decoded, decSize))
    (room : decSize ≤ (coded ++ buffer.behindCoded coded.length).length)
    (long : buffer.chunkUsed ≤ decoded.length) (same : decoded.take buffer.chunkUsed = buffer.bytes) :
    ∃ encrypted restored, encryptWith cipher buffer = .ok encrypted ∧
      decryptWith cipher encrypted = .ok restored ∧
      restored.chunkUsed = buffer.chunkUsed ∧ restored.bytes = buffer.bytes := by
  obtain ⟨encrypted, done, chunk, behind, used⟩ := encryptWith_reads codes
  have length := congrArg List.length behind
  rw [List.length_drop] at length
  have written := encrypted.chunk_le
  have claimed : encrypted.claimed = buffer.chunkUsed :=
    RpcBuffer.claimed_eq (chunk.trans (List.append_assoc _ _ _)) small
  have front := congrArg List.length chunk
  rw [List.append_assoc, List.length_append, leBytes_length] at front
  have longWhole : coded.length ≤ (coded ++ buffer.behindCoded coded.length).length := by
    rw [List.length_append]
    omega
  rw [← behind, ← used] at decodes
  obtain ⟨restored, undone, bytes⟩ := decryptWith_copies decodes (by omega) (by omega) (by omega)
    (by omega) (by omega)
  have restoredBytes : restored.bytes = buffer.bytes := by
    rw [bytes, claimed, Int.toNat_natCast, same]
  refine ⟨encrypted, restored, done, undone, ?_, restoredBytes⟩
  rw [← RpcBuffer.bytes_length, restoredBytes, RpcBuffer.bytes_length]

/-- Where the cipher cannot read what it needs of the chunk, the second step fails. -/
theorem not_decryptWith {fault : Fault}
    (codes : cipher true buffer.chunk buffer.chunkUsed = .ok (coded, coded.length))
    (fails : cipher false (coded ++ buffer.behindCoded coded.length) coded.length = .error fault)
    (encrypts : encryptWith cipher buffer = .ok encrypted) :
    decryptWith cipher encrypted = .error fault := by
  obtain ⟨_, done, _, behind, used⟩ := encryptWith_reads codes
  obtain rfl := Except.ok.inj (done.symm.trans encrypts)
  rw [decryptWith, behind, used, fails]
  rfl

end Cipher

/-! ### AES -/

section Aes
variable {aes : AesCipher}

theorem rpcAesCryptChunk_reads {enc : Bool} {memory : Bytes} {size : Nat}
    (room : 16 * (size / 16 + 1) ≤ memory.length) (small : 16 * (size / 16 + 1) < 2 ^ 31) :
    rpcAesCryptChunk aes enc memory size =
      .ok (aesCbcEncrypt aes enc (memory.take (16 * (size / 16 + 1))), (16 * (size / 16 + 1) : Nat)) := by
  have fits : ((16 * (size / 16 + 1) : Nat) : Int) < 2 ^ 31 := by omega
  have read : slice memory 0 (16 * (size / 16 + 1)) = .ok (memory.take (16 * (size / 16 + 1))) := by
    rw [slice_ok (by omega), List.drop_zero]
  rw [rpcAesCryptChunk, aesLength_eq, if_pos fits, Int.toNat_natCast, read]
  rfl

theorem rpcAesCryptChunk_fails {enc : Bool} {memory : Bytes} {size : Nat}
    (short : memory.length < 16 * (size / 16 + 1)) :
    rpcAesCryptChunk aes enc memory size = .error .outOfBounds := by
  have read : slice memory 0 (16 * (size / 16 + 1)) = .error .outOfBounds := if_neg (by omega)
  rw [rpcAesCryptChunk, aesLength_eq, Int.toNat_natCast, read]
  split <;> rfl

section InPlace
variable {buffer : RpcBuffer} (inverse : aes.Inverse) (sized : buffer.chunkSize < 2 ^ 31)
include inverse sized

private theorem aes_codes (long : 16 * (buffer.chunkUsed / 16 + 1) ≤ buffer.chunk.length) :
    ∃ coded, rpcAesCryptChunk aes true buffer.chunk buffer.chunkUsed = .ok (coded, coded.length) ∧
      coded.length = 16 * (buffer.chunkUsed / 16 + 1) ∧
      ∀ behind : Bytes, behind.length = 16 → ∃ later, aesCbcEncrypt aes false (coded ++ behind) =
        buffer.chunk.take (16 * (buffer.chunkUsed / 16 + 1)) ++ later := by
  have written := buffer.chunk_le
  have whole : (buffer.chunk.take (16 * (buffer.chunkUsed / 16 + 1))).length =
      16 * (buffer.chunkUsed / 16 + 1) := List.length_take_of_le long
  obtain ⟨length, undone⟩ := aesCbcEncrypt_undoes inverse whole
  refine ⟨_, ?_, length, undone⟩
  rw [rpcAesCryptChunk_reads long (by omega), length]

/-- It asks for one block more to decrypt, which the chunk must have behind the coded ones. -/
theorem roomInPlace_of_aes {encrypted restored : RpcBuffer}
    (encrypts : encryptWith (rpcAesCryptChunk aes) buffer = .ok encrypted)
    (decrypts : decryptWith (rpcAesCryptChunk aes) encrypted = .ok restored) :
    buffer.RoomInPlace .aes := by
  change sizeofSize + 16 * (buffer.chunkUsed / 16 + 2) ≤ buffer.chunk.length
  by_contra missing
  by_cases short : buffer.chunk.length < 16 * (buffer.chunkUsed / 16 + 1)
  · rw [encryptWith_fails (rpcAesCryptChunk_fails short)] at encrypts
    cases encrypts
  · obtain ⟨coded, codes, length, _⟩ := aes_codes inverse sized (Nat.not_lt.mp short)
    have behind : (coded ++ buffer.behindCoded coded.length).length < 16 * (coded.length / 16 + 1) := by
      rw [List.length_append, RpcBuffer.behindCoded]
      split
      · rw [List.length_drop]
        omega
      · rw [List.length_nil]
        omega
    rw [not_decryptWith codes (rpcAesCryptChunk_fails behind) encrypts] at decrypts
    cases decrypts

private theorem aes_restores (room : buffer.RoomInPlace .aes) :
    ∃ encrypted restored, encryptWith (rpcAesCryptChunk aes) buffer = .ok encrypted ∧
      decryptWith (rpcAesCryptChunk aes) encrypted = .ok restored ∧
      restored.chunkUsed = buffer.chunkUsed ∧ restored.bytes = buffer.bytes := by
  change sizeofSize + 16 * (buffer.chunkUsed / 16 + 2) ≤ buffer.chunk.length at room
  have written := buffer.chunk_le
  let source := buffer.chunk.take (16 * (buffer.chunkUsed / 16 + 1))
  have sourceLength : source.length = 16 * (buffer.chunkUsed / 16 + 1) :=
    List.length_take_of_le (by omega)
  obtain ⟨coded, codes, length, undone⟩ := aes_codes inverse sized (by omega)
  let behind := buffer.behindCoded coded.length
  have behindLength : behind.length = buffer.chunk.length - (sizeofSize + coded.length) := by
    change (buffer.behindCoded coded.length).length = _
    rw [RpcBuffer.behindCoded, if_pos (by omega), List.length_drop]
  have total : (coded ++ behind).length = coded.length + behind.length := List.length_append
  have next : 16 * (coded.length / 16 + 1) = coded.length + 16 := by omega
  obtain ⟨later, decoded⟩ := undone (behind.take 16) (List.length_take_of_le (by omega))
  have read : (coded ++ behind).take (16 * (coded.length / 16 + 1)) = coded ++ behind.take 16 := by
    rw [next, List.take_length_add_append]
  have decodes : rpcAesCryptChunk aes false (coded ++ behind) coded.length =
      .ok (source ++ later, (16 * (coded.length / 16 + 1) : Nat)) := by
    rw [rpcAesCryptChunk_reads (by omega) (by omega), read, decoded]
  have same : (source ++ later).take buffer.chunkUsed = buffer.bytes := by
    rw [List.take_append_of_le_length (by omega), List.take_take, Nat.min_eq_left (by omega)]
    rfl
  exact restores_of_decodes codes (by omega) (by omega) decodes
    (by change _ ≤ ((coded ++ behind).length : Int); omega)
    (by rw [List.length_append]; omega) same

end InPlace

end Aes

/-! ### TEA -/

theorem rpcTeaCryptChunk_eq {rand : Nat → Nat} {enc : Bool} {memory : Bytes} {inlen : Int}
    (small : inlen + 32 < 2 ^ 31) :
    rpcTeaCryptChunk rand enc memory inlen = rpcTeaCrypt rand enc memory inlen := if_pos small

section InPlace
variable {rand : Nat → Nat} {buffer : RpcBuffer}

private theorem roomInPlace_of_tea {encrypted restored : RpcBuffer}
    (encrypts : encryptWith (rpcTeaCryptChunk rand) buffer = .ok encrypted)
    (decrypts : decryptWith (rpcTeaCryptChunk rand) encrypted = .ok restored) :
    buffer.RoomInPlace .tea := by
  change 8 * teaBlocks buffer.chunkUsed + 32 < 2 ^ 31
  by_contra large
  by_cases small : (buffer.chunkUsed : Int) + 32 < 2 ^ 31
  · obtain ⟨coded, codes, _, length⟩ := rpcTeaCrypt_encrypts rand buffer.used_le
    rw [← rpcTeaCryptChunk_eq small] at codes
    have fails : rpcTeaCryptChunk rand false (coded ++ buffer.behindCoded coded.length) coded.length =
        .error .outOfBounds := if_neg (by omega)
    rw [not_decryptWith codes fails encrypts] at decrypts
    cases decrypts
  · have fails : rpcTeaCryptChunk rand true buffer.chunk buffer.chunkUsed = .error .outOfBounds :=
      if_neg small
    rw [encryptWith_fails fails] at encrypts
    cases encrypts

/-- TEA gives the exact size back, and reads no more than the coded bytes. -/
theorem tea_restores (room : buffer.RoomInPlace .tea) :
    ∃ encrypted restored, encryptWith (rpcTeaCryptChunk rand) buffer = .ok encrypted ∧
      decryptWith (rpcTeaCryptChunk rand) encrypted = .ok restored ∧
      restored.chunkUsed = buffer.chunkUsed ∧ restored.bytes = buffer.bytes := by
  change 8 * teaBlocks buffer.chunkUsed + 32 < 2 ^ 31 at room
  have blockCount := teaBlocks_eq buffer.chunkUsed
  obtain ⟨coded, codes, same, length⟩ := rpcTeaCrypt_encrypts rand buffer.used_le
  rw [← rpcTeaCryptChunk_eq (by omega)] at codes
  let behind := buffer.behindCoded coded.length
  have decodes := rpcTeaCrypt_decrypts rand rand buffer.bytes behind
  have content : qqEncrypt (.ofBytes rpcPriKey) rand buffer.bytes = coded := same.symm
  rw [content, ← rpcTeaCryptChunk_eq (by omega)] at decodes
  have used : buffer.bytes.length = buffer.chunkUsed := RpcBuffer.bytes_length
  have whole : (coded ++ behind).length = coded.length + behind.length := List.length_append
  exact restores_of_decodes codes (by omega) (by omega) decodes
    (by change _ ≤ ((coded ++ behind).length : Int); omega) (Nat.le_of_eq used.symm)
    (by rw [← used, List.take_length])

end InPlace

/-! ### The two steps -/

theorem map_some_ok {outcome : Except Fault RpcBuffer} {buffer : RpcBuffer} :
    some <$> outcome = .ok (some buffer) ↔ outcome = .ok buffer := by
  cases outcome with
  | error fault => exact ⟨fun done => (nomatch done), fun done => (nomatch done)⟩
  | ok result => simp [Functor.map, Except.map]

/-- A buffer that is encrypted and decrypted in place is restored exactly where its chunk
has room. -/
theorem RpcBuffer.restores_iff {aes : AesCipher} (inverse : aes.Inverse) (rand : Nat → Nat)
    (buffer : RpcBuffer) (sized : buffer.chunkSize < 2 ^ 31) (type : RpcCryptType) :
    buffer.Restores (rpcCryptChunk aes rand) type ↔ buffer.RoomInPlace type := by
  cases type with
  | none => exact iff_of_true ⟨buffer, buffer, rfl, rfl, rfl, rfl⟩ trivial
  | unknown => exact iff_of_true ⟨buffer, buffer, rfl, rfl, rfl, rfl⟩ trivial
  | aes =>
    simp only [RpcBuffer.Restores, rpcBufferEncrypt, rpcBufferDecrypt, map_some_ok]
    constructor
    · rintro ⟨_, _, encrypts, decrypts, _⟩
      exact roomInPlace_of_aes inverse sized encrypts decrypts
    · exact aes_restores inverse sized
  | tea =>
    simp only [RpcBuffer.Restores, rpcBufferEncrypt, rpcBufferDecrypt, map_some_ok]
    constructor
    · rintro ⟨_, _, encrypts, decrypts, _⟩
      exact roomInPlace_of_tea encrypts decrypts
    · exact tea_restores

/-- A byte in a chunk of `rpc_buffer_new`, whose slack holds zeros. -/
theorem restores_slack :
    ((RpcBuffer.filled [0x61]).withSlack (Block.zero 64).bytes).Restores
      (rpcCryptChunk rpcAes fun _ => 0) .aes :=
  (RpcBuffer.restores_iff rpcAes_inverse _ _ (by decide) .aes).mpr
    (RpcBuffer.roomInPlace_filled [0x61] (.zero _))

private theorem filled_by_pairs :
    ∃ first second, rpcKeypairAppend none (ascii "a" ++ [0]) (ascii "b") 1 = .ok first ∧
      rpcKeypairAppend (some first) (ascii "c" ++ [0]) (List.replicate 53 0x64) 53 = .ok second ∧
      second.chunkUsed = 68 ∧ second.chunkSize = 68 ∧ second.chunk.length = 68 :=
  ⟨_, _, rfl, rfl, rfl, rfl, rfl⟩

/-- `rpc_aes_crypt` reads behind a full chunk. -/
theorem not_restores_full :
    ∃ first second, rpcKeypairAppend none (ascii "a" ++ [0]) (ascii "b") 1 = .ok first ∧
      rpcKeypairAppend (some first) (ascii "c" ++ [0]) (List.replicate 53 0x64) 53 = .ok second ∧
      second.chunkUsed = 68 ∧ second.chunkSize = 68 ∧
      ∀ aes rand, ¬ second.Restores (rpcCryptChunk aes rand) .aes := by
  obtain ⟨first, second, one, two, used, size, length⟩ := filled_by_pairs
  refine ⟨first, second, one, two, used, size, fun aes rand => ?_⟩
  rintro ⟨_, _, encrypts, _⟩
  have short : second.chunk.length < 16 * (second.chunkUsed / 16 + 1) := by
    rw [length, used]
    decide
  have fails := map_some_ok.mp encrypts
  change encryptWith (rpcAesCryptChunk aes) second = _ at fails
  rw [encryptWith_fails (rpcAesCryptChunk_fails short)] at fails
  cases fails

end Livezure.Rpc
