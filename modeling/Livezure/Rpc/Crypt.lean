import Livezure.Rpc.Buffer
import Livezure.Rpc.Tea
import Livezure.Utils.AesSchedule

/-! The two ciphers of `rpc_crypt.c`, and that `rpc_buffer_decrypt` undoes what
`rpc_buffer_encrypt` did to a buffer. -/
namespace Livezure.Rpc
open Livezure.Core

def rpcPriKey : Bytes :=
  [0x33, 0x37, 0x44, 0x31, 0x31, 0x32, 0x32, 0x33, 0x32, 0x42, 0x42, 0x41, 0x34, 0x64, 0x34, 0x65]

/-- `AES_encrypt` and `AES_decrypt` on blocks of `AES_BLOCK_SIZE` bytes, with the schedules
that `AES_set_encrypt_key` and `AES_set_decrypt_key` make of `rpc_pri_key`. -/
structure AesCipher where
  encrypt : Block 16 → Block 16
  decrypt : Block 16 → Block 16

def AesCipher.Inverse (aes : AesCipher) : Prop := ∀ block, aes.decrypt (aes.encrypt block) = block

/-- The cipher of the repository. -/
def rpcAes : AesCipher where
  encrypt block :=
    match Utils.aesSetEncryptKey (some rpcPriKey) 128 with
    | .ok aes => Utils.aesEncrypt block aes
    | .error _ => block
  decrypt block :=
    match Utils.aesSetDecryptKey (some rpcPriKey) 128 with
    | .ok aes => Utils.aesDecrypt block aes
    | .error _ => block

theorem rpcAes_inverse : rpcAes.Inverse := by
  intro block
  obtain ⟨enc, set⟩ : ∃ enc, Utils.aesSetEncryptKey (some rpcPriKey) 128 = .ok enc := ⟨_, rfl⟩
  obtain ⟨dec, half, opposite, inverted, even⟩ := Utils.aesKeys_inverted set
  simp only [rpcAes, set, opposite]
  exact inverted.undoes even block

def aesIv : Block 16 :=
  #v[0x35, 0x36, 0x32, 0x37, 0x41, 0x36, 0x41, 0x36, 0x36, 0x37, 0x41, 0x37, 0x37, 0x39, 0x42, 0x46]

/-- `AES_cbc_encrypt` where the length is a multiple of the block size. -/
def aesCbcEncrypt (aes : AesCipher) (enc : Bool) (source : Bytes) : Bytes :=
  let texts := blocks 16 (source.length / 16) source
  if enc then joined (cbcEncrypt Block.xor aes.encrypt aesIv texts)
  else joined (cbcDecrypt Block.xor aes.decrypt aesIv texts)

/-- `len` in `rpc_aes_crypt`. -/
def aesLength (inlen : Int) : Int :=
  if (inlen + 1).tmod 16 = 0 then inlen + 1
  else ((inlen + 1).tdiv 16 + 1) * 16

/-- `rpc_aes_crypt`. It reads behind the bytes that were written to a chunk of
`rpc_buffer_new`: `unwritten` is the rest of the chunk. -/
def rpcAesCrypt (aes : AesCipher) (unwritten : Block rpcBufferDefGrowSize) (enc : Bool)
    (memory : Bytes) (inlen : Int) : Except Fault (Bytes × Int) := do
  let source ← slice (memory ++ unwritten.bytes) 0 (aesLength inlen).toNat
  return (aesCbcEncrypt aes enc source, aesLength inlen)

/-- `rpc_tea_crypt`. `rand` gives the values of `rand()` in turn. -/
def rpcTeaCrypt (rand : Nat → Nat) (enc : Bool) (memory : Bytes) (inlen : Int) :
    Except Fault (Bytes × Int) := do
  let outlen := inlen + 32
  let source ← slice memory 0 inlen.toNat
  if enc then
    let out := qqEncrypt (.ofBytes rpcPriKey) rand source
    if outlen < out.length then .error .outOfBounds else return (out, out.length)
  else return qqDecrypt (.ofBytes rpcPriKey) source outlen

def rpcCrypt (aes : AesCipher) (unwritten : Block rpcBufferDefGrowSize) (rand : Nat → Nat) :
    RpcCrypt where
  aes := rpcAesCrypt aes unwritten
  tea := rpcTeaCrypt rand

/-! ### The copies around a cipher -/

namespace RpcBuffer

def claimed (buffer : RpcBuffer) : Int :=
  (BitVec.ofNat 32 (leNat (buffer.chunk.take sizeofSize))).toInt

theorem claimed_eq {buffer : RpcBuffer} {size : Nat} {behind : Bytes}
    (front : buffer.chunk = leBytes sizeofSize size ++ behind) (small : size < 2 ^ 31) :
    buffer.claimed = size := by
  rw [claimed, front, List.take_left' (leBytes_length _ _),
    leNat_leBytes _ _ (Nat.lt_trans small (by decide)),
    BitVec.toInt_eq_toNat_of_lt (by rw [BitVec.toNat_ofNat]; omega), BitVec.toNat_ofNat]
  omega

/-- What stays of a chunk behind the size and `size` coded bytes: nothing where a new
chunk is allocated. -/
def behindCoded (buffer : RpcBuffer) (size : Nat) : Bytes :=
  if sizeofSize + size ≤ buffer.chunkSize then buffer.chunk.drop (sizeofSize + size) else []

end RpcBuffer

section Copies
variable {cipher : Bool → Bytes → Int → Except Fault (Bytes × Int)} {buffer : RpcBuffer}

/-- A chunk that is too small for the size and the coded bytes is replaced. -/
theorem encryptWith_copies {coded : Bytes}
    (codes : cipher true buffer.chunk buffer.chunkUsed = .ok (coded, coded.length)) :
    ∃ encrypted, encryptWith cipher buffer = .ok encrypted ∧
      encrypted.chunk = leBytes sizeofSize buffer.chunkUsed ++ coded ++ buffer.behindCoded coded.length ∧
      encrypted.chunkUsed = sizeofSize + coded.length := by
  have positive : ¬ (coded.length : Int) < 0 := by omega
  have copied : slice coded 0 coded.length = .ok coded := by
    rw [slice_ok (by omega), List.drop_zero, List.take_length]
  have length : (leBytes sizeofSize buffer.chunkUsed ++ coded).length = sizeofSize + coded.length := by
    rw [List.length_append, leBytes_length]
  have written := buffer.chunk_le
  simp only [encryptWith, codes, bind, Except.bind, if_neg positive, Int.toNat_natCast, copied,
    RpcBuffer.refill, length, RpcBuffer.behindCoded]
  by_cases enough : sizeofSize + coded.length ≤ buffer.chunkSize
  · have kept : ¬ (buffer.chunkSize : Int) - sizeofSize < coded.length := by omega
    simp only [kept, not_false_eq_true, ↓reduceIte, if_pos enough]
    rw [dif_pos ⟨enough, written⟩]
    exact ⟨_, rfl, rfl, rfl⟩
  · have replaced : (buffer.chunkSize : Int) - sizeofSize < coded.length := by omega
    simp only [replaced, not_true_eq_false, ↓reduceIte, if_neg enough, List.length_nil, List.drop_nil]
    rw [dif_pos ⟨by omega, Nat.zero_le _⟩]
    exact ⟨_, rfl, rfl, rfl⟩

variable {decoded : Bytes} {decSize : Int}

/-- The size in front is copied from what the cipher gave. -/
theorem decryptWith_copies
    (decodes : cipher false (buffer.chunk.drop sizeofSize) (buffer.chunkUsed - sizeofSize) =
      .ok (decoded, decSize))
    (room : decSize ≤ buffer.chunkSize - sizeofSize) (inside : buffer.claimed ≤ buffer.chunkSize)
    (word : sizeofSize ≤ buffer.chunk.length) (positive : 0 ≤ buffer.claimed)
    (enough : buffer.claimed ≤ decoded.length) :
    ∃ decrypted, decryptWith cipher buffer = .ok decrypted ∧
      decrypted.bytes = decoded.take buffer.claimed.toNat := by
  have kept : ¬ (buffer.chunkSize : Int) - sizeofSize < decSize := by omega
  have original : slice buffer.chunk 0 sizeofSize = .ok (buffer.chunk.take sizeofSize) := by
    rw [slice_ok (by omega), List.drop_zero]
  have copied : slice decoded 0 buffer.claimed.toNat = .ok (decoded.take buffer.claimed.toNat) := by
    rw [slice_ok (by omega), List.drop_zero]
  have claim : ¬ (BitVec.ofNat 32 (leNat (buffer.chunk.take sizeofSize))).toInt < 0 :=
    Int.not_lt.mpr positive
  rw [RpcBuffer.claimed] at copied
  simp only [decryptWith, decodes, bind, Except.bind, if_neg kept, original, if_neg claim, copied,
    RpcBuffer.refill, RpcBuffer.claimed]
  rw [dif_pos]
  · exact ⟨_, rfl, List.take_left⟩
  · refine ⟨?_, buffer.chunk_le⟩
    rw [List.length_take]
    rw [RpcBuffer.claimed] at inside
    omega

/-- Nothing compares the size in front with what the cipher gave. -/
theorem decryptWith_claimed {decrypted : RpcBuffer}
    (decodes : cipher false (buffer.chunk.drop sizeofSize) (buffer.chunkUsed - sizeofSize) =
      .ok (decoded, decSize))
    (done : decryptWith cipher buffer = .ok decrypted) :
    0 ≤ buffer.claimed ∧ buffer.claimed ≤ decoded.length := by
  simp only [decryptWith, decodes, bind, Except.bind] at done
  split at done
  · cases done
  · obtain ⟨original, read, done⟩ := bind_ok done
    obtain ⟨_, rfl⟩ := slice_eq_ok read
    rw [List.drop_zero] at done
    split at done
    · cases done
    · rename_i positive
      obtain ⟨content, copied, _⟩ := bind_ok done
      obtain ⟨within, _⟩ := slice_eq_ok copied
      rw [RpcBuffer.claimed]
      omega

end Copies

/-! ### One cipher -/

/-- A cipher takes the bytes of a fresh chunk to `coded`, and a chunk with `coded` back to
at least those bytes. -/
structure Undoes (encrypt decrypt : Bool → Bytes → Int → Except Fault (Bytes × Int))
    (body coded : Bytes) : Prop where
  encrypts : encrypt true (body ++ [0]) body.length = .ok (coded, coded.length)
  longer : body.length ≤ coded.length
  room : coded.length ≤ body.length + rpcBufferDefGrowSize - 3
  decrypts : ∃ decoded size, decrypt false (coded ++ [0]) coded.length = .ok (decoded, size) ∧
    size ≤ coded.length + rpcBufferDefGrowSize ∧ body.length ≤ decoded.length ∧
      decoded.take body.length = body

section Undoes
variable {encrypt decrypt : Bool → Bytes → Int → Except Fault (Bytes × Int)} {body coded : Bytes}

theorem Undoes.encryptWith (undoes : Undoes encrypt decrypt body coded) :
    ∃ buffer, encryptWith encrypt (.filled body) = .ok buffer ∧
      buffer.bytes = leBytes sizeofSize body.length ++ coded := by
  have codes : encrypt true (RpcBuffer.filled body).chunk (RpcBuffer.filled body).chunkUsed =
      .ok (coded, coded.length) := undoes.encrypts
  obtain ⟨buffer, done, chunk, used⟩ := encryptWith_copies codes
  refine ⟨buffer, done, ?_⟩
  rw [RpcBuffer.bytes, chunk, used]
  apply List.take_left'
  rw [List.length_append, leBytes_length]

/-- The size in front of the coded bytes is the size of what they decrypt to. -/
theorem Undoes.decryptWith (undoes : Undoes encrypt decrypt body coded) (small : body.length < 2 ^ 31) :
    ∃ buffer, decryptWith decrypt (.filled (leBytes sizeofSize body.length ++ coded)) = .ok buffer ∧
      buffer.bytes = body := by
  obtain ⟨decoded, size, decrypts, fits, whole, same⟩ := undoes.decrypts
  let wire := leBytes sizeofSize body.length ++ coded
  have length : wire.length = sizeofSize + coded.length := by
    rw [List.length_append, leBytes_length]
  have chunk : (RpcBuffer.filled wire).chunk = leBytes sizeofSize body.length ++ (coded ++ [0]) :=
    List.append_assoc _ _ _
  have behind : (RpcBuffer.filled wire).chunk.drop sizeofSize = coded ++ [0] := by
    rw [chunk, List.drop_left' (leBytes_length _ _)]
  have chunkSize : (RpcBuffer.filled wire).chunkSize = wire.length + 1 + rpcBufferDefGrowSize := rfl
  have chunkUsed : (RpcBuffer.filled wire).chunkUsed = wire.length := rfl
  have used : ((RpcBuffer.filled wire).chunkUsed : Int) - sizeofSize = coded.length := by
    rw [chunkUsed, length]
    omega
  have claimed : (RpcBuffer.filled wire).claimed = body.length := RpcBuffer.claimed_eq chunk small
  have longer := undoes.longer
  rw [← behind, ← used] at decrypts
  obtain ⟨buffer, done, bytes⟩ := decryptWith_copies decrypts (by omega) (by omega)
    (by rw [chunk, List.length_append, leBytes_length]; omega) (by omega) (by omega)
  refine ⟨buffer, done, ?_⟩
  rw [bytes, claimed, Int.toNat_natCast, same]

theorem Undoes.undone (undoes : Undoes encrypt decrypt body coded) :
    ∃ encrypted, Rpc.encryptWith encrypt (.filled body) = .ok encrypted ∧
      encrypted.bytes.length = sizeofSize + coded.length ∧
      (body.length < 2 ^ 31 → ∃ decrypted,
        Rpc.decryptWith decrypt (.filled encrypted.bytes) = .ok decrypted ∧
          decrypted.bytes = body) := by
  obtain ⟨encrypted, done, bytes⟩ := undoes.encryptWith
  refine ⟨encrypted, done, ?_, fun small => ?_⟩
  · rw [bytes, List.length_append, leBytes_length]
  · rw [bytes]
    exact undoes.decryptWith small

end Undoes

/-! ### AES -/

/-- The length is rounded up to a whole number of blocks behind the terminating NUL. -/
theorem aesLength_eq (inlen : Nat) :
    aesLength inlen = ((16 * (inlen / 16 + 1) : Nat) : Int) := by
  have positive : (0 : Int) ≤ inlen + 1 := by omega
  rw [aesLength, Int.tmod_eq_emod_of_nonneg positive, Int.tdiv_eq_ediv_of_nonneg positive]
  split <;> omega

theorem aesCbcEncrypt_length (aes : AesCipher) (enc : Bool) (source : Bytes) :
    (aesCbcEncrypt aes enc source).length = 16 * (source.length / 16) := by
  unfold aesCbcEncrypt
  cases enc with
  | true => exact (joined_length _).trans (by rw [cbcEncrypt_length, blocks_length])
  | false => exact (joined_length _).trans (by rw [cbcDecrypt_length, blocks_length])

/-- CBC reads the blocks one after another: a block behind the coded ones only adds to the
end of what they decrypt to. -/
theorem aesCbcEncrypt_undoes {aes : AesCipher} (inverse : aes.Inverse) {source : Bytes} {count : Nat}
    (whole : source.length = 16 * count) :
    (aesCbcEncrypt aes true source).length = 16 * count ∧
      ∀ behind : Bytes, behind.length = 16 →
        ∃ later, aesCbcEncrypt aes false (aesCbcEncrypt aes true source ++ behind) = source ++ later := by
  let codes := cbcEncrypt Block.xor aes.encrypt aesIv (blocks 16 count source)
  have coded : aesCbcEncrypt aes true source = joined codes := by
    rw [aesCbcEncrypt, whole, Nat.mul_div_cancel_left _ (Nat.zero_lt_succ 15)]
    rfl
  have codesLength : codes.length = count := by
    rw [cbcEncrypt_length, blocks_length]
  have length : (joined codes).length = 16 * count := by
    rw [joined_length, codesLength]
  rw [coded]
  refine ⟨length, fun behind more => ?_⟩
  have total : (joined codes ++ behind).length / 16 = count + 1 := by
    rw [List.length_append, length, more]
    omega
  have texts : blocks 16 (count + 1) (joined codes ++ behind) = codes ++ [.ofBytes 16 behind] := by
    have first := blocks_joined codes behind
    rw [codesLength] at first
    rw [blocks_add, first, ← length, List.drop_left]
    rfl
  obtain ⟨later, decrypted⟩ : ∃ later, cbcDecrypt Block.xor aes.decrypt aesIv
      (codes ++ [.ofBytes 16 behind]) = blocks 16 count source ++ later :=
    cbcDecrypt_cbcEncrypt Block.xor_cancel inverse aesIv _ _
  refine ⟨joined later, ?_⟩
  rw [aesCbcEncrypt, total, texts]
  simp only [Bool.false_eq_true, ↓reduceIte, decrypted, joined_append]
  rw [joined_blocks (Nat.le_of_eq whole.symm), ← whole, List.take_length]

section Aes
variable {aes : AesCipher} (unwritten : Block rpcBufferDefGrowSize) (body : Bytes)

/-- What `rpc_aes_crypt` reads of a chunk with `body`: the bytes up to the end of a block. -/
def aesSource : Bytes := (body ++ [0] ++ unwritten.bytes).take (16 * (body.length / 16 + 1))

theorem aesSource_read :
    slice (body ++ [0] ++ unwritten.bytes) 0 (16 * (body.length / 16 + 1)) =
      .ok (aesSource unwritten body) := by
  have length : unwritten.bytes.length = 64 := Block.bytes_length unwritten
  rw [slice_ok, List.drop_zero, aesSource]
  rw [List.length_append, List.length_append, length, List.length_singleton]
  omega

theorem aesSource_length : (aesSource unwritten body).length = 16 * (body.length / 16 + 1) := by
  obtain ⟨room, _⟩ := slice_eq_ok (aesSource_read unwritten body)
  rw [aesSource, List.length_take]
  omega

theorem aesSource_take : (aesSource unwritten body).take body.length = body := by
  rw [aesSource, List.take_take, Nat.min_eq_left (by omega), List.append_assoc, List.take_left]

def aesTexts : List (Block 16) := blocks 16 (body.length / 16 + 1) (aesSource unwritten body)

variable (aes) in
def aesCodes : List (Block 16) := cbcEncrypt Block.xor aes.encrypt aesIv (aesTexts unwritten body)

theorem aesCbcEncrypt_aesSource :
    aesCbcEncrypt aes true (aesSource unwritten body) = joined (aesCodes aes unwritten body) := by
  rw [aesCbcEncrypt, aesSource_length, Nat.mul_div_cancel_left _ (Nat.zero_lt_succ 15)]
  rfl

private theorem joined_aesCodes_length :
    (joined (aesCodes aes unwritten body)).length = 16 * (body.length / 16 + 1) := by
  rw [← aesCbcEncrypt_aesSource, aesCbcEncrypt_length, aesSource_length,
    Nat.mul_div_cancel_left _ (Nat.zero_lt_succ 15)]

theorem rpcAesCrypt_encrypts :
    rpcAesCrypt aes unwritten true (body ++ [0]) body.length =
      .ok (joined (aesCodes aes unwritten body), (joined (aesCodes aes unwritten body)).length) := by
  simp only [rpcAesCrypt, aesLength_eq, Int.toNat_natCast, aesSource_read, bind, Except.bind, pure,
    Except.pure, aesCbcEncrypt_aesSource, joined_aesCodes_length]

theorem rpcAesCrypt_decrypts (inverse : aes.Inverse) (received : Block rpcBufferDefGrowSize) :
    ∃ later, rpcAesCrypt aes received false (joined (aesCodes aes unwritten body) ++ [0])
        (joined (aesCodes aes unwritten body)).length =
      .ok (aesSource unwritten body ++ later, (16 * (body.length / 16 + 1 + 1) : Nat)) := by
  let coded := joined (aesCodes aes unwritten body)
  have length : coded.length = 16 * (body.length / 16 + 1) := joined_aesCodes_length unwritten body
  have more : coded.length / 16 + 1 = body.length / 16 + 1 + 1 := by omega
  -- what is read: the coded blocks and one more
  let behind := ([0] ++ received.bytes).take 16
  have behindLength : behind.length = 16 := by
    rw [List.length_take, List.length_append, Block.bytes_length]
    rfl
  have read : aesSource received coded = coded ++ behind := by
    rw [aesSource, more, List.append_assoc, Nat.mul_succ, ← length, List.take_length_add_append]
  obtain ⟨_, undone⟩ := aesCbcEncrypt_undoes inverse (aesSource_length unwritten body)
  obtain ⟨later, decoded⟩ := undone behind behindLength
  rw [aesCbcEncrypt_aesSource] at decoded
  refine ⟨later, ?_⟩
  rw [← more]
  change rpcAesCrypt aes received false (coded ++ [0]) coded.length = _
  simp only [rpcAesCrypt, aesLength_eq, Int.toNat_natCast, aesSource_read, bind, Except.bind, pure,
    Except.pure, read]
  rw [decoded]

theorem rpcAesCrypt_undoes (inverse : aes.Inverse) (received : Block rpcBufferDefGrowSize) :
    ∃ coded, coded.length = 16 * (body.length / 16 + 1) ∧
      Undoes (rpcAesCrypt aes unwritten) (rpcAesCrypt aes received) body coded := by
  have length : (joined (aesCodes aes unwritten body)).length = _ := joined_aesCodes_length unwritten body
  have sourceLength := aesSource_length unwritten body
  obtain ⟨later, decrypts⟩ := rpcAesCrypt_decrypts unwritten body inverse received
  refine ⟨_, length, rpcAesCrypt_encrypts unwritten body, by omega, ?_, _, _, decrypts, ?_, ?_, ?_⟩
  · rw [length, rpcBufferDefGrowSize]
    omega
  · rw [length, rpcBufferDefGrowSize]
    omega
  · rw [List.length_append]
    omega
  · rw [List.take_append_of_le_length (by omega), aesSource_take]

end Aes

/-! ### TEA -/

theorem rpcTeaCrypt_encrypts (rand : Nat → Nat) {memory : Bytes} {size : Nat}
    (room : size ≤ memory.length) :
    ∃ coded, rpcTeaCrypt rand true memory size = .ok (coded, coded.length) ∧
      coded = qqEncrypt (.ofBytes rpcPriKey) rand (memory.take size) ∧
      coded.length = 8 * teaBlocks size := by
  have taken : (memory.take size).length = size := List.length_take_of_le room
  have length := qqEncrypt_length (.ofBytes rpcPriKey) rand (memory.take size)
  rw [taken] at length
  have blockCount := teaBlocks_eq size
  have padding := headerPadding_lt size
  have read : slice memory 0 size = .ok (memory.take size) := by
    rw [slice_ok (by omega), List.drop_zero]
  have fits : ¬ (size : Int) + 32 < (qqEncrypt (.ofBytes rpcPriKey) rand (memory.take size)).length := by
    omega
  refine ⟨_, ?_, rfl, length⟩
  simp only [rpcTeaCrypt, Int.toNat_natCast, read, bind, Except.bind, ↓reduceIte]
  exact if_neg fits

/-- What stands behind the encrypted bytes is not read. -/
theorem rpcTeaCrypt_decrypts (randSent randReceived : Nat → Nat) (body behind : Bytes) :
    rpcTeaCrypt randReceived false (qqEncrypt (.ofBytes rpcPriKey) randSent body ++ behind)
        (qqEncrypt (.ofBytes rpcPriKey) randSent body).length = .ok (body, body.length) := by
  let coded := qqEncrypt (.ofBytes rpcPriKey) randSent body
  have length : coded.length = 8 * teaBlocks body.length :=
    qqEncrypt_length (.ofBytes rpcPriKey) randSent body
  have blockCount := teaBlocks_eq body.length
  have read : slice (coded ++ behind) 0 coded.length = .ok coded := by
    rw [slice_ok (by rw [List.length_append]; omega), List.drop_zero, List.take_left]
  have decrypted := qqDecrypt_qqEncrypt (.ofBytes rpcPriKey) randSent body
    (show (body.length : Int) ≤ (coded.length : Int) + 32 by omega)
  change rpcTeaCrypt randReceived false (coded ++ behind) coded.length = _
  simp only [rpcTeaCrypt, Int.toNat_natCast, read, bind, Except.bind, Bool.false_eq_true,
    ↓reduceIte, pure, Except.pure]
  exact congrArg Except.ok decrypted

theorem rpcTeaCrypt_undoes (randSent randReceived : Nat → Nat) (body : Bytes) :
    ∃ coded, coded.length = 8 * teaBlocks body.length ∧
      Undoes (rpcTeaCrypt randSent) (rpcTeaCrypt randReceived) body coded := by
  have blockCount := teaBlocks_eq body.length
  have padding := headerPadding_lt body.length
  obtain ⟨coded, encrypts, same, length⟩ := rpcTeaCrypt_encrypts randSent
    (show body.length ≤ (body ++ [0]).length by rw [List.length_append]; omega)
  rw [List.take_left] at same
  have decrypts := rpcTeaCrypt_decrypts randSent randReceived body [0]
  rw [← same] at decrypts
  refine ⟨coded, length, encrypts, by omega, ?_, body, body.length, decrypts, ?_, Nat.le_refl _,
    List.take_length⟩
  · rw [rpcBufferDefGrowSize]
    omega
  · rw [rpcBufferDefGrowSize]
    omega

/-! ### The buffer functions -/

/-- The size of what `rpc_buffer_encrypt` makes of `size` bytes. -/
def encryptedSize (type : RpcCryptType) (size : Nat) : Nat :=
  match type with
  | .none | .unknown => size
  | .aes => sizeofSize + 16 * (size / 16 + 1)
  | .tea => sizeofSize + 8 * ((size + 17) / 8)

/-- `rpc_buffer_encrypt` succeeds, and `rpc_buffer_decrypt` undoes it in the chunk that
the received bytes are copied to. -/
theorem rpcBufferDecrypt_rpcBufferEncrypt {aes : AesCipher} (inverse : aes.Inverse)
    (sent received : Block rpcBufferDefGrowSize) (randSent randReceived : Nat → Nat)
    {type : RpcCryptType} (known : type ≠ .unknown) (body : Bytes) :
    ∃ encrypted, rpcBufferEncrypt (rpcCrypt aes sent randSent) (some (.filled body)) type =
        .ok (some encrypted) ∧
      encrypted.bytes.length = encryptedSize type body.length ∧
      (body.length < 2 ^ 31 → ∃ decrypted, rpcBufferDecrypt (rpcCrypt aes received randReceived)
        (some (.filled encrypted.bytes)) type = .ok (some decrypted) ∧ decrypted.bytes = body) := by
  cases type with
  | none =>
    refine ⟨.filled body, rfl, by rw [RpcBuffer.filled_bytes]; rfl, fun _ => ?_⟩
    rw [RpcBuffer.filled_bytes]
    exact ⟨.filled body, rfl, RpcBuffer.filled_bytes body⟩
  | unknown => exact absurd rfl known
  | aes =>
    obtain ⟨coded, length, undoes⟩ := rpcAesCrypt_undoes sent body inverse received
    obtain ⟨encrypted, done, size, undone⟩ := undoes.undone
    refine ⟨encrypted, congrArg (Except.map some) done, by rw [size, length]; rfl, fun small => ?_⟩
    obtain ⟨decrypted, undone, same⟩ := undone small
    exact ⟨decrypted, congrArg (Except.map some) undone, same⟩
  | tea =>
    obtain ⟨coded, length, undoes⟩ := rpcTeaCrypt_undoes randSent randReceived body
    obtain ⟨encrypted, done, size, undone⟩ := undoes.undone
    refine ⟨encrypted, congrArg (Except.map some) done, by rw [size, length]; rfl, fun small => ?_⟩
    obtain ⟨decrypted, undone, same⟩ := undone small
    exact ⟨decrypted, congrArg (Except.map some) undone, same⟩

end Livezure.Rpc
