import Livezure.Client.TextPairs
import Livezure.Rpc.CryptInPlace
import Livezure.Rpc.RoundTrip

/-! Pairs from `rpc_keypair_append` over a connection to `rpc_parser_get`: packed, encrypted with the
ciphers of the repository, received whole, decrypted and parsed. -/
namespace Livezure.Client
open Livezure.Core Db Rpc Service

/-! ### The ciphers -/

/-- What an encryption takes from its surroundings: the bytes behind a new chunk, and `rand()`. -/
structure Chance where
  unwritten : Block rpcBufferDefGrowSize
  rand : Nat → Nat

def Chance.crypt (chance : Chance) : RpcCrypt := rpcCrypt rpcAes chance.unwritten chance.rand

/-! ### Packing -/

/-- The pairs appended to a buffer, and `rpc_io_make_shell`. -/
def packTexts (crypt : RpcCrypt) (shell : RpcShell) (pairs : List (Bytes × Bytes)) :
    Except Fault Bytes := do
  let buffer ← keypairAppendTexts none pairs
  let (_, out) ← rpcIoMakeShell crypt shell buffer
  match out with
  | none => .error .nullPointer
  | some out => return out.bytes

/-- The bytes of the body before it is encrypted. -/
def bodyTexts (pairs : List (Bytes × Bytes)) : Bytes := (cTexts pairs).flatMap pairFrame

def textsSize (type : RpcCryptType) (pairs : List (Bytes × Bytes)) : Nat :=
  if pairs = [] then sizeofShell else sizeofShell + encryptedSize type (bodyTexts pairs).length

private theorem encryptedSize_le (type : RpcCryptType) (size : Nat) : size ≤ encryptedSize type size := by
  unfold encryptedSize
  cases type <;> simp only <;> omega

private theorem pairContent_short {pairs : List (Bytes × Bytes)} (short : (bodyTexts pairs).length < 2 ^ 31) :
    ∀ pair ∈ cTexts pairs, (pairContent pair).length < 2 ^ 31 := by
  intro pair member
  obtain ⟨front, back, split⟩ := List.append_of_mem member
  rw [bodyTexts, split, List.flatMap_append, List.flatMap_cons, List.length_append, List.length_append,
    pairFrame_length] at short
  omega

/-- The packing works on a copy of the buffer, so its slack is not seen. -/
theorem shellBody_filled (crypt : RpcCrypt) (type : RpcCryptType) {buffer : RpcBuffer}
    (present : buffer.bytes ≠ []) :
    shellBody crypt type (some buffer) = shellBody crypt type (some (.filled buffer.bytes)) := by
  have positive : 0 < buffer.chunkUsed := by
    rw [← buffer.bytes_length]
    exact List.length_pos_iff.mpr present
  have cloned : rpcBufferClone buffer = .ok (some (.filled buffer.bytes)) :=
    rpcBufferNew_filled positive buffer.used_le
  simp only [shellBody, cloned, rpcBufferClone_filled present, bind, Except.bind]

/-- The NUL of the received chunk stays behind what is decrypted. -/
theorem decrypted_tail {crypt : RpcCrypt} {body : Bytes} {type : RpcCryptType} {decrypted : RpcBuffer}
    (done : rpcBufferDecrypt crypt (some (.filled body)) type = .ok (some decrypted))
    (within : decrypted.bytes.length ≤ body.length) : 0 ∈ decrypted.tail := by
  have refilled : ∀ {cipher}, decryptWith cipher (.filled body) = .ok decrypted → 0 ∈ decrypted.tail := by
    intro cipher done
    obtain ⟨⟨dec, decSize⟩, _, done⟩ := bind_ok done
    dsimp only at done
    split at done
    · cases done
    · obtain ⟨original, _, done⟩ := bind_ok done
      split at done
      · cases done
      · obtain ⟨bytes, _, done⟩ := bind_ok done
        have same := RpcBuffer.refill_bytes done
        unfold RpcBuffer.refill at done
        split at done
        · obtain rfl := Except.ok.inj done
          rw [same] at within
          change 0 ∈ (bytes ++ (body ++ [0]).drop bytes.length).drop bytes.length
          rw [List.drop_left, List.drop_append_of_le_length within]
          exact List.mem_append_right _ List.mem_cons_self
        · cases done
  cases type with
  | none =>
    obtain rfl := Option.some.inj (Except.ok.inj done)
    change 0 ∈ (body ++ [0]).drop body.length
    rw [List.drop_left]
    exact List.mem_cons_self
  | unknown =>
    obtain rfl := Option.some.inj (Except.ok.inj done)
    change 0 ∈ (body ++ [0]).drop body.length
    rw [List.drop_left]
    exact List.mem_cons_self
  | aes => exact refilled (map_some_ok.mp done)
  | tea => exact refilled (map_some_ok.mp done)

/-- A packet made of pairs, and what a receiver of it parses. -/
structure CarriesTexts (shell : RpcShell) (pairs : List (Bytes × Bytes)) (packet : Packet) : Prop where
  category : packet.shell.category = shell.category
  subCategory : packet.shell.subCategory = shell.subCategory
  req : packet.shell.req = shell.req
  crypt : packet.shell.crypt = shell.crypt
  magic : packet.shell.magic = rpcMagicNumber
  version : packet.shell.version = rpcVersionSign
  size : packet.bytes.length = textsSize (.ofField shell.crypt) pairs
  received : ∀ chance : Chance, ∃ body tail,
    receivedBody chance.crypt packet.shell packet.body = .ok body ∧
      rpcParserNew body = .ok (receivedReq tail pairs)

private theorem packed_packet {crypt : RpcCrypt} {shell : RpcShell} {buffer : Option RpcBuffer} {body : Bytes}
    (magic : shell.magic = rpcMagicNumber) (version : shell.version = rpcVersionSign)
    (short : body.length < 2 ^ 31) (packed : shellBody crypt (.ofField shell.crypt) buffer = .ok body) :
    ∃ packet : Packet, rpcIoMakeShell crypt shell buffer = .ok (packet.shell, some (.filled packet.bytes)) ∧
      packet.shell = { shell with bodySize := BitVec.ofNat 32 body.length } ∧ packet.body = body := by
  have value : (BitVec.ofNat 32 body.length).toInt = body.length := by
    rw [BitVec.toInt_eq_toNat_of_lt (by rw [BitVec.toNat_ofNat]; omega), BitVec.toNat_ofNat]
    omega
  exact ⟨⟨{ shell with bodySize := BitVec.ofNat 32 body.length }, body, magic, version, value⟩,
    rpcIoMakeShell_eq packed, rfl, rfl⟩

theorem bodyTexts_ne {pairs : List (Bytes × Bytes)} (present : pairs ≠ []) : bodyTexts pairs ≠ [] := by
  have count := frames_length (cTexts pairs)
  rw [cTexts, List.length_map] at count
  have positive := List.length_pos_iff.mpr present
  exact List.length_pos_iff.mp (Nat.lt_of_lt_of_le positive count)

theorem packTexts_carries {shell : RpcShell} {pairs : List (Bytes × Bytes)} (sent : Chance)
    (magic : shell.magic = rpcMagicNumber) (version : shell.version = rpcVersionSign)
    (known : RpcCryptType.ofField shell.crypt ≠ .unknown) (texts : ∀ pair ∈ pairs, TextPair pair)
    {buffer : Option RpcBuffer} (appended : keypairAppendTexts none pairs = .ok buffer)
    (small : textsSize (.ofField shell.crypt) pairs < 2 ^ 31) :
    ∃ packet, packTexts sent.crypt shell pairs = .ok packet.bytes ∧ CarriesTexts shell pairs packet := by
  by_cases empty : pairs = []
  · subst empty
    obtain rfl := Except.ok.inj appended
    obtain ⟨packet, made, header, body⟩ := @packed_packet sent.crypt shell none [] magic version
      (by decide) rfl
    refine ⟨packet, ?_, ⟨by rw [header], by rw [header], by rw [header], by rw [header], packet.magic_eq,
      packet.version_eq, by rw [packet.bytes_length, body]; rfl, fun chance => ⟨none, [], ?_, rfl⟩⟩⟩
    · simp only [packTexts, keypairAppendTexts, made, bind, Except.bind, RpcBuffer.filled_bytes]
      rfl
    · rw [body]
      rfl
  · rw [textsSize, if_neg empty] at small
    have longer := encryptedSize_le (.ofField shell.crypt) (bodyTexts pairs).length
    have short : (bodyTexts pairs).length < 2 ^ 31 := by omega
    obtain ⟨bytes, filled⟩ := keypairAppendTexts_bytes texts (pairContent_short short) appended
    obtain ⟨held, rfl⟩ := Option.ne_none_iff_exists'.mp (filled empty)
    have same : held.bytes = bodyTexts pairs := bytes
    have present : held.bytes ≠ [] := by
      rw [same]
      exact bodyTexts_ne empty
    have copied : ∀ other ∈ some (RpcBuffer.filled held.bytes), ∃ bytes, other = .filled bytes ∧ bytes ≠ [] := by
      intro other member
      exact ⟨held.bytes, (Option.some.inj member).symm, present⟩
    obtain ⟨body, packed, length, _⟩ := shellBody_received rpcAes_inverse sent.unwritten sent.unwritten
      sent.rand sent.rand known copied
    have total : sizeofShell + body.length = sizeofShell + encryptedSize (.ofField shell.crypt) held.bytes.length :=
      length
    rw [same] at total
    obtain ⟨packet, made, header, content⟩ := packed_packet magic version (by omega)
      ((shellBody_filled sent.crypt _ present).trans packed)
    refine ⟨packet, ?_, ⟨by rw [header], by rw [header], by rw [header], by rw [header], packet.magic_eq,
      packet.version_eq, by rw [packet.bytes_length, content, textsSize, if_neg empty, total],
      fun chance => ?_⟩⟩
    · simp only [packTexts, appended, made, bind, Except.bind, RpcBuffer.filled_bytes]
      rfl
    · -- the same body, for another receiver
      obtain ⟨again, packedAgain, _, arrives⟩ := shellBody_received rpcAes_inverse sent.unwritten
        chance.unwritten sent.rand chance.rand known copied
      obtain rfl := Except.ok.inj (packed.symm.trans packedAgain)
      have fits : packetSize (.ofField shell.crypt) (some (.filled held.bytes)) < 2 ^ 31 := by
        change sizeofShell + encryptedSize _ held.bytes.length < 2 ^ 31
        rwa [same]
      obtain ⟨decrypted, got, back⟩ := arrives fits packet.shell (by rw [header])
      obtain ⟨result, rfl, bytes⟩ := Option.map_eq_some_iff.mp back
      rw [RpcBuffer.filled_bytes] at bytes
      have tail : 0 ∈ result.tail := by
        rw [receivedBody] at got
        split at got
        · cases got
        · refine decrypted_tail got ?_
          rw [bytes, same]
          omega
      refine ⟨some result, result.tail, by rw [content]; exact got, ?_⟩
      rw [receivedReq, if_neg empty]
      exact rpcParserNew_texts (bytes.trans same) tail (cTexts_texts texts) (pairContent_short short)

end Livezure.Client
