import Livezure.Core.Memory

/-! The packet header of the wire protocol (`rpc_shell.h`), packed to 20 bytes. -/
namespace Livezure.Rpc
open Livezure.Core

/-- `RPC_MAGIC_NUMBER`, the letters "livezure". -/
def rpcMagicNumber : BitVec 64 := 0x6C6976657A757265

def rpcVersionSign : UInt8 := 0x57

/-- `req_type_get` and `req_type_post` as the two-bit field holds them. -/
def reqTypeGet : BitVec 2 := 0
def reqTypePost : BitVec 2 := 1

/-- `rpc_crypt_type`. The six-bit header field has room for more codes. -/
inductive RpcCryptType where
  | none
  | aes
  | tea
  | unknown
  deriving DecidableEq, Repr

def RpcCryptType.ofField (field : BitVec 6) : RpcCryptType :=
  if field = 0 then .none else if field = 1 then .aes else if field = 2 then .tea else .unknown

structure RpcShell where
  magic : BitVec 64
  version : UInt8
  category : UInt8
  subCategory : UInt8
  req : BitVec 2
  crypt : BitVec 6
  /-- `rpc_size_t`: a signed 32-bit integer. -/
  bodySize : BitVec 32
  reserved : BitVec 32
  deriving DecidableEq, Repr

def plainShell (category subCategory : UInt8) (req : BitVec 2) (size : Nat) : RpcShell where
  magic := rpcMagicNumber
  version := rpcVersionSign
  category := category
  subCategory := subCategory
  req := req
  crypt := 0
  bodySize := BitVec.ofNat 32 size
  reserved := 0

/-- `sizeof(rpc_shell_t)` under `#pragma pack(push, 1)`. -/
def sizeofShell : Nat := 20

namespace RpcShell

def flags (shell : RpcShell) : UInt8 := UInt8.ofNat (shell.req.toNat + 4 * shell.crypt.toNat)

def bytes (shell : RpcShell) : Bytes :=
  leBytes 8 shell.magic.toNat ++ [shell.version, shell.category, shell.subCategory, shell.flags] ++
    leBytes 4 shell.bodySize.toNat ++ leBytes 4 shell.reserved.toNat

/-- The header a `rpc_shell_t *` sees in 20 bytes of memory. -/
def ofBytes (memory : Bytes) : RpcShell where
  magic := BitVec.ofNat 64 (leNat (memory.take 8))
  version := memory.getD 8 0
  category := memory.getD 9 0
  subCategory := memory.getD 10 0
  req := BitVec.ofNat 2 (memory.getD 11 0).toNat
  crypt := BitVec.ofNat 6 ((memory.getD 11 0).toNat / 4)
  bodySize := BitVec.ofNat 32 (leNat ((memory.drop 12).take 4))
  reserved := BitVec.ofNat 32 (leNat ((memory.drop 16).take 4))

@[simp] theorem bytes_length (shell : RpcShell) : shell.bytes.length = sizeofShell := by
  simp [bytes, sizeofShell]

theorem flags_toNat (shell : RpcShell) :
    shell.flags.toNat = shell.req.toNat + 4 * shell.crypt.toNat := by
  have reqBound := shell.req.isLt
  have cryptBound := shell.crypt.isLt
  simp only [flags, UInt8.toNat_ofNat']
  omega

private theorem ofNat_leNat (width count : Nat) (value : BitVec width)
    (same : 2 ^ width = 256 ^ count) :
    BitVec.ofNat width (leNat (leBytes count value.toNat)) = value := by
  rw [leNat_leBytes _ _ (same ▸ value.isLt), BitVec.ofNat_toNat, BitVec.setWidth_eq]

/-- Reading a header back from its wire bytes gives the header. -/
theorem ofBytes_bytes (shell : RpcShell) : ofBytes shell.bytes = shell := by
  have front : (leBytes 8 shell.magic.toNat).length = 8 := leBytes_length ..
  have size : (leBytes 4 shell.bodySize.toNat).length = 4 := leBytes_length ..
  have last : (leBytes 4 shell.reserved.toNat).length = 4 := leBytes_length ..
  have flagsNat := shell.flags_toNat
  have reqBound := shell.req.isLt
  have req : BitVec.ofNat 2 shell.flags.toNat = shell.req := by
    apply BitVec.eq_of_toNat_eq
    rw [BitVec.toNat_ofNat, flagsNat]
    omega
  have crypt : BitVec.ofNat 6 (shell.flags.toNat / 4) = shell.crypt := by
    apply BitVec.eq_of_toNat_eq
    have cryptBound := shell.crypt.isLt
    rw [BitVec.toNat_ofNat, flagsNat]
    omega
  have magic := ofNat_leNat 64 8 shell.magic (by decide)
  have bodySize := ofNat_leNat 32 4 shell.bodySize (by decide)
  have reserved := ofNat_leNat 32 4 shell.reserved (by decide)
  have past12 : (leBytes 8 shell.magic.toNat).drop 12 = [] := List.drop_eq_nil_of_le (by simp)
  have past16 : (leBytes 8 shell.magic.toNat).drop 16 = [] := List.drop_eq_nil_of_le (by simp)
  have whole : (leBytes 4 shell.reserved.toNat).take 4 = leBytes 4 shell.reserved.toNat :=
    List.take_of_length_le (by simp)
  simp only [ofBytes, bytes, List.append_assoc, List.getD_eq_getElem?_getD]
  simp [List.drop_append, front, size, last, past12, past16, whole,
    req, crypt, magic, bodySize, reserved]

private theorem ofBytes_parts (front : Bytes) (byte : UInt8) (size last : Bytes)
    (frontLength : front.length = 11) (sizeLength : size.length = 4) (lastLength : last.length = 4) :
    ofBytes (front ++ byte :: (size ++ last)) = {
      magic := BitVec.ofNat 64 (leNat (front.take 8))
      version := front.getD 8 0
      category := front.getD 9 0
      subCategory := front.getD 10 0
      req := BitVec.ofNat 2 byte.toNat
      crypt := BitVec.ofNat 6 (byte.toNat / 4)
      bodySize := BitVec.ofNat 32 (leNat size)
      reserved := BitVec.ofNat 32 (leNat last) } := by
  have past12 : front.drop 12 = [] := List.drop_eq_nil_of_le (by omega)
  have past16 : front.drop 16 = [] := List.drop_eq_nil_of_le (by omega)
  have whole : last.take 4 = last := List.take_of_length_le (by omega)
  simp only [ofBytes, List.getD_eq_getElem?_getD]
  simp [List.drop_append, List.take_append, List.getElem?_append, frontLength, sizeLength,
    past12, past16, whole]

private theorem memory_parts {memory : Bytes} (length : memory.length = sizeofShell) :
    ∃ front byte size last, memory = front ++ byte :: (size ++ last) ∧ front.length = 11 ∧
      size.length = 4 ∧ last.length = 4 := by
  rw [sizeofShell] at length
  have inside : 11 < memory.length := by omega
  refine ⟨memory.take 11, memory[11], (memory.drop 12).take 4, (memory.drop 12).drop 4, ?_,
    by rw [List.length_take]; omega, by rw [List.length_take, List.length_drop]; omega,
    by rw [List.length_drop, List.length_drop]; omega⟩
  rw [List.take_append_drop, List.getElem_cons_drop, List.take_append_drop]

/-- Writing `req` through a header pointer. -/
theorem ofBytes_flags {memory : Bytes} (length : memory.length = sizeofShell) (req : BitVec 2) :
    ofBytes (splice memory 11 [{ ofBytes memory with req }.flags]) = { ofBytes memory with req } := by
  obtain ⟨front, byte, size, last, rfl, frontLength, sizeLength, lastLength⟩ := memory_parts length
  generalize written : { ofBytes (front ++ byte :: (size ++ last)) with req }.flags = flags
  have spliced : splice (front ++ byte :: (size ++ last)) 11 [flags] =
      front ++ flags :: (size ++ last) := by
    rw [splice, List.take_left' frontLength, ← frontLength]
    simp
  have value := RpcShell.flags_toNat { ofBytes (front ++ byte :: (size ++ last)) with req }
  rw [written] at value
  rw [spliced, ofBytes_parts _ _ _ _ frontLength sizeLength lastLength] at *
  have reqBound := req.isLt
  simp only [BitVec.toNat_ofNat] at value
  have low : BitVec.ofNat 2 flags.toNat = req := by
    apply BitVec.eq_of_toNat_eq
    rw [BitVec.toNat_ofNat, value]
    omega
  have high : BitVec.ofNat 6 (flags.toNat / 4) = BitVec.ofNat 6 (byte.toNat / 4) := by
    apply BitVec.eq_of_toNat_eq
    rw [BitVec.toNat_ofNat, BitVec.toNat_ofNat, value]
    omega
  rw [ofBytes_parts _ _ _ _ frontLength sizeLength lastLength, low, high]

/-- Writing `body_size` through a header pointer. -/
theorem ofBytes_bodySize {memory : Bytes} (length : memory.length = sizeofShell)
    (bodySize : BitVec 32) :
    ofBytes (splice memory 12 (leBytes 4 bodySize.toNat)) = { ofBytes memory with bodySize } := by
  obtain ⟨front, byte, size, last, rfl, frontLength, sizeLength, lastLength⟩ := memory_parts length
  have spliced : splice (front ++ byte :: (size ++ last)) 12 (leBytes 4 bodySize.toNat) =
      front ++ byte :: (leBytes 4 bodySize.toNat ++ last) := by
    have upto : (front ++ [byte]).length = 12 := by simp [frontLength]
    have behind : (front ++ [byte] ++ size).length = 12 + 4 := by simp [frontLength, sizeLength]
    have before : front ++ byte :: (size ++ last) = (front ++ [byte]) ++ (size ++ last) := by simp
    have after : front ++ byte :: (size ++ last) = (front ++ [byte] ++ size) ++ last := by simp
    rw [splice, leBytes_length]
    nth_rewrite 1 [before]
    rw [after, List.take_left' upto, List.drop_left' behind]
    simp
  rw [spliced, ofBytes_parts _ _ _ _ frontLength sizeLength lastLength,
    ofBytes_parts _ _ _ _ frontLength (leBytes_length _ _) lastLength,
    ofNat_leNat 32 4 bodySize (by decide)]

end RpcShell
end Livezure.Rpc
