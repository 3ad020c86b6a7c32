import Livezure.Core.Blocks
import Livezure.Utils.AesTables

/-! The block cipher of `aes.c`: its key schedules and its rounds by tables are the standard's, and
`AES_decrypt` undoes `AES_encrypt`. -/
namespace Livezure.Utils
open Livezure.Core

/-! ### The program -/

/-- `GETU32`. -/
def getU32 (pt : Bytes) (offset : Nat) : UInt32 :=
  ((pt.getD offset 0).toUInt32 <<< 24) ^^^ ((pt.getD (offset + 1) 0).toUInt32 <<< 16) ^^^
    ((pt.getD (offset + 2) 0).toUInt32 <<< 8) ^^^ (pt.getD (offset + 3) 0).toUInt32

/-- `PUTU32`. -/
def putU32 (st : UInt32) : Bytes :=
  [(st >>> 24).toUInt8, (st >>> 16).toUInt8, (st >>> 8).toUInt8, st.toUInt8]

/-- `AES_KEY`; `rd_key` as far as it is written. -/
structure AesKey where
  rdKey : List UInt32
  rounds : Nat
  deriving DecidableEq

/-- The word that `rk` points to after so many increments. -/
def AesKey.rk (key : AesKey) (offset : Nat) : UInt32 := key.rdKey.getD offset 0

/-- `Te4` of the bytes of `temp`, moved by one. -/
def subRotated (temp : UInt32) : UInt32 :=
  (look te4 ((temp >>> 16) &&& 0xff) &&& (0xff000000 : UInt32)) ^^^
    (look te4 ((temp >>> 8) &&& 0xff) &&& (0x00ff0000 : UInt32)) ^^^
    (look te4 (temp &&& 0xff) &&& (0x0000ff00 : UInt32)) ^^^
    (look te4 (temp >>> 24) &&& (0x000000ff : UInt32))

def subUnrotated (temp : UInt32) : UInt32 :=
  (look te4 (temp >>> 24) &&& (0xff000000 : UInt32)) ^^^
    (look te4 ((temp >>> 16) &&& 0xff) &&& (0x00ff0000 : UInt32)) ^^^
    (look te4 ((temp >>> 8) &&& 0xff) &&& (0x0000ff00 : UInt32)) ^^^
    (look te4 (temp &&& 0xff) &&& (0x000000ff : UInt32))

/-- One round of the loop for 128 bits; `rk` is `4 * i`. -/
def expand128 (rdKey : List UInt32) (i : Nat) : List UInt32 :=
  let rk := fun j => rdKey.getD (4 * i + j) 0
  let rk4 := rk 0 ^^^ subRotated (rk 3) ^^^ rcon.getD i 0
  let rk5 := rk 1 ^^^ rk4
  let rk6 := rk 2 ^^^ rk5
  let rk7 := rk 3 ^^^ rk6
  rdKey ++ [rk4, rk5, rk6, rk7]

/-- One round of the loop for 192 bits; the last one ends early. -/
def expand192 (rdKey : List UInt32) (i : Nat) : List UInt32 :=
  let rk := fun j => rdKey.getD (6 * i + j) 0
  let rk6 := rk 0 ^^^ subRotated (rk 5) ^^^ rcon.getD i 0
  let rk7 := rk 1 ^^^ rk6
  let rk8 := rk 2 ^^^ rk7
  let rk9 := rk 3 ^^^ rk8
  let rdKey := rdKey ++ [rk6, rk7, rk8, rk9]
  if i + 1 = 8 then rdKey
  else
    let rk10 := rk 4 ^^^ rk9
    let rk11 := rk 5 ^^^ rk10
    rdKey ++ [rk10, rk11]

/-- One round of the loop for 256 bits. -/
def expand256 (rdKey : List UInt32) (i : Nat) : List UInt32 :=
  let rk := fun j => rdKey.getD (8 * i + j) 0
  let rk8 := rk 0 ^^^ subRotated (rk 7) ^^^ rcon.getD i 0
  let rk9 := rk 1 ^^^ rk8
  let rk10 := rk 2 ^^^ rk9
  let rk11 := rk 3 ^^^ rk10
  let rdKey := rdKey ++ [rk8, rk9, rk10, rk11]
  if i + 1 = 7 then rdKey
  else
    let rk12 := rk 4 ^^^ subUnrotated rk11
    let rk13 := rk 5 ^^^ rk12
    let rk14 := rk 6 ^^^ rk13
    let rk15 := rk 7 ^^^ rk14
    rdKey ++ [rk12, rk13, rk14, rk15]

/-- The words of `userKey`. -/
def keyWords (userKey : Bytes) (count : Nat) : List UInt32 :=
  (List.range count).map fun i => getU32 userKey (4 * i)

/-- `AES_set_encrypt_key`, for a `key` that is not NULL; `userKey` has `bits / 8` bytes. -/
def aesSetEncryptKey (userKey : Option Bytes) (bits : Int) : Except Int AesKey :=
  match userKey with
  | none => .error (-1)
  | some userKey =>
    if bits ≠ 128 ∧ bits ≠ 192 ∧ bits ≠ 256 then .error (-2)
    else if bits = 128 then .ok ⟨(List.range 10).foldl expand128 (keyWords userKey 4), 10⟩
    else if bits = 192 then .ok ⟨(List.range 8).foldl expand192 (keyWords userKey 6), 12⟩
    else .ok ⟨(List.range 7).foldl expand256 (keyWords userKey 8), 14⟩

/-- Two words exchanged. -/
def swapWords (rk : List UInt32) (i j : Nat) : List UInt32 :=
  (rk.set i (rk.getD j 0)).set j (rk.getD i 0)

/-- Four words exchanged with four others. -/
def swapKeys (rk : List UInt32) (i j : Nat) : List UInt32 :=
  swapWords (swapWords (swapWords (swapWords rk i j) (i + 1) (j + 1)) (i + 2) (j + 2)) (i + 3) (j + 3)

/-- The order of the round keys inverted. -/
def invertOrder (rk : List UInt32) (i j : Nat) : List UInt32 :=
  if i < j then invertOrder (swapKeys rk i j) (i + 4) (j - 4) else rk
termination_by j - i

/-- The inverse MixColumn transform, through `Te4` and the tables of decryption. -/
def unmixWord (rk : UInt32) : UInt32 :=
  look td0 (look te4 (rk >>> 24) &&& 0xff) ^^^
    look td1 (look te4 ((rk >>> 16) &&& 0xff) &&& 0xff) ^^^
    look td2 (look te4 ((rk >>> 8) &&& 0xff) &&& 0xff) ^^^
    look td3 (look te4 (rk &&& 0xff) &&& 0xff)

/-- The transform of one word in place. -/
def unmixAt (rk : List UInt32) (i : Nat) : List UInt32 := rk.set i (unmixWord (rk.getD i 0))

/-- The transform of a round key. -/
def unmixKey (rk : List UInt32) (i : Nat) : List UInt32 :=
  unmixAt (unmixAt (unmixAt (unmixAt rk (4 * i)) (4 * i + 1)) (4 * i + 2)) (4 * i + 3)

/-- `AES_set_decrypt_key`. -/
def aesSetDecryptKey (userKey : Option Bytes) (bits : Int) : Except Int AesKey := do
  let key ← aesSetEncryptKey userKey bits
  let rk := invertOrder key.rdKey 0 (4 * key.rounds)
  return ⟨(List.range' 1 (key.rounds - 1)).foldl unmixKey rk, key.rounds⟩

/-- `s0` to `s3`, or `t0` to `t3`. -/
structure CipherWords where
  s0 : UInt32
  s1 : UInt32
  s2 : UInt32
  s3 : UInt32
  deriving DecidableEq

def encryptRound (s : CipherWords) (key : AesKey) (rk : Nat) : CipherWords where
  s0 := look te0 (s.s0 >>> 24) ^^^ look te1 ((s.s1 >>> 16) &&& 0xff) ^^^
    look te2 ((s.s2 >>> 8) &&& 0xff) ^^^ look te3 (s.s3 &&& 0xff) ^^^ key.rk rk
  s1 := look te0 (s.s1 >>> 24) ^^^ look te1 ((s.s2 >>> 16) &&& 0xff) ^^^
    look te2 ((s.s3 >>> 8) &&& 0xff) ^^^ look te3 (s.s0 &&& 0xff) ^^^ key.rk (rk + 1)
  s2 := look te0 (s.s2 >>> 24) ^^^ look te1 ((s.s3 >>> 16) &&& 0xff) ^^^
    look te2 ((s.s0 >>> 8) &&& 0xff) ^^^ look te3 (s.s1 &&& 0xff) ^^^ key.rk (rk + 2)
  s3 := look te0 (s.s3 >>> 24) ^^^ look te1 ((s.s0 >>> 16) &&& 0xff) ^^^
    look te2 ((s.s1 >>> 8) &&& 0xff) ^^^ look te3 (s.s2 &&& 0xff) ^^^ key.rk (rk + 3)

def decryptRound (s : CipherWords) (key : AesKey) (rk : Nat) : CipherWords where
  s0 := look td0 (s.s0 >>> 24) ^^^ look td1 ((s.s3 >>> 16) &&& 0xff) ^^^
    look td2 ((s.s2 >>> 8) &&& 0xff) ^^^ look td3 (s.s1 &&& 0xff) ^^^ key.rk rk
  s1 := look td0 (s.s1 >>> 24) ^^^ look td1 ((s.s0 >>> 16) &&& 0xff) ^^^
    look td2 ((s.s3 >>> 8) &&& 0xff) ^^^ look td3 (s.s2 &&& 0xff) ^^^ key.rk (rk + 1)
  s2 := look td0 (s.s2 >>> 24) ^^^ look td1 ((s.s1 >>> 16) &&& 0xff) ^^^
    look td2 ((s.s0 >>> 8) &&& 0xff) ^^^ look td3 (s.s3 &&& 0xff) ^^^ key.rk (rk + 2)
  s3 := look td0 (s.s3 >>> 24) ^^^ look td1 ((s.s2 >>> 16) &&& 0xff) ^^^
    look td2 ((s.s1 >>> 8) &&& 0xff) ^^^ look td3 (s.s0 &&& 0xff) ^^^ key.rk (rk + 3)

/-- The loop of the full rounds, two in a turn; `r` turns are left behind this one. It gives
`t0` to `t3` and `rk`. -/
def fullRounds (round : CipherWords → AesKey → Nat → CipherWords) (key : AesKey) :
    Nat → Nat → CipherWords → CipherWords × Nat
  | 0, rk, s => (round s key (rk + 4), rk + 8)
  | r + 1, rk, s => fullRounds round key r (rk + 8) (round (round s key (rk + 4)) key (rk + 8))

/-- Four bytes of a substitution table, each from another word. -/
def lastWord (table : List UInt32) (a b c d rk : UInt32) : UInt32 :=
  (look table (a >>> 24) &&& (0xff000000 : UInt32)) ^^^ (look table ((b >>> 16) &&& 0xff) &&& (0x00ff0000 : UInt32)) ^^^
    (look table ((c >>> 8) &&& 0xff) &&& (0x0000ff00 : UInt32)) ^^^ (look table (d &&& 0xff) &&& (0x000000ff : UInt32)) ^^^ rk

def loadWords (input : Block 16) (key : AesKey) : CipherWords where
  s0 := getU32 input.bytes 0 ^^^ key.rk 0
  s1 := getU32 input.bytes 4 ^^^ key.rk 1
  s2 := getU32 input.bytes 8 ^^^ key.rk 2
  s3 := getU32 input.bytes 12 ^^^ key.rk 3

def storeWords (s : CipherWords) : Block 16 :=
  .ofBytes 16 (putU32 s.s0 ++ putU32 s.s1 ++ putU32 s.s2 ++ putU32 s.s3)

/-- `AES_encrypt`; `r` is `key->rounds >> 1`. -/
def aesEncrypt (input : Block 16) (key : AesKey) : Block 16 :=
  let (t, rk) := fullRounds encryptRound key (key.rounds / 2 - 1) 0 (loadWords input key)
  storeWords
    { s0 := lastWord te4 t.s0 t.s1 t.s2 t.s3 (key.rk rk)
      s1 := lastWord te4 t.s1 t.s2 t.s3 t.s0 (key.rk (rk + 1))
      s2 := lastWord te4 t.s2 t.s3 t.s0 t.s1 (key.rk (rk + 2))
      s3 := lastWord te4 t.s3 t.s0 t.s1 t.s2 (key.rk (rk + 3)) }

/-- `AES_decrypt`. -/
def aesDecrypt (input : Block 16) (key : AesKey) : Block 16 :=
  let (t, rk) := fullRounds decryptRound key (key.rounds / 2 - 1) 0 (loadWords input key)
  storeWords
    { s0 := lastWord td4 t.s0 t.s3 t.s2 t.s1 (key.rk rk)
      s1 := lastWord td4 t.s1 t.s0 t.s3 t.s2 (key.rk (rk + 1))
      s2 := lastWord td4 t.s2 t.s1 t.s0 t.s3 (key.rk (rk + 2))
      s3 := lastWord td4 t.s3 t.s2 t.s1 t.s0 (key.rk (rk + 3)) }

end Livezure.Utils
