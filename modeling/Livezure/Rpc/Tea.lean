import Livezure.Core.Blocks
import Mathlib.Logic.Function.Iterate

/-! The cipher of `tea.c`, with `unsigned long` of 32 bits: `qq_encipher` and
`qq_decipher` on blocks of eight bytes, `qq_encrypt` and `qq_decrypt` on messages. -/
namespace Livezure.Rpc
open Livezure.Core

/-! ### Blocks -/

/-- The word in the first four bytes of a memory, after `ntohl`. -/
def ntohl (memory : Bytes) : UInt32 := UInt32.ofNat (leNat (memory.take 4).reverse)

def htonl (word : UInt32) : Bytes := (leBytes 4 word.toNat).reverse

/-- `k[0]` to `k[3]` after `ntohl`. -/
structure TeaKey where
  a : UInt32
  b : UInt32
  c : UInt32
  d : UInt32

def TeaKey.ofBytes (key : Bytes) : TeaKey :=
  ⟨ntohl key, ntohl (key.drop 4), ntohl (key.drop 8), ntohl (key.drop 12)⟩

/-- The variables of the loops in `qq_encipher` and `qq_decipher`. -/
structure TeaWords where
  y : UInt32
  z : UInt32
  sum : UInt32

def teaDelta : UInt32 := 0x9E3779B9

def encipherRound (key : TeaKey) (words : TeaWords) : TeaWords :=
  let sum := words.sum + teaDelta
  let y := words.y +
    (((words.z <<< 4) + key.a) ^^^ (words.z + sum) ^^^ ((words.z >>> 5) + key.b))
  let z := words.z + (((y <<< 4) + key.c) ^^^ (y + sum) ^^^ ((y >>> 5) + key.d))
  { y, z, sum }

def decipherRound (key : TeaKey) (words : TeaWords) : TeaWords :=
  let z := words.z -
    (((words.y <<< 4) + key.c) ^^^ (words.y + words.sum) ^^^ ((words.y >>> 5) + key.d))
  let y := words.y - (((z <<< 4) + key.a) ^^^ (z + words.sum) ^^^ ((z >>> 5) + key.b))
  { y, z, sum := words.sum - teaDelta }

/-- `v[0]` and `v[1]` after `ntohl`. -/
def TeaWords.load (block : Block 8) (sum : UInt32) : TeaWords where
  y := ntohl block.bytes
  z := ntohl (block.bytes.drop 4)
  sum := sum

def TeaWords.store (words : TeaWords) : Block 8 := .ofBytes 8 (htonl words.y ++ htonl words.z)

def qqEncipher (key : TeaKey) (block : Block 8) : Block 8 :=
  ((encipherRound key)^[0x10] (.load block 0)).store

def qqDecipher (key : TeaKey) (block : Block 8) : Block 8 :=
  ((decipherRound key)^[0x10] (.load block 0xE3779B90)).store

@[simp] theorem htonl_length (word : UInt32) : (htonl word).length = 4 := by simp [htonl]

theorem ntohl_htonl (word : UInt32) (rest : Bytes) : ntohl (htonl word ++ rest) = word := by
  have bound := word.toNat_lt
  rw [ntohl, List.take_left' (htonl_length word), htonl, List.reverse_reverse,
    leNat_leBytes _ _ (by simpa using bound), UInt32.ofNat_toNat]

theorem htonl_ntohl {memory : Bytes} (enough : 4 ≤ memory.length) :
    htonl (ntohl memory) = memory.take 4 := by
  have length : (memory.take 4).reverse.length = 4 := by
    rw [List.length_reverse, List.length_take, Nat.min_eq_left enough]
  have bound := leNat_lt (memory.take 4).reverse
  rw [length] at bound
  have whole := leBytes_leNat (memory.take 4).reverse
  rw [length] at whole
  have value : (ntohl memory).toNat = leNat (memory.take 4).reverse := by
    rw [ntohl, UInt32.toNat_ofNat']
    exact Nat.mod_eq_of_lt (by simpa using bound)
  rw [htonl, value, whole, List.reverse_reverse]

theorem TeaWords.load_store (words : TeaWords) : TeaWords.load words.store words.sum = words := by
  have bytes : words.store.bytes = htonl words.y ++ htonl words.z := by
    have length : (htonl words.y ++ htonl words.z).length = 8 := by simp
    rw [store, Block.bytes_ofBytes (Nat.le_of_eq length.symm), List.take_of_length_le (by simp)]
  have second : ntohl (htonl words.z) = words.z := by simpa using ntohl_htonl words.z []
  rw [load, bytes, ntohl_htonl, List.drop_left' (htonl_length _), second]

theorem TeaWords.store_load (block : Block 8) (sum : UInt32) : (load block sum).store = block := by
  have length := block.bytes_length
  have bytes : htonl (ntohl block.bytes) ++ htonl (ntohl (block.bytes.drop 4)) = block.bytes := by
    have rest : (block.bytes.drop 4).length = 4 := by rw [List.length_drop, length]
    rw [htonl_ntohl (by omega), htonl_ntohl (Nat.le_of_eq rest.symm),
      List.take_of_length_le (Nat.le_of_eq rest), List.take_append_drop]
  rw [store, load, bytes]
  simpa using Block.ofBytes_bytes block []

theorem decipherRound_encipherRound (key : TeaKey) :
    Function.LeftInverse (decipherRound key) (encipherRound key) := by
  rintro ⟨y, z, sum⟩
  simp only [decipherRound, encipherRound, UInt32.add_sub_cancel]

theorem qqDecipher_qqEncipher (key : TeaKey) (block : Block 8) :
    qqDecipher key (qqEncipher key block) = block := by
  have counted : Function.Semiconj TeaWords.sum (encipherRound key) (· + teaDelta) := fun _ => rfl
  have deltas : (· + teaDelta)^[0x10] 0 = 0xE3779B90 := by decide
  have last : ((encipherRound key)^[0x10] (.load block 0)).sum = 0xE3779B90 :=
    (counted.iterate_right 0x10 (.load block 0)).trans deltas
  rw [qqDecipher, qqEncipher, ← last, TeaWords.load_store,
    (decipherRound_encipherRound key).iterate 0x10, TeaWords.store_load]

/-! ### Encryption of a message -/

/-- The variables of `qq_encrypt`. -/
structure QqEncrypt where
  /-- `plain` up to `pos_in_byte`. -/
  plain : Bytes
  plainPre8 : Block 8
  /-- `outstr` up to `crypted`; its length is `count`. -/
  crypted : Bytes
  cryptedPre8 : Block 8
  isHeader : Bool

namespace QqEncrypt

/-- What `encrypt_every_8_byte` mixes into `plain`. -/
def mask (self : QqEncrypt) : Block 8 := if self.isHeader then self.plainPre8 else self.cryptedPre8

def encryptEvery8Byte (key : TeaKey) (self : QqEncrypt) : QqEncrypt :=
  let plain := (Block.ofBytes 8 self.plain).xor self.mask
  let crypted := (qqEncipher key plain).xor self.plainPre8
  { plain := [], plainPre8 := plain, crypted := self.crypted ++ crypted.bytes
    cryptedPre8 := crypted, isHeader := false }

def flush (key : TeaKey) (self : QqEncrypt) : QqEncrypt :=
  if self.plain.length = 8 then self.encryptEvery8Byte key else self

def put (self : QqEncrypt) (byte : UInt8) : QqEncrypt := { self with plain := self.plain ++ [byte] }

/-- The loops that put bytes into `plain`. An iteration that finds it full only
encrypts it. -/
def feed (key : TeaKey) : QqEncrypt → Bytes → QqEncrypt
  | self, [] => self
  | self, byte :: rest => feed key (((self.flush key).put byte).flush key) rest

end QqEncrypt

/-- The first value of `pos_in_byte`. -/
def headerPadding (instrlen : Nat) : Nat :=
  let posInByte := (instrlen + 0x0a) % 8
  if posInByte = 0 then 0 else 8 - posInByte

/-- `plain` before the first loop. The low bits of its first byte give the number of
padding bytes behind it. -/
def teaHeader (rand : Nat → Nat) (instrlen : Nat) : Bytes :=
  ((UInt8.ofNat (rand 0) &&& 0xf8) ||| UInt8.ofNat (headerPadding instrlen)) ::
    List.replicate (headerPadding instrlen) (UInt8.ofNat (rand 1))

/-- `qq_encrypt`. `rand` gives the values of `rand()` in turn. -/
def qqEncrypt (key : TeaKey) (rand : Nat → Nat) (instr : Bytes) : Bytes :=
  let start : QqEncrypt := {
    plain := teaHeader rand instr.length, plainPre8 := .zero 8, crypted := []
    cryptedPre8 := .zero 8, isHeader := true }
  let padded := start.feed key [UInt8.ofNat (rand 2), UInt8.ofNat (rand 3)]
  let filled := padded.feed key instr
  (filled.feed key (List.replicate 7 0)).crypted

/-- All bytes that go through `plain`. -/
def teaMessage (rand : Nat → Nat) (instr : Bytes) : Bytes :=
  teaHeader rand instr.length ++ [UInt8.ofNat (rand 2), UInt8.ofNat (rand 3)] ++ instr ++
    List.replicate 7 0

theorem headerPadding_lt (instrlen : Nat) : headerPadding instrlen < 8 := by
  simp only [headerPadding]
  split <;> omega

def teaBlocks (instrlen : Nat) : Nat := (instrlen + 17) / 8

theorem teaBlocks_eq (instrlen : Nat) : 8 * teaBlocks instrlen = instrlen + 10 + headerPadding instrlen := by
  simp only [teaBlocks, headerPadding]
  split <;> omega

theorem teaMessage_length (rand : Nat → Nat) (instr : Bytes) :
    (teaMessage rand instr).length = 8 * teaBlocks instr.length := by
  simp only [teaMessage, teaHeader, List.length_append, List.length_cons, List.length_replicate,
    List.length_nil, teaBlocks_eq]
  omega

def teaCoded (key : TeaKey) (mask carry : Block 8) (texts : List (Block 8)) : List (Block 8) :=
  carryEncrypt Block.xor (qqEncipher key) mask carry texts

namespace QqEncrypt

/-- What `outstr` will be if only `later` follows. -/
def final (key : TeaKey) (self : QqEncrypt) (later : Bytes) : Bytes :=
  self.crypted ++ joined (teaCoded key self.mask self.plainPre8
    (blocks 8 ((self.plain.length + later.length) / 8) (self.plain ++ later)))

theorem final_flush (key : TeaKey) (self : QqEncrypt) (later : Bytes) :
    (self.flush key).final key later = self.final key later := by
  unfold flush
  split
  · rename_i full
    have count : (self.plain.length + later.length) / 8 = later.length / 8 + 1 := by omega
    have first : Block.ofBytes 8 (self.plain ++ later) = Block.ofBytes 8 self.plain := by
      ext index inside
      have within : index < self.plain.length := by omega
      simp only [Block.ofBytes, Vector.getElem_ofFn]
      rw [List.getD_append _ _ _ _ within]
    rw [final, final, count, blocks, first, List.drop_left' full, encryptEvery8Byte]
    simp only [List.nil_append, List.length_nil, Nat.zero_add, teaCoded, carryEncrypt, joined_cons,
      List.append_assoc]
    rfl
  · rfl

theorem final_put (key : TeaKey) (self : QqEncrypt) (byte : UInt8) (later : Bytes) :
    (self.put byte).final key later = self.final key (byte :: later) := by
  have length : (self.plain ++ [byte]).length + later.length =
      self.plain.length + (byte :: later).length := by
    simp only [List.length_append, List.length_cons, List.length_nil]
    omega
  simp only [final, put, length, List.append_assoc, List.singleton_append]
  rfl

theorem final_feed (key : TeaKey) (self : QqEncrypt) (bytes later : Bytes) :
    (self.feed key bytes).final key later = self.final key (bytes ++ later) := by
  induction bytes generalizing self with
  | nil => rfl
  | cons byte rest ih =>
    rw [feed, ih, final_flush, final_put, final_flush]
    rfl

theorem flush_plain (key : TeaKey) {self : QqEncrypt} (within : self.plain.length ≤ 8) :
    (self.flush key).plain.length < 8 := by
  unfold flush
  split
  · exact Nat.zero_lt_succ 7
  · omega

theorem feed_plain {key : TeaKey} {self : QqEncrypt} (within : self.plain.length ≤ 8)
    (byte : UInt8) (rest : Bytes) : (self.feed key (byte :: rest)).plain.length < 8 := by
  induction rest generalizing self byte with
  | nil =>
    apply flush_plain
    have short := flush_plain key within
    rw [put, List.length_append]
    exact short
  | cons next rest ih =>
    apply ih
    have short := flush_plain key within
    apply Nat.le_of_lt
    apply flush_plain
    rw [put, List.length_append]
    exact short

theorem feed_short {key : TeaKey} {self : QqEncrypt} (short : self.plain.length < 8) (bytes : Bytes) :
    (self.feed key bytes).plain.length < 8 := by
  cases bytes with
  | nil => exact short
  | cons byte rest => exact feed_plain (Nat.le_of_lt short) byte rest

theorem final_nil {key : TeaKey} {self : QqEncrypt} (short : self.plain.length < 8) :
    self.final key [] = self.crypted := by
  rw [final, List.length_nil, Nat.add_zero, Nat.div_eq_of_lt short]
  exact List.append_nil _

end QqEncrypt

theorem qqEncrypt_eq (key : TeaKey) (rand : Nat → Nat) (instr : Bytes) :
    qqEncrypt key rand instr = joined (teaCoded key (.zero 8) (.zero 8)
      (blocks 8 (teaBlocks instr.length) (teaMessage rand instr))) := by
  let start : QqEncrypt := {
    plain := teaHeader rand instr.length, plainPre8 := .zero 8, crypted := []
    cryptedPre8 := .zero 8, isHeader := true }
  let padding : Bytes := [UInt8.ofNat (rand 2), UInt8.ofNat (rand 3)]
  let tailer : Bytes := List.replicate 7 0
  have header : start.plain.length ≤ 8 := by
    have bound := headerPadding_lt instr.length
    change (teaHeader rand instr.length).length ≤ 8
    rw [teaHeader, List.length_cons, List.length_replicate]
    exact bound
  have padded : (start.feed key padding).plain.length < 8 := QqEncrypt.feed_plain header _ _
  have filled : ((start.feed key padding).feed key instr).plain.length < 8 :=
    QqEncrypt.feed_short padded instr
  have ended : (((start.feed key padding).feed key instr).feed key tailer).plain.length < 8 :=
    QqEncrypt.feed_short filled tailer
  have message : start.plain ++ (padding ++ (instr ++ (tailer ++ []))) = teaMessage rand instr := by
    rw [List.append_nil, ← List.append_assoc, ← List.append_assoc]
    rfl
  have count := congrArg List.length message
  rw [List.length_append, teaMessage_length] at count
  have mask : start.mask = .zero 8 := rfl
  calc qqEncrypt key rand instr
      = (((start.feed key padding).feed key instr).feed key tailer).final key [] :=
        (QqEncrypt.final_nil ended).symm
    _ = start.final key (padding ++ (instr ++ (tailer ++ []))) := by
        rw [QqEncrypt.final_feed, QqEncrypt.final_feed, QqEncrypt.final_feed]
    _ = joined (teaCoded key (.zero 8) (.zero 8)
          (blocks 8 (teaBlocks instr.length) (teaMessage rand instr))) := by
        rw [QqEncrypt.final, message, count, Nat.mul_div_cancel_left _ (Nat.zero_lt_succ 7), mask]
        exact List.nil_append _

theorem qqEncrypt_length (key : TeaKey) (rand : Nat → Nat) (instr : Bytes) :
    (qqEncrypt key rand instr).length = 8 * teaBlocks instr.length := by
  rw [qqEncrypt_eq, joined_length, teaCoded, carryEncrypt_length, blocks_length]

/-! ### Decryption of a message -/

/-- The variables of `qq_decrypt`. -/
structure QqDecrypt where
  decrypted : Block 8
  cryptBuffPre8 : Block 8
  /-- `crypt_buff` is `instr` from here on. -/
  contextStart : Nat
  posInByte : Nat

namespace QqDecrypt

/-- `decrypt_every_8_byte`. It makes `qq_decrypt` return if no whole block is left. -/
def decryptEvery8Byte (key : TeaKey) (instr : Bytes) (self : QqDecrypt) : Option QqDecrypt :=
  if instr.length < self.contextStart + 8 then none
  else some { self with
    decrypted := qqDecipher key (self.decrypted.xor (.ofBytes 8 (instr.drop self.contextStart)))
    contextStart := self.contextStart + 8
    posInByte := 0 }

/-- The second half of an iteration: behind a block the next one is decrypted. -/
def settle (key : TeaKey) (instr : Bytes) (self : QqDecrypt) : Option QqDecrypt :=
  if self.posInByte = 8 then
    { self with cryptBuffPre8 := .ofBytes 8 (instr.drop (self.contextStart - 8)) }.decryptEvery8Byte
      key instr
  else some self

def bump (self : QqDecrypt) : QqDecrypt := { self with posInByte := self.posInByte + 1 }

def byte (self : QqDecrypt) : UInt8 :=
  self.cryptBuffPre8.bytes.getD self.posInByte 0 ^^^ self.decrypted.bytes.getD self.posInByte 0

/-- The loop that passes over two bytes of the header. -/
def skip (key : TeaKey) (instr : Bytes) (self : QqDecrypt) : Option QqDecrypt := do
  let self ← self.settle key instr
  let self ← self.bump.settle key instr
  self.bump.settle key instr

/-- The loop that fills `outstr`. -/
def copyOut (key : TeaKey) (instr : Bytes) : Nat → QqDecrypt → Bytes
  | 0, _ => []
  | count + 1, self =>
    self.byte ::
      match self.bump.settle key instr with
      | none => []
      | some next => copyOut key instr count next

end QqDecrypt

/-- `qq_decrypt`: what it writes to `outstr`, and `*outstrlen_ptr`. The value returned
and the loop behind the last byte, which only decides it, are left out: nobody reads it. -/
def qqDecrypt (key : TeaKey) (instr : Bytes) (outstrlen : Int) : Bytes × Int :=
  if instr.length % 8 ≠ 0 ∨ instr.length < 16 then ([], outstrlen)
  else
    let decrypted := qqDecipher key (.ofBytes 8 instr)
    let posInByte := (decrypted.bytes.getD 0 0 &&& 0x7).toNat
    let count := (instr.length : Int) - posInByte - 10
    if outstrlen < count ∨ count < 0 then ([], outstrlen)
    else
      let start : QqDecrypt := {
        decrypted, cryptBuffPre8 := .zero 8, contextStart := 8, posInByte := posInByte + 1 }
      match start.skip key instr with
      | none => ([], count)
      | some self => (self.copyOut key instr count.toNat, count)

namespace QqDecrypt
variable {key : TeaKey} {instr : Bytes}

/-- The block in hand decrypts to `text`, and the blocks behind it to `rest`. -/
structure Holds (key : TeaKey) (instr : Bytes) (state : QqDecrypt) (text : Block 8)
    (rest : List (Block 8)) : Prop where
  inside : state.posInByte < 8
  mixed : state.decrypted = text.xor state.cryptBuffPre8
  coded : ∃ coded : Block 8, 8 ≤ state.contextStart ∧
    instr.drop (state.contextStart - 8) =
      coded.bytes ++ joined (teaCoded key coded state.decrypted rest)

/-- The bytes of the message that are still to come. -/
def Ahead (key : TeaKey) (instr : Bytes) (self : QqDecrypt) (later : Bytes) : Prop :=
  ∃ text rest, Holds key instr self text rest ∧
    later = (text.bytes ++ joined rest).drop self.posInByte

theorem Holds.byte_eq {self : QqDecrypt} {text : Block 8} {rest : List (Block 8)}
    (holds : Holds key instr self text rest) : self.byte = text.bytes.getD self.posInByte 0 := by
  rw [byte, Block.bytes_getD _ _ holds.inside, Block.bytes_getD _ _ holds.inside,
    Block.bytes_getD _ _ holds.inside]
  simp only [holds.mixed, Block.xor_get]
  rw [UInt8.xor_comm, UInt8.xor_assoc, UInt8.xor_self, UInt8.xor_zero]

/-- Behind the last byte of a block the next block is in hand, if there is one. -/
theorem Holds.settle_block {self : QqDecrypt} {text next : Block 8} {rest : List (Block 8)}
    (holds : Holds key instr self text (next :: rest)) (last : self.posInByte + 1 = 8) :
    ∃ after, self.bump.settle key instr = some after ∧ after.posInByte = 0 ∧
      Holds key instr after next rest := by
  obtain ⟨coded, behind, bytes⟩ := holds.coded
  let mixed := next.xor coded
  let code := (qqEncipher key mixed).xor self.decrypted
  have later : instr.drop self.contextStart = code.bytes ++ joined (teaCoded key code mixed rest) := by
    have more := congrArg (List.drop 8) bytes
    rw [List.drop_drop, List.drop_left' (Block.bytes_length coded),
      Nat.sub_add_cancel behind] at more
    exact more
  have enough : ¬ instr.length < self.contextStart + 8 := by
    have length := congrArg List.length later
    rw [List.length_drop, List.length_append, Block.bytes_length] at length
    omega
  have previous : Block.ofBytes 8 (instr.drop (self.contextStart - 8)) = coded := by
    rw [bytes, Block.ofBytes_bytes]
  have current : Block.ofBytes 8 (instr.drop self.contextStart) = code := by
    rw [later, Block.ofBytes_bytes]
  have decrypted : qqDecipher key (self.decrypted.xor code) = mixed := by
    rw [Block.xor_comm, Block.xor_cancel, qqDecipher_qqEncipher]
  refine ⟨⟨mixed, coded, self.contextStart + 8, 0⟩, ?_, rfl, Nat.zero_lt_succ 7, rfl, code,
    Nat.le_add_left _ _, ?_⟩
  · simp only [settle, bump, last, ↓reduceIte, decryptEvery8Byte, if_neg enough, previous, current,
      decrypted]
  · simp only [Nat.add_sub_cancel]
    exact later

theorem Holds.settle_end {self : QqDecrypt} {text : Block 8} (holds : Holds key instr self text [])
    (last : self.posInByte + 1 = 8) : self.bump.settle key instr = none := by
  obtain ⟨coded, behind, bytes⟩ := holds.coded
  have length := congrArg List.length bytes
  rw [List.length_drop, List.length_append, Block.bytes_length] at length
  have nothing : (joined (teaCoded key coded self.decrypted [])).length = 0 := rfl
  have short : instr.length < self.contextStart + 8 := by omega
  simp only [settle, bump, last, ↓reduceIte, decryptEvery8Byte, if_pos short]

/-- One byte of the message: the next one is in reach, unless it was the last. -/
theorem Ahead.step {self : QqDecrypt} {later : Bytes} (ahead : self.Ahead key instr later) :
    ∃ tail, later = self.byte :: tail ∧
      ((tail = [] ∧ self.bump.settle key instr = none) ∨
        ∃ next, self.bump.settle key instr = some next ∧ next.Ahead key instr tail) := by
  obtain ⟨text, rest, holds, rfl⟩ := ahead
  have inside := holds.inside
  have length := text.bytes_length
  refine ⟨(text.bytes ++ joined rest).drop (self.posInByte + 1), ?_, ?_⟩
  · have within : self.posInByte < text.bytes.length := by rwa [length]
    have reach : self.posInByte < (text.bytes ++ joined rest).length := by
      rw [List.length_append]
      omega
    rw [List.drop_eq_getElem_cons reach, List.getElem_append_left within, holds.byte_eq,
      List.getD_eq_getElem _ _ within]
  · by_cases last : self.posInByte + 1 = 8
    · rw [last, List.drop_left' length]
      cases rest with
      | nil => exact .inl ⟨rfl, holds.settle_end last⟩
      | cons next rest =>
        obtain ⟨after, settled, start, still⟩ := holds.settle_block last
        refine .inr ⟨after, settled, next, rest, still, ?_⟩
        rw [start]
        rfl
    · have settled : self.bump.settle key instr = some self.bump := if_neg last
      have short : self.posInByte + 1 < 8 := Nat.lt_of_le_of_ne inside last
      exact .inr ⟨_, settled, text, rest, ⟨short, holds.mixed, holds.coded⟩, rfl⟩

theorem Ahead.copyOut_eq {self : QqDecrypt} {later : Bytes} (ahead : self.Ahead key instr later)
    {count : Nat} (enough : count ≤ later.length) :
    self.copyOut key instr count = later.take count := by
  induction count generalizing self later with
  | zero => rfl
  | succ count ih =>
    obtain ⟨tail, rfl, outcome⟩ := ahead.step
    rw [copyOut, List.take_succ_cons]
    rcases outcome with ⟨rfl, ended⟩ | ⟨next, settled, onward⟩
    · rw [ended, List.take_nil]
    · rw [settled, ← ih onward (Nat.le_of_succ_le_succ enough)]

/-- Where a byte follows, the step does not end the decryption. -/
theorem Ahead.next {self : QqDecrypt} {later : Bytes} (ahead : self.Ahead key instr later)
    (more : 1 < later.length) :
    ∃ next, self.bump.settle key instr = some next ∧ next.Ahead key instr (later.drop 1) := by
  obtain ⟨tail, rfl, ⟨rfl, _⟩ | ⟨next, settled, onward⟩⟩ := ahead.step
  · exact absurd more (Nat.lt_irrefl 1)
  · exact ⟨next, settled, onward⟩

theorem Ahead.skip_eq {self : QqDecrypt} {later : Bytes} (ahead : self.Ahead key instr later)
    (more : 3 < later.length) :
    ∃ next, self.bump.skip key instr = some next ∧ next.Ahead key instr (later.drop 3) := by
  obtain ⟨first, settledFirst, ahead⟩ := ahead.next (by omega)
  obtain ⟨second, settledSecond, ahead⟩ := ahead.next (by rw [List.length_drop]; omega)
  obtain ⟨third, settledThird, ahead⟩ := ahead.next (by rw [List.length_drop, List.length_drop]; omega)
  refine ⟨third, ?_, ?_⟩
  · simp only [skip, settledFirst, bind, Option.bind, settledSecond, settledThird]
  · rwa [List.drop_drop, List.drop_drop] at ahead

end QqDecrypt

private theorem headerByte_padding (salt : Nat) (instrlen : Nat) :
    ((UInt8.ofNat salt &&& 0xf8 ||| UInt8.ofNat (headerPadding instrlen)) &&& 0x7).toNat =
      headerPadding instrlen := by
  have bound := headerPadding_lt instrlen
  have value : (UInt8.ofNat (headerPadding instrlen)).toNat = headerPadding instrlen := by
    rw [UInt8.toNat_ofNat']
    omega
  have masks : (0xf8 : UInt8).toNat &&& (0x7 : UInt8).toNat = 0 := rfl
  have low : headerPadding instrlen &&& (0x7 : UInt8).toNat = headerPadding instrlen := by
    have mod := Nat.and_two_pow_sub_one_eq_mod (headerPadding instrlen) 3
    rw [Nat.mod_eq_of_lt bound] at mod
    exact mod
  rw [UInt8.toNat_and, UInt8.toNat_or, UInt8.toNat_and, Nat.and_or_distrib_right, Nat.and_assoc,
    masks, Nat.and_zero, Nat.zero_or, value, low]

/-- What `qq_encrypt` wrote decrypts to what it was given, if `outstr` has room. -/
theorem qqDecrypt_qqEncrypt (key : TeaKey) (rand : Nat → Nat) (instr : Bytes) {outstrlen : Int}
    (room : instr.length ≤ outstrlen) :
    qqDecrypt key (qqEncrypt key rand instr) outstrlen = (instr, (instr.length : Int)) := by
  let padding := headerPadding instr.length
  let message := teaMessage rand instr
  let first := Block.ofBytes 8 message
  let others := blocks 8 (teaBlocks instr.length - 1) (message.drop 8)
  have blockCount := teaBlocks_eq instr.length
  have size : teaBlocks instr.length = teaBlocks instr.length - 1 + 1 := by omega
  have length : message.length = 8 * teaBlocks instr.length := teaMessage_length rand instr
  have texts : blocks 8 (teaBlocks instr.length) message = first :: others := by
    rw [size]
    rfl
  have whole : first.bytes ++ joined others = message := by
    rw [← joined_cons, ← texts, joined_blocks (Nat.le_of_eq length.symm),
      List.take_of_length_le (Nat.le_of_eq length)]
  have coded : qqEncrypt key rand instr =
      (qqEncipher key first).bytes ++ joined (teaCoded key (qqEncipher key first) first others) := by
    rw [qqEncrypt_eq, texts, teaCoded, carryEncrypt, joined_cons, Block.xor_zero, Block.xor_zero]
    rfl
  have total := qqEncrypt_length key rand instr
  have decrypted : qqDecipher key (.ofBytes 8 (qqEncrypt key rand instr)) = first := by
    rw [coded, Block.ofBytes_bytes, qqDecipher_qqEncipher]
  have position : (first.bytes.getD 0 0 &&& 0x7).toNat = padding := by
    rw [Block.bytes_getD _ _ (Nat.zero_lt_succ 7)]
    exact headerByte_padding (rand 0) instr.length
  have count : ((qqEncrypt key rand instr).length : Int) - padding - 10 = instr.length := by
    rw [total, blockCount]
    omega
  let before : QqDecrypt := ⟨first, .zero 8, 8, padding⟩
  have ahead : before.Ahead key (qqEncrypt key rand instr) (message.drop padding) := by
    refine ⟨first, others, ⟨headerPadding_lt _, ?_, qqEncipher key first, Nat.le_refl 8, coded⟩, ?_⟩
    · exact (Block.xor_zero first).symm
    · rw [whole]
  obtain ⟨after, skipped, ahead⟩ := ahead.skip_eq (by rw [List.length_drop]; omega)
  have later : (message.drop padding).drop 3 = instr ++ List.replicate 7 0 := by
    have front : (teaHeader rand instr.length ++
        [UInt8.ofNat (rand 2), UInt8.ofNat (rand 3)]).length = padding + 3 := by
      rw [teaHeader, List.length_append, List.length_cons, List.length_replicate]
      rfl
    rw [List.drop_drop, ← front]
    change List.drop _ (_ ++ instr ++ List.replicate 7 0) = _
    rw [List.append_assoc, List.drop_left]
  rw [later] at ahead
  have written : after.copyOut key (qqEncrypt key rand instr) instr.length = instr := by
    rw [ahead.copyOut_eq (by rw [List.length_append]; omega), List.take_left]
  have regular : ¬ ((qqEncrypt key rand instr).length % 8 ≠ 0 ∨
      (qqEncrypt key rand instr).length < 16) := by
    omega
  have fits : ¬ (outstrlen < (instr.length : Int) ∨ (instr.length : Int) < 0) := by omega
  simp only [qqDecrypt, if_neg regular, decrypted, position, count, if_neg fits, Int.toNat_natCast]
  change (match before.bump.skip key (qqEncrypt key rand instr) with
    | none => ([], (instr.length : Int))
    | some self => (self.copyOut key (qqEncrypt key rand instr) instr.length, (instr.length : Int))) = _
  rw [skipped]
  exact congrArg (·, (instr.length : Int)) written

/-! ### Any message -/

/-- The number of bytes that `qq_decrypt` writes to `outstr` where that has room for the
whole message. -/
def qqDecryptCount (key : TeaKey) (instr : Bytes) : Nat :=
  if instr.length % 8 ≠ 0 ∨ instr.length < 16 then 0
  else
    let posInByte := ((qqDecipher key (.ofBytes 8 instr)).bytes.getD 0 0 &&& 0x7).toNat
    instr.length - posInByte - 10

theorem qqDecryptCount_le (key : TeaKey) (instr : Bytes) : qqDecryptCount key instr ≤ instr.length := by
  unfold qqDecryptCount
  split
  · exact Nat.zero_le _
  · exact Nat.le_trans (Nat.sub_le _ _) (Nat.sub_le _ _)

namespace QqDecrypt
variable {key : TeaKey} {instr : Bytes}

/-- Whole blocks were decrypted, and the position is in the last of them or behind it. -/
structure Inside (instr : Bytes) (state : QqDecrypt) : Prop where
  aligned : state.contextStart % 8 = 0
  behind : 8 ≤ state.contextStart
  within : state.posInByte ≤ 8

/-- The number of bytes up to the position, and the eight of one block. -/
def reached (self : QqDecrypt) : Nat := self.contextStart + self.posInByte

variable (key) in
/-- Behind a block there is a whole one, unless all bytes are behind the position. -/
theorem Inside.settle {self : QqDecrypt} (inside : Inside instr self) (whole : instr.length % 8 = 0)
    (more : self.reached < instr.length + 8) :
    ∃ next, self.settle key instr = some next ∧ Inside instr next ∧ next.posInByte < 8 ∧
      next.reached = self.reached := by
  obtain ⟨aligned, behind, within⟩ := inside
  rw [reached] at more ⊢
  by_cases last : self.posInByte = 8
  · have enough : ¬ instr.length < self.contextStart + 8 := by omega
    obtain ⟨decrypted, previous, settled⟩ : ∃ decrypted previous,
        self.settle key instr = some ⟨decrypted, previous, self.contextStart + 8, 0⟩ := by
      simp only [QqDecrypt.settle, if_pos last, decryptEvery8Byte, if_neg enough]
      exact ⟨_, _, rfl⟩
    refine ⟨_, settled, ⟨?_, Nat.le_add_left _ _, Nat.zero_le _⟩, Nat.zero_lt_succ 7, ?_⟩
    · rw [Nat.add_mod_right, aligned]
    · rw [last]
      rfl
  · exact ⟨self, if_neg last, ⟨aligned, behind, within⟩, Nat.lt_of_le_of_ne within last, rfl⟩

theorem Inside.bump {self : QqDecrypt} (inside : Inside instr self) (short : self.posInByte < 8) :
    Inside instr self.bump ∧ self.bump.reached = self.reached + 1 :=
  ⟨⟨inside.aligned, inside.behind, short⟩, rfl⟩

variable (key) in
theorem Inside.skip {self : QqDecrypt} (inside : Inside instr self) (whole : instr.length % 8 = 0)
    (more : self.reached + 2 < instr.length + 8) :
    ∃ next, self.skip key instr = some next ∧ Inside instr next ∧ next.posInByte < 8 ∧
      next.reached = self.reached + 2 := by
  obtain ⟨first, settledFirst, inside, short, same⟩ := inside.settle key whole (by omega)
  obtain ⟨inside, bumped⟩ := inside.bump short
  obtain ⟨second, settledSecond, inside, short, sameSecond⟩ := inside.settle key whole (by omega)
  obtain ⟨inside, bumpedSecond⟩ := inside.bump short
  obtain ⟨third, settledThird, inside, short, sameThird⟩ := inside.settle key whole (by omega)
  refine ⟨third, ?_, inside, short, by omega⟩
  simp only [QqDecrypt.skip, settledFirst, bind, Option.bind, settledSecond, settledThird]

variable (key) in
theorem Inside.copyOut_length {self : QqDecrypt} (inside : Inside instr self) (short : self.posInByte < 8)
    (whole : instr.length % 8 = 0) {count : Nat} (more : self.reached + count < instr.length + 8) :
    (self.copyOut key instr count).length = count := by
  induction count generalizing self with
  | zero => rfl
  | succ count ih =>
    obtain ⟨inside, bumped⟩ := inside.bump short
    obtain ⟨next, settled, inside, short, same⟩ := inside.settle key whole (by omega)
    rw [copyOut, settled, List.length_cons]
    exact congrArg (· + 1) (ih inside short (by omega))

end QqDecrypt

/-- Whatever the bytes are, the loop writes as many as it sets out to. -/
theorem qqDecrypt_produces (key : TeaKey) {instr : Bytes} {outstrlen : Int}
    (room : instr.length ≤ outstrlen) :
    (qqDecrypt key instr outstrlen).1.length = qqDecryptCount key instr ∧
      (qqDecrypt key instr outstrlen).2 ≤ outstrlen := by
  unfold qqDecrypt qqDecryptCount
  split
  · exact ⟨rfl, Int.le_refl _⟩
  · rename_i regular
    obtain ⟨whole, long⟩ := not_or.mp regular
    have whole := not_not.mp whole
    let first := qqDecipher key (.ofBytes 8 instr)
    let posInByte := (first.bytes.getD 0 0 &&& 0x7).toNat
    have low : posInByte < 8 := by
      change (_ &&& (0x7 : UInt8)).toNat < 8
      rw [UInt8.toNat_and]
      exact Nat.lt_of_le_of_lt Nat.and_le_right (by decide)
    simp only
    split
    · rename_i refused
      refine ⟨?_, Int.le_refl _⟩
      have nothing : instr.length - posInByte - 10 = 0 := by
        change outstrlen < (instr.length : Int) - posInByte - 10 ∨
          (instr.length : Int) - posInByte - 10 < 0 at refused
        omega
      exact nothing.symm
    · rename_i accepted
      change ¬ (outstrlen < (instr.length : Int) - posInByte - 10 ∨
        (instr.length : Int) - posInByte - 10 < 0) at accepted
      let start : QqDecrypt := ⟨first, .zero 8, 8, posInByte + 1⟩
      have inside : QqDecrypt.Inside instr start := ⟨Nat.mod_self 8, Nat.le_refl 8, low⟩
      have ahead : start.reached = 8 + (posInByte + 1) := rfl
      obtain ⟨after, skipped, inside, short, same⟩ := inside.skip key whole (by omega)
      have count : ((instr.length : Int) - posInByte - 10).toNat = instr.length - posInByte - 10 := by
        omega
      have written := inside.copyOut_length key short whole
        (show after.reached + (instr.length - posInByte - 10) < instr.length + 8 by omega)
      let outcome : Bytes × Int := match start.skip key instr with
        | none => ([], (instr.length : Int) - posInByte - 10)
        | some self => (self.copyOut key instr ((instr.length : Int) - posInByte - 10).toNat,
            (instr.length : Int) - posInByte - 10)
      have result : outcome = (after.copyOut key instr (instr.length - posInByte - 10),
          (instr.length : Int) - posInByte - 10) := by
        simp only [outcome, skipped, count]
      change outcome.1.length = _ ∧ outcome.2 ≤ outstrlen
      rw [result]
      exact ⟨written, by omega⟩

end Livezure.Rpc
