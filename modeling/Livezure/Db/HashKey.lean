import Livezure.Core.Cells
import Livezure.Db.Integrity

/-! The hash of a password (`hashkey.c`) in the buffer of its caller (`db_account.c`). -/
namespace Livezure.Db
open Livezure.Core

/-- SHA-1 and MD5. -/
structure Digests where
  sha1 : Bytes → Bytes
  md5 : Bytes → Bytes
  sha1_length : ∀ message, (sha1 message).length = 20
  md5_length : ∀ message, (md5 message).length = 16

/-- `hashpwd` before the call, up to the last byte, which the caller has set to 0. -/
structure KeyBuffer where
  bytes : Bytes
  size : bytes.length = 32
  deriving DecidableEq

/-- The message that `inbuf` and `inlen` stand for. -/
def keyMessage (inbuf : Bytes) (inlen : Int) : Bytes :=
  if inlen ≤ 0 then cstring inbuf else inbuf.take inlen.toNat

def hexDigit (value : Nat) : UInt8 := UInt8.ofNat (if value < 10 then 48 + value else 55 + value)

def hex (byte : UInt8) : Bytes := [hexDigit (byte.toNat / 16), hexDigit (byte.toNat % 16)]

/-- The loop of `gen_hash_key`; the cast in `(short *)md++` does not change the step, which is
one byte. -/
def hexLoop (md : Bytes) (place : Nat) : Bytes → Bytes
  | [] => md
  | byte :: rest => hexLoop (splice md place (hex byte)) (place + 1) rest

section
variable (digests : Digests)

/-- `md5` in `gen_hash_key`: of the SHA-1 in a cleared buffer of 32 bytes. -/
def keyDigest (inbuf : Bytes) (inlen : Int) : Bytes :=
  digests.md5 (digests.sha1 (keyMessage inbuf inlen) ++ List.replicate 12 0)

def genHashKey (md : Bytes) (inbuf : Bytes) (inlen : Int) : Bytes :=
  hexLoop md 0 (keyDigest digests inbuf inlen)

def pwdDigest (pwd : Bytes) : Bytes := keyDigest digests pwd (-1)

/-- `hashpwd` after `account_gen_hash_key(hashpwd, pwd, -1)`. -/
def hashpwd (before : KeyBuffer) (pwd : Bytes) : Bytes :=
  genHashKey digests (before.bytes ++ [0]) pwd (-1)

def accountGenHashKey (before : KeyBuffer) (pwd : Bytes) : Bytes :=
  cstring (hashpwd digests before pwd)

end

/-- The whole digest in hexadecimal. -/
def hexDigest (digest : Bytes) : Bytes := digest.flatMap hex

/-- What is left of it: the first digit of each byte, and the second one of the last. -/
def keptDigits (digest : Bytes) : Bytes :=
  digest.map (fun byte => hexDigit (byte.toNat / 16)) ++
    (digest.getLast?.map fun byte => hexDigit (byte.toNat % 16)).toList

/-- What the buffer held behind the digits that are written. -/
def KeyBuffer.stale (before : KeyBuffer) : Bytes := before.bytes.drop 17

/-- The stale bytes leave the statement in one piece. -/
def KeyBuffer.Plain (before : KeyBuffer) : Prop := 39 ∉ before.stale

/-! ### What the loop writes -/

theorem keptDigits_cons (byte next : UInt8) (rest : Bytes) :
    keptDigits (byte :: next :: rest) = hexDigit (byte.toNat / 16) :: keptDigits (next :: rest) := by
  simp [keptDigits, List.getLast?_cons_cons]

theorem hexLoop_eq (digest : Bytes) (some_ : digest ≠ []) (front rest : Bytes)
    (room : digest.length < rest.length) :
    hexLoop (front ++ rest) front.length digest =
      front ++ keptDigits digest ++ rest.drop (digest.length + 1) := by
  induction digest generalizing front rest with
  | nil => exact absurd rfl some_
  | cons byte digest ih =>
    match rest, room with
    | first :: second :: rest, room =>
      have written : splice (front ++ first :: second :: rest) front.length (hex byte) =
          front ++ hex byte ++ rest := by
        simp [splice, hex]
      rw [hexLoop, written]
      cases digest with
      | nil => simp [hexLoop, hex, keptDigits]
      | cons next digest =>
        have split : front ++ hex byte ++ rest =
            (front ++ [hexDigit (byte.toNat / 16)]) ++ (hexDigit (byte.toNat % 16) :: rest) := by
          simp [hex]
        have later := ih (List.cons_ne_nil next digest) (front ++ [hexDigit (byte.toNat / 16)])
          (hexDigit (byte.toNat % 16) :: rest) (by simpa using room)
        rw [List.length_append, List.length_singleton] at later
        rw [split, later, keptDigits_cons]
        simp

theorem keptDigits_length (digest : Bytes) (some_ : digest ≠ []) :
    (keptDigits digest).length = digest.length + 1 := by
  simp [keptDigits, List.getLast?_eq_some_getLast some_]

theorem hexDigit_ne_zero {value : Nat} (digit : value < 16) : hexDigit value ≠ 0 := by
  revert value
  decide

theorem hex_clean (byte : UInt8) : 0 ∉ hex byte := by
  intro zero
  have small : byte.toNat / 16 < 16 := by
    have := byte.toNat_lt
    omega
  rcases List.mem_cons.mp zero with first | last
  · exact hexDigit_ne_zero small first.symm
  · exact hexDigit_ne_zero (Nat.mod_lt _ (by decide)) (List.mem_singleton.mp last).symm

theorem keptDigits_clean (digest : Bytes) : 0 ∉ keptDigits digest := by
  intro zero
  rcases List.mem_append.mp zero with first | last
  · obtain ⟨byte, _, same⟩ := List.mem_map.mp first
    have small : byte.toNat / 16 < 16 := by
      have := byte.toNat_lt
      omega
    exact hexDigit_ne_zero small same
  · rw [Option.mem_toList] at last
    obtain ⟨byte, _, same⟩ := Option.map_eq_some_iff.mp last
    exact hexDigit_ne_zero (Nat.mod_lt _ (by decide)) same

section
variable (digests : Digests)

theorem pwdDigest_length (pwd : Bytes) : (pwdDigest digests pwd).length = 16 :=
  digests.md5_length _

theorem pwdDigest_ne_nil (pwd : Bytes) : pwdDigest digests pwd ≠ [] := by
  intro empty
  have length := pwdDigest_length digests pwd
  rw [empty] at length
  cases length

theorem hashpwd_eq (before : KeyBuffer) (pwd : Bytes) :
    hashpwd digests before pwd = keptDigits (pwdDigest digests pwd) ++ before.stale ++ [0] := by
  have length := pwdDigest_length digests pwd
  have size := before.size
  have room : (pwdDigest digests pwd).length < (before.bytes ++ [0]).length := by
    rw [length, List.length_append, size]
    decide
  have written := hexLoop_eq (pwdDigest digests pwd) (pwdDigest_ne_nil digests pwd) []
    (before.bytes ++ [0]) room
  rw [length, List.drop_append_of_le_length (by omega)] at written
  rw [List.append_assoc]
  exact written

theorem cstring_last (text : Bytes) : cstring (text ++ [0]) = cstring text := by
  induction text with
  | nil => rfl
  | cons byte rest ih =>
    unfold cstring at ih ⊢
    rw [List.cons_append, List.takeWhile_cons, List.takeWhile_cons, ih]

/-- The text depends on the caller's bytes up to the first NUL. -/
theorem accountGenHashKey_eq (before : KeyBuffer) (pwd : Bytes) :
    accountGenHashKey digests before pwd =
      keptDigits (pwdDigest digests pwd) ++ cstring before.stale := by
  rw [accountGenHashKey, hashpwd_eq, cstring_last, cstring_append _ _ (keptDigits_clean _)]

/-- The text is within `hashpwd`. -/
theorem accountGenHashKey_length (before : KeyBuffer) (pwd : Bytes) :
    (accountGenHashKey digests before pwd).length ≤ 32 := by
  have stale : (cstring before.stale).length ≤ 15 := by
    refine Nat.le_trans (List.takeWhile_sublist _).length_le ?_
    rw [KeyBuffer.stale, List.length_drop, before.size]
  rw [accountGenHashKey_eq, List.length_append, keptDigits_length _ (pwdDigest_ne_nil digests pwd),
    pwdDigest_length]
  omega

/-- Two texts agree exactly where the kept digits and the stale texts do. -/
theorem accountGenHashKey_inj {stored stale : KeyBuffer} {old new : Bytes} :
    accountGenHashKey digests stored old = accountGenHashKey digests stale new ↔
      keptDigits (pwdDigest digests old) = keptDigits (pwdDigest digests new) ∧
        cstring stored.stale = cstring stale.stale := by
  rw [accountGenHashKey_eq, accountGenHashKey_eq]
  have length : (keptDigits (pwdDigest digests old)).length =
      (keptDigits (pwdDigest digests new)).length := by
    rw [keptDigits_length _ (pwdDigest_ne_nil digests old), pwdDigest_length,
      keptDigits_length _ (pwdDigest_ne_nil digests new), pwdDigest_length]
  constructor
  · intro same
    exact List.append_inj same length
  · intro same
    rw [same.1, same.2]

end

/-! ### The account -/

theorem dbAccountAdminAdd_row {store after : Store} {hash : Bytes → Bytes} {ambient : Ambient}
    {account : NewAccount} (added : dbAccountAdminAdd store hash ambient account = (true, after)) :
    ∃ row ∈ after.basic.rows, row.uuid = worldTolower (strncpyUuid account.uuid ambient.junk) ∧
      row.pwd = hash account.pwd := by
  unfold dbAccountAdminAdd insertBasic at added
  split at added
  · cases added
  · dsimp only at added
    split at added
    · cases added
    · rename_i basic inserted
      obtain ⟨_, rfl⟩ := Prod.mk.inj added
      refine ⟨⟨_, hash account.pwd, account.nickname, account.comment, ambient.now⟩, ?_, rfl, rfl⟩
      rw [(dbAccountLicenseSet_keys _ _ _ _).1, (Table.insert_some inserted).2]
      exact List.mem_append_right _ (List.mem_singleton_self _)

private theorem dbAccountCheckUserIsOk_hash {store : Store} {hash : Bytes → Bytes} {ambient : Ambient}
    {row : AccountBasic} (member : row ∈ store.basic.rows) (pwd : Bytes) :
    (dbAccountCheckUserIsOk store hash ambient row.uuid pwd).isSome ↔ row.pwd = hash pwd := by
  have known : row.uuid ∈ store.basic.keys := Table.key_mem member
  have exists_ := (dbAccountCheckUserExist_isSome store ambient row.uuid).mpr known
  unfold dbAccountCheckUserIsOk
  split
  · rename_i nobody
    refine iff_of_false Bool.false_ne_true fun same => ?_
    have selected : row ∈ store.basic.select fun other =>
        decide (other.uuid = row.uuid) && decide (other.pwd = hash pwd) :=
      Table.mem_select.mpr ⟨member, by simp [same]⟩
    rw [nobody] at selected
    cases selected
  · rename_i somebody
    refine iff_of_true exists_ ?_
    obtain ⟨other, listed, met⟩ := Table.select_ne_nil.mp somebody
    rw [Bool.and_eq_true, decide_eq_true_iff, decide_eq_true_iff] at met
    rw [← Table.row_unique listed member met.1, met.2]

/-! ### What the hash promises -/

def WritesDigest (digests : Digests) (before : KeyBuffer) (pwd : Bytes) : Prop :=
  (hashpwd digests before pwd).take 32 = hexDigest (pwdDigest digests pwd)

/-- An admin is added with the password `old`, and checked with `new` later on, both with any
stack that leaves the statements in one piece. -/
def ChecksDigest (digests : Digests) (old new : Bytes) : Prop :=
  ∀ (store after : Store) (ambient later : Ambient) (account : NewAccount)
    (stored stale : KeyBuffer), stored.Plain → stale.Plain → account.pwd = old →
    dbAccountAdminAdd store (accountGenHashKey digests stored) ambient account = (true, after) →
    ((dbAccountCheckUserIsOk after (accountGenHashKey digests stale) later
      (worldTolower (strncpyUuid account.uuid ambient.junk)) new).isSome ↔
        pwdDigest digests new = pwdDigest digests old)

/-- A buffer of 32 equal bytes. -/
def KeyBuffer.filled (byte : UInt8) : KeyBuffer := ⟨List.replicate 32 byte, List.length_replicate⟩

theorem filled_stale (byte : UInt8) : (KeyBuffer.filled byte).stale = List.replicate 15 byte := rfl

private theorem writesDigest_iff (digests : Digests) (before : KeyBuffer) (pwd : Bytes) :
    WritesDigest digests before pwd ↔
      keptDigits (pwdDigest digests pwd) = (hexDigest (pwdDigest digests pwd)).take 17 ∧
        before.stale = (hexDigest (pwdDigest digests pwd)).drop 17 := by
  have kept : (keptDigits (pwdDigest digests pwd)).length = 17 := by
    rw [keptDigits_length _ (pwdDigest_ne_nil digests pwd), pwdDigest_length]
  have stale : before.stale.length = 15 := by
    rw [KeyBuffer.stale, List.length_drop, before.size]
  have written : (hashpwd digests before pwd).take 32 =
      keptDigits (pwdDigest digests pwd) ++ before.stale := by
    rw [hashpwd_eq, List.take_left' (by rw [List.length_append, kept, stale])]
  rw [WritesDigest, written]
  constructor
  · intro same
    rw [← same, List.take_left' kept, List.drop_left' kept]
    exact ⟨rfl, rfl⟩
  · intro same
    rw [same.1, same.2, List.take_append_drop]

theorem accountGenHashKey_filled (digests : Digests) (pwd : Bytes) :
    accountGenHashKey digests (.filled 0) pwd ≠ accountGenHashKey digests (.filled 65) pwd := by
  intro same
  have stale := ((accountGenHashKey_inj digests).mp same).2
  cases stale

theorem filled_plain {byte : UInt8} (other : byte ≠ 39) : (KeyBuffer.filled byte).Plain := by
  intro quote
  rw [filled_stale] at quote
  exact other (List.eq_of_mem_replicate quote).symm

private theorem dbAccountCheckUserIsOk_added {digests : Digests} {store after : Store}
    {ambient later : Ambient} {account : NewAccount} {stored stale : KeyBuffer} (new : Bytes)
    (added : dbAccountAdminAdd store (accountGenHashKey digests stored) ambient account =
      (true, after)) :
    (dbAccountCheckUserIsOk after (accountGenHashKey digests stale) later
      (worldTolower (strncpyUuid account.uuid ambient.junk)) new).isSome ↔
        keptDigits (pwdDigest digests account.pwd) = keptDigits (pwdDigest digests new) ∧
          cstring stored.stale = cstring stale.stale := by
  obtain ⟨row, member, uuid, pwd⟩ := dbAccountAdminAdd_row added
  rw [← uuid, dbAccountCheckUserIsOk_hash member, pwd, accountGenHashKey_inj]

/-- The check tells two passwords by their digests exactly where the kept digits differ: else
one of two stacks gives the wrong answer. -/
theorem checksDigest_iff (digests : Digests) (old new : Bytes) :
    ChecksDigest digests old new ↔
      keptDigits (pwdDigest digests old) ≠ keptDigits (pwdDigest digests new) := by
  constructor
  · intro checks same
    let ambient : Ambient := ⟨[], [], []⟩
    let account : NewAccount := ⟨[97], old, [], []⟩
    have trial : ∀ stale : KeyBuffer, stale.Plain →
        (cstring (KeyBuffer.filled 0).stale = cstring stale.stale ↔
          pwdDigest digests new = pwdDigest digests old) := by
      intro stale plain
      have added : ∃ after, dbAccountAdminAdd .init (accountGenHashKey digests (.filled 0)) ambient
          account = (true, after) := ⟨_, rfl⟩
      obtain ⟨after, added⟩ := added
      have checked := checks .init after ambient ambient account (.filled 0) stale
        (filled_plain (by decide)) plain rfl added
      rw [dbAccountCheckUserIsOk_added new added] at checked
      rw [← checked]
      exact (and_iff_right same).symm
    have equal := (trial (.filled 0) (filled_plain (by decide))).mp rfl
    have differs := (trial (.filled 65) (filled_plain (by decide))).mpr equal
    cases differs
  · intro apart store after ambient later account stored stale _ _ own added
    rw [dbAccountCheckUserIsOk_added new added, own]
    apply iff_of_false
    · exact fun both => apart both.1
    · intro same
      exact apart (by rw [same])

/-- The hash of a password is never independent of the stack. The buffer holds the whole digest
only by chance, and the check depends on seventeen digits and the stack. -/
theorem hashKey_depends (digests : Digests) (old new : Bytes) :
    (∀ before, WritesDigest digests before old ↔
      keptDigits (pwdDigest digests old) = (hexDigest (pwdDigest digests old)).take 17 ∧
        before.stale = (hexDigest (pwdDigest digests old)).drop 17) ∧
    (¬∀ before, WritesDigest digests before old) ∧
    (¬∀ before other, accountGenHashKey digests before old = accountGenHashKey digests other old) ∧
    (ChecksDigest digests old new ↔
      keptDigits (pwdDigest digests old) ≠ keptDigits (pwdDigest digests new)) := by
  refine ⟨fun before => writesDigest_iff digests before old, fun always => ?_, fun always => ?_,
    checksDigest_iff digests old new⟩
  · have first := ((writesDigest_iff digests _ old).mp (always (.filled 0))).2
    have second := ((writesDigest_iff digests _ old).mp (always (.filled 65))).2
    have same := first.trans second.symm
    cases same
  · exact accountGenHashKey_filled digests old (always _ _)

/-- Digests that are the message itself. -/
def plainDigests : Digests where
  sha1 message := (message ++ List.replicate 20 0).take 20
  md5 message := (message ++ List.replicate 16 0).take 16
  sha1_length message := by simp
  md5_length message := by simp

/-- The digest of "k" is 6B and zeroes. Its second digit is lost, and the caller's bytes are in
the text; with other bytes on the stack the right password is refused. -/
theorem hashKey_stack :
    ¬WritesDigest plainDigests (.filled 65) (ascii "k") ∧
      accountGenHashKey plainDigests (.filled 65) (ascii "k") =
        ascii "60000000000000000AAAAAAAAAAAAAAA" ∧
      ∃ after, dbAccountAdminAdd .init (accountGenHashKey plainDigests (.filled 65)) ⟨[], [], []⟩
          ⟨ascii "a", ascii "k", [], []⟩ = (true, after) ∧
        dbAccountCheckUserIsOk after (accountGenHashKey plainDigests (.filled 0)) ⟨[], [], []⟩
          (ascii "a") (ascii "k") = none := by
  refine ⟨?_, by decide, _, rfl, by decide⟩
  unfold WritesDigest
  decide

/-! ### What was never written -/

/-- Which `account_gen_hash_key` is compiled: `gen_hash_key_do_nothing` where `_DEBUG` or `DEBUG`
is defined, or else `gen_hash_key`. -/
inductive HashBuild where
  | debug
  | release
  deriving DecidableEq

/-- `hashpwd` before the call: only its last character has been set. -/
def hashpwdCells : Cells := List.replicate 32 none ++ [some 0]

/-- The loop of `gen_hash_key` in a buffer of which some characters may be unwritten. -/
def hexCells (md : Cells) (place : Nat) : Bytes → Cells
  | [] => md
  | byte :: rest => hexCells (md.write place (hex byte)) (place + 1) rest

/-- What the statement reads of `hashpwd` after `account_gen_hash_key(hashpwd, pwd, -1)`. -/
def readHashpwd (digests : Digests) : HashBuild → Bytes → Except Fault Bytes
  | .debug, pwd => (hashpwdCells.write 0 (cstring pwd ++ [0])).text
  | .release, pwd => (hexCells hashpwdCells 0 (pwdDigest digests pwd)).text

/-- On a buffer that was written the loop writes what it does otherwise. -/
theorem hexCells_written (md : Bytes) (place : Nat) (digest : Bytes) :
    hexCells (md.map some) place digest = (hexLoop md place digest).map some := by
  induction digest generalizing md place with
  | nil => rfl
  | cons byte rest ih => rw [hexCells, Cells.write_splice, ih, hexLoop]

/-- On a buffer that was written the statement reads the text of before. -/
theorem hexCells_text (digests : Digests) (before : KeyBuffer) (pwd : Bytes) :
    (hexCells ((before.bytes ++ [0]).map some) 0 (pwdDigest digests pwd)).text =
      .ok (accountGenHashKey digests before pwd) := by
  have written := Cells.text_written (keptDigits (pwdDigest digests pwd) ++ before.stale) []
  rw [List.append_nil, ← hashpwd_eq, ← cstring_last, ← hashpwd_eq] at written
  rw [hexCells_written]
  exact written

/-- The loop writes digits only, and not past the place behind the last byte's. -/
theorem hexCells_append {front : Cells} (rest : Cells) {place : Nat} {digest : Bytes}
    (unterminated : some 0 ∉ front) (within : place + digest.length + 1 ≤ front.length) :
    ∃ written, some 0 ∉ written ∧ hexCells (front ++ rest) place digest = written ++ rest := by
  induction digest generalizing front place with
  | nil => exact ⟨front, unterminated, rfl⟩
  | cons byte digest ih =>
    rw [List.length_cons] at within
    have room : place + (hex byte).length ≤ front.length := by
      rw [hex, List.length_cons, List.length_singleton]
      omega
    have digits : some 0 ∉ front.write place (hex byte) := by
      intro zero
      rcases Cells.mem_write zero with before | new
      · exact unterminated before
      · exact hex_clean byte ((List.mem_map_of_injective (Option.some_injective _)).mp new)
    rw [hexCells, Cells.write_append room]
    apply ih digits
    rw [Cells.write_length room]
    omega

theorem readHashpwd_debug (digests : Digests) (pwd : Bytes) :
    readHashpwd digests .debug pwd = .ok (cstring pwd) := by
  rw [readHashpwd, Cells.write, List.take_zero, List.nil_append, Cells.text_written, cstring, cstring,
    List.takeWhile_idem]

/-- `gen_hash_key` leaves fifteen characters unwritten, and no NUL in front of them. -/
theorem readHashpwd_release (digests : Digests) (pwd : Bytes) :
    readHashpwd digests .release pwd = .error .uninitialised := by
  have split : hashpwdCells =
      List.replicate 17 none ++ none :: (List.replicate 14 none ++ [some 0]) := rfl
  have blank : some (0 : UInt8) ∉ List.replicate 17 none := fun zero =>
    Option.some_ne_none _ (List.eq_of_mem_replicate zero)
  have within : 0 + (pwdDigest digests pwd).length + 1 ≤
      (List.replicate 17 (none : Option UInt8)).length := by
    rw [pwdDigest_length, List.length_replicate]
  obtain ⟨written, unterminated, left⟩ :=
    hexCells_append (none :: (List.replicate 14 none ++ [some 0])) blank within
  rw [readHashpwd, split, left]
  exact Cells.text_unwritten unterminated _

section
variable {digests : Digests} {build : HashBuild} {pwd : Bytes}

/-- Only the debug build reads a text, and that is the password. -/
theorem readHashpwd_iff {meets : Bytes → Prop} :
    (∃ hashpwd, readHashpwd digests build pwd = .ok hashpwd ∧ meets hashpwd) ↔
      build = .debug ∧ meets (cstring pwd) := by
  cases build with
  | debug => simp only [readHashpwd_debug, Except.ok.injEq, exists_eq_left', true_and]
  | release =>
    rw [readHashpwd_release]
    apply iff_of_false
    · rintro ⟨_, impossible, _⟩
      cases impossible
    · rintro ⟨impossible, _⟩
      cases impossible

theorem readHashpwd_isOk : (∃ hashpwd, readHashpwd digests build pwd = .ok hashpwd) ↔ build = .debug := by
  have always := @readHashpwd_iff digests build pwd fun _ => True
  simp only [and_true] at always
  exact always

end

end Livezure.Db
