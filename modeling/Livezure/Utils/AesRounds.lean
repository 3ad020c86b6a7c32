import Livezure.Utils.Aes
import Mathlib.Algebra.BigOperators.Fin

/-! The rounds by tables are the rounds of the standard. -/
namespace Livezure.Utils
open Livezure.Core

/-! ### Words and their bytes -/

section Bytes
variable (word : UInt32)

private theorem index_first : (word >>> 24).toNat = (column word 0).byte.toNat := by
  simp [column, Nat.shiftRight_eq_div_pow]
  have := word.toNat_lt
  omega

private theorem index_second : ((word >>> 16) &&& 0xff).toNat = (column word 1).byte.toNat := by
  simp [column, Nat.shiftRight_eq_div_pow]
  exact Nat.and_two_pow_sub_one_eq_mod _ 8

private theorem index_third : ((word >>> 8) &&& 0xff).toNat = (column word 2).byte.toNat := by
  simp [column, Nat.shiftRight_eq_div_pow]
  exact Nat.and_two_pow_sub_one_eq_mod _ 8

private theorem index_fourth : (word &&& 0xff).toNat = (column word 3).byte.toNat := by
  simp [column]
  exact Nat.and_two_pow_sub_one_eq_mod _ 8

end Bytes

private theorem shift_back (byte : BitVec 8) {up down : Nat} (whole : up = down ∨ down + 8 ≤ up ∨ up + 8 ≤ down)
    (inside : down ≤ 24) :
    ((byte.setWidth 32 <<< up) >>> down).setWidth 8 = if up = down then byte else 0#8 := by
  apply BitVec.eq_of_getLsbD_eq
  intro i small
  simp only [BitVec.getLsbD_setWidth, BitVec.getLsbD_ushiftRight, BitVec.getLsbD_shiftLeft, small,
    decide_true, Bool.true_and]
  rcases whole with rfl | below | above
  · rw [if_pos rfl, decide_eq_true (by omega), decide_eq_false (by omega), decide_eq_true (by omega),
      Nat.add_sub_cancel_left]
    simp
  · rw [if_neg (by omega), decide_eq_true (p := down + i < up) (by omega)]
    simp
  · rw [if_neg (by omega), BitVec.getLsbD_of_ge byte _ (by omega)]
    simp

theorem getU32_column (pt : Bytes) (offset : Nat) (row : Fin 4) :
    column (getU32 pt offset) row = ⟨(pt.getD (offset + row) 0).toBitVec⟩ := by
  have moved : ∀ (byte : UInt8) (word : UInt32) (up : Nat),
      word.toBitVec = byte.toBitVec.setWidth 32 <<< up →
      (up = 24 - 8 * row.val ∨ 24 - 8 * row.val + 8 ≤ up ∨ up + 8 ≤ 24 - 8 * row.val) →
      column word row = if up = 24 - 8 * row.val then ⟨byte.toBitVec⟩ else 0 := by
    intro byte word up same whole
    rw [column, same, shift_back _ whole (by omega)]
    split <;> rfl
  have first := moved (pt.getD offset 0) ((pt.getD offset 0).toUInt32 <<< 24) 24 rfl (by omega)
  have second := moved (pt.getD (offset + 1) 0) ((pt.getD (offset + 1) 0).toUInt32 <<< 16) 16 rfl (by omega)
  have third := moved (pt.getD (offset + 2) 0) ((pt.getD (offset + 2) 0).toUInt32 <<< 8) 8 rfl (by omega)
  have fourth := moved (pt.getD (offset + 3) 0) (pt.getD (offset + 3) 0).toUInt32 0 (by simp) (by omega)
  rw [getU32, column_xor, column_xor, column_xor]
  simp only [Pi.add_apply, first, second, third, fourth]
  fin_cases row <;> simp

private theorem column_mask (word mask : UInt32) (row : Fin 4)
    (whole : column mask row = ⟨0xff⟩ ∨ column mask row = 0) :
    column (word &&& mask) row = if column mask row = 0 then 0 else column word row := by
  have both : column (word &&& mask) row = ⟨(column word row).byte &&& (column mask row).byte⟩ := by
    apply Gf.ext
    simp only [column, UInt32.toBitVec_and, BitVec.ushiftRight_and_distrib, BitVec.setWidth_and]
  rcases whole with kept | cleared
  · rw [both, kept, if_neg (by decide)]
    exact Gf.ext (BitVec.and_allOnes)
  · rw [both, cleared, if_pos rfl]
    exact Gf.ext (BitVec.and_zero)

/-! ### Lookups -/

/-- The tables of encryption, and of decryption, by the byte they are for. -/
def te : Fin 4 → List UInt32 := ![te0, te1, te2, te3]

def td : Fin 4 → List UInt32 := ![td0, td1, td2, td3]

section Lookups
variable (byte : Gf)

/-- A byte of a word as the index. -/
def atByte (table : List UInt32) (byte : Gf) : UInt32 := table.getD byte.byte.toNat 0

theorem atByte_map {f : UInt32 → UInt32} (zero : f 0 = 0) (table : List UInt32) :
    atByte (table.map f) byte = f (atByte table byte) := by
  have mapped := @List.getD_map _ _ table 0 byte.byte.toNat f
  rwa [zero] at mapped

private theorem quadruple_column {matrix : AesState} {place : Fin 4} {a b c d : Gf → Gf} {word : UInt32}
    (first : matrix 0 place * low word = a (low word))
    (second : matrix 1 place * low word = b (low word))
    (third : matrix 2 place * low word = c (low word))
    (fourth : matrix 3 place * low word = d (low word)) :
    column (quadruple a b c d word) = fun row => matrix row place * low word := by
  rw [quadruple, column_packed]
  funext row
  fin_cases row
  · exact first.symm
  · exact second.symm
  · exact third.symm
  · exact fourth.symm

/-- A lookup of encryption is a column of the matrix times the substituted byte. -/
theorem te_column (place : Fin 4) :
    column (atByte (te place) byte) = fun row => mixMatrix row place * sBox.sub byte := by
  fin_cases place
  · change column (atByte te0 byte) = _
    rw [tables.te0_bytes, atByte_map _ rfl]
    exact quadruple_column (Gf.x_mul _) (one_mul _) (one_mul _) (Scale.mul_03 _)
  · change column (atByte te1 byte) = _
    rw [tables.te1_bytes, atByte_map _ rfl]
    exact quadruple_column (Scale.mul_03 _) (Gf.x_mul _) (one_mul _) (one_mul _)
  · change column (atByte te2 byte) = _
    rw [tables.te2_bytes, atByte_map _ rfl]
    exact quadruple_column (one_mul _) (Scale.mul_03 _) (Gf.x_mul _) (one_mul _)
  · change column (atByte te3 byte) = _
    rw [tables.te3_bytes, atByte_map _ rfl]
    exact quadruple_column (one_mul _) (one_mul _) (Scale.mul_03 _) (Gf.x_mul _)

theorem td_column (place : Fin 4) :
    column (atByte (td place) byte) = fun row => invMixMatrix row place * sBox.unsub byte := by
  fin_cases place
  · change column (atByte td0 byte) = _
    rw [tables.td0_bytes, atByte_map _ rfl]
    exact quadruple_column (Scale.mul_0e _) (Scale.mul_09 _) (Scale.mul_0d _) (Scale.mul_0b _)
  · change column (atByte td1 byte) = _
    rw [tables.td1_bytes, atByte_map _ rfl]
    exact quadruple_column (Scale.mul_0b _) (Scale.mul_0e _) (Scale.mul_09 _) (Scale.mul_0d _)
  · change column (atByte td2 byte) = _
    rw [tables.td2_bytes, atByte_map _ rfl]
    exact quadruple_column (Scale.mul_0d _) (Scale.mul_0b _) (Scale.mul_0e _) (Scale.mul_09 _)
  · change column (atByte td3 byte) = _
    rw [tables.td3_bytes, atByte_map _ rfl]
    exact quadruple_column (Scale.mul_09 _) (Scale.mul_0d _) (Scale.mul_0b _) (Scale.mul_0e _)

/-- The last tables have the substituted byte four times. -/
theorem te4_column : column (atByte te4 byte) = fun _ => sBox.sub byte := by
  rw [tables.te4_bytes, atByte_map _ rfl, quadruple, column_packed]
  funext row
  fin_cases row <;> rfl

private theorem td4_column : column (atByte td4 byte) = fun _ => sBox.unsub byte := by
  rw [tables.td4_bytes, atByte_map _ rfl, quadruple, column_packed]
  funext row
  fin_cases row <;> rfl

end Lookups

section Look
variable (table : List UInt32) (word : UInt32)

theorem look_first : look table (word >>> 24) = atByte table (column word 0) := by
  rw [look, index_first, atByte]

theorem look_second : look table ((word >>> 16) &&& 0xff) = atByte table (column word 1) := by
  rw [look, index_second, atByte]

theorem look_third : look table ((word >>> 8) &&& 0xff) = atByte table (column word 2) := by
  rw [look, index_third, atByte]

theorem look_fourth : look table (word &&& 0xff) = atByte table (column word 3) := by
  rw [look, index_fourth, atByte]

end Look

/-! ### Rounds -/

/-- The four words as columns. -/
def CipherWords.matrix (s : CipherWords) : AesState :=
  fun row place => column (![s.s0, s.s1, s.s2, s.s3] place) row

/-- Four words of an expanded key as columns. -/
def AesKey.matrix (key : AesKey) (rk : Nat) : AesState := fun row place => column (key.rk (rk + place)) row

private theorem encryptWord_column (a b c d rk : UInt32) :
    column (look te0 (a >>> 24) ^^^ look te1 ((b >>> 16) &&& 0xff) ^^^ look te2 ((c >>> 8) &&& 0xff) ^^^
      look te3 (d &&& 0xff) ^^^ rk) = fun row =>
    mixMatrix row 0 * sBox.sub (column a 0) + mixMatrix row 1 * sBox.sub (column b 1) +
      mixMatrix row 2 * sBox.sub (column c 2) + mixMatrix row 3 * sBox.sub (column d 3) +
      column rk row := by
  rw [look_first, look_second, look_third, look_fourth, column_xor, column_xor, column_xor, column_xor]
  have first := te_column (column a 0) 0
  have second := te_column (column b 1) 1
  have third := te_column (column c 2) 2
  have fourth := te_column (column d 3) 3
  change column (atByte te0 _) = _ at first
  change column (atByte te1 _) = _ at second
  change column (atByte te2 _) = _ at third
  change column (atByte te3 _) = _ at fourth
  rw [first, second, third, fourth]
  rfl

private theorem decryptWord_column (a b c d rk : UInt32) :
    column (look td0 (a >>> 24) ^^^ look td1 ((b >>> 16) &&& 0xff) ^^^ look td2 ((c >>> 8) &&& 0xff) ^^^
      look td3 (d &&& 0xff) ^^^ rk) = fun row =>
    invMixMatrix row 0 * sBox.unsub (column a 0) + invMixMatrix row 1 * sBox.unsub (column b 1) +
      invMixMatrix row 2 * sBox.unsub (column c 2) + invMixMatrix row 3 * sBox.unsub (column d 3) +
      column rk row := by
  rw [look_first, look_second, look_third, look_fourth, column_xor, column_xor, column_xor, column_xor]
  have first := td_column (column a 0) 0
  have second := td_column (column b 1) 1
  have third := td_column (column c 2) 2
  have fourth := td_column (column d 3) 3
  change column (atByte td0 _) = _ at first
  change column (atByte td1 _) = _ at second
  change column (atByte td2 _) = _ at third
  change column (atByte td3 _) = _ at fourth
  rw [first, second, third, fourth]
  rfl

private theorem encryptRound_matrix (s : CipherWords) (key : AesKey) (rk : Nat) :
    (encryptRound s key rk).matrix = (aesLayers sBox).round s.matrix (key.matrix rk) := by
  refine Matrix.ext fun row place => ?_
  rw [Layers.round, Matrix.add_apply]
  change _ = (mixMatrix * shiftRows (s.matrix.map sBox.sub)) row place + _
  rw [Matrix.mul_apply, Fin.sum_univ_four]
  -- the byte of a row comes from as many columns further
  fin_cases place
  · exact congrFun (encryptWord_column s.s0 s.s1 s.s2 s.s3 (key.rk rk)) row
  · exact congrFun (encryptWord_column s.s1 s.s2 s.s3 s.s0 (key.rk (rk + 1))) row
  · exact congrFun (encryptWord_column s.s2 s.s3 s.s0 s.s1 (key.rk (rk + 2))) row
  · exact congrFun (encryptWord_column s.s3 s.s0 s.s1 s.s2 (key.rk (rk + 3))) row

private theorem decryptRound_matrix (s : CipherWords) (key : AesKey) (rk : Nat) :
    (decryptRound s key rk).matrix = (aesLayers sBox).unround s.matrix (key.matrix rk) := by
  refine Matrix.ext fun row place => ?_
  rw [Layers.unround, Matrix.sub_apply]
  change _ = (invMixMatrix * invShiftRows (s.matrix.map sBox.unsub)) row place + _
  rw [Matrix.mul_apply, Fin.sum_univ_four]
  fin_cases place
  · exact congrFun (decryptWord_column s.s0 s.s3 s.s2 s.s1 (key.rk rk)) row
  · exact congrFun (decryptWord_column s.s1 s.s0 s.s3 s.s2 (key.rk (rk + 1))) row
  · exact congrFun (decryptWord_column s.s2 s.s1 s.s0 s.s3 (key.rk (rk + 2))) row
  · exact congrFun (decryptWord_column s.s3 s.s2 s.s1 s.s0 (key.rk (rk + 3))) row

/-! ### The last round -/

/-- A byte of each of four words. -/
theorem column_select (a b c d : UInt32) :
    column ((a &&& (0xff000000 : UInt32)) ^^^ (b &&& (0x00ff0000 : UInt32)) ^^^
        (c &&& (0x0000ff00 : UInt32)) ^^^ (d &&& (0x000000ff : UInt32))) =
      ![column a 0, column b 1, column c 2, column d 3] := by
  rw [column_xor, column_xor, column_xor]
  funext row
  simp only [Pi.add_apply]
  rw [column_mask _ _ _ (by revert row; decide), column_mask _ _ _ (by revert row; decide),
    column_mask _ _ _ (by revert row; decide), column_mask _ _ _ (by revert row; decide)]
  fin_cases row
  · exact (add_zero _).trans ((add_zero _).trans (add_zero _))
  · exact (add_zero _).trans ((add_zero _).trans (zero_add _))
  · refine (add_zero _).trans ?_
    exact (congrArg (· + _) (add_zero 0)).trans (zero_add _)
  · exact (congrArg (· + _) ((add_zero _).trans (add_zero 0))).trans (zero_add _)

private theorem lastWord_column {table : List UInt32} {f : Gf → Gf}
    (same : ∀ byte, column (atByte table byte) = fun _ => f byte) (a b c d rk : UInt32) :
    column (lastWord table a b c d rk) =
      ![f (column a 0), f (column b 1), f (column c 2), f (column d 3)] + column rk := by
  rw [lastWord, look_first, look_second, look_third, look_fourth, column_xor, column_select, same,
    same, same, same]

/-! ### Blocks -/

/-- The bytes of a block fill the columns one after the other. -/
def blockState (block : Block 16) : AesState :=
  fun row place => ⟨(block.bytes.getD (4 * place + row) 0).toBitVec⟩

theorem blockState_injective {left right : Block 16} (same : blockState left = blockState right) :
    left = right := by
  have bytes : left.bytes = right.bytes := by
    apply List.ext_getElem
    · rw [Block.bytes_length, Block.bytes_length]
    · intro i first second
      have small : i < 16 := by simpa using first
      have entry := congrFun (congrFun same ⟨i % 4, by omega⟩) ⟨i / 4, by omega⟩
      have byte := congrArg Gf.byte entry
      simp only [blockState, Nat.div_add_mod] at byte
      rw [List.getD_eq_getElem _ _ first, List.getD_eq_getElem _ _ second] at byte
      exact UInt8.toBitVec_inj.mp byte
  rw [← Block.ofBytes_bytes left [], ← Block.ofBytes_bytes right [], bytes]

private theorem loadWords_matrix (input : Block 16) (key : AesKey) :
    (loadWords input key).matrix = blockState input + key.matrix 0 := by
  refine Matrix.ext fun row place => ?_
  rw [Matrix.add_apply]
  fin_cases place
  · exact (congrFun (column_xor _ _) row).trans (congrArg (· + _) (getU32_column _ _ row))
  · exact (congrFun (column_xor _ _) row).trans (congrArg (· + _) (getU32_column _ _ row))
  · exact (congrFun (column_xor _ _) row).trans (congrArg (· + _) (getU32_column _ _ row))
  · exact (congrFun (column_xor _ _) row).trans (congrArg (· + _) (getU32_column _ _ row))

private theorem putU32_column (st : UInt32) (row : Fin 4) :
    ((putU32 st).getD row 0).toBitVec = (column st row).byte := by
  fin_cases row <;> simp [putU32, column]

private theorem storeWords_state (s : CipherWords) : blockState (storeWords s) = s.matrix := by
  have bytes : (storeWords s).bytes = putU32 s.s0 ++ putU32 s.s1 ++ putU32 s.s2 ++ putU32 s.s3 := by
    have enough : 16 ≤ (putU32 s.s0 ++ putU32 s.s1 ++ putU32 s.s2 ++ putU32 s.s3).length := Nat.le_refl 16
    rw [storeWords, Block.bytes_ofBytes enough]
    rfl
  refine Matrix.ext fun row place => Gf.ext ?_
  rw [blockState, bytes]
  fin_cases place
  · refine Eq.trans ?_ (putU32_column s.s0 row)
    fin_cases row <;> rfl
  · refine Eq.trans ?_ (putU32_column s.s1 row)
    fin_cases row <;> rfl
  · refine Eq.trans ?_ (putU32_column s.s2 row)
    fin_cases row <;> rfl
  · refine Eq.trans ?_ (putU32_column s.s3 row)
    fin_cases row <;> rfl

/-! ### Whole blocks -/

/-- The words of an expanded key. -/
def AesKey.words (key : AesKey) (i : Nat) : AesWord := column (key.rk i)

private theorem fullRounds_matrix {round : CipherWords → AesKey → Nat → CipherWords} {key : AesKey}
    {step : AesState → AesState → AesState}
    (each : ∀ s rk, (round s key rk).matrix = step s.matrix (key.matrix rk)) (r : Nat) :
    ∀ rk s, (fullRounds round key r rk s).2 = rk + 8 * (r + 1) ∧
      (fullRounds round key r rk s).1.matrix =
        ((List.range' 1 (2 * r + 1)).map fun i => key.matrix (rk + 4 * i)).foldl step s.matrix := by
  induction r with
  | zero => exact fun rk s => ⟨rfl, each s (rk + 4)⟩
  | succ r ih =>
    intro rk s
    obtain ⟨offset, rounds⟩ := ih (rk + 8) (round (round s key (rk + 4)) key (rk + 8))
    rw [fullRounds]
    refine ⟨by rw [offset]; omega, ?_⟩
    have later : List.range' 1 (2 * (r + 1) + 1) = 1 :: 2 :: (List.range' 1 (2 * r + 1)).map (2 + ·) := by
      rw [List.map_add_range']
      rfl
    rw [rounds, later, List.map_cons, List.map_cons, List.foldl_cons, List.foldl_cons, List.map_map,
      each, each]
    refine congrArg (fun keys => List.foldl step _ keys) (List.map_congr_left fun i _ => ?_)
    exact congrArg key.matrix (by simp only; omega)

private theorem fullRounds_key {round : CipherWords → AesKey → Nat → CipherWords} {key : AesKey}
    {step : AesState → AesState → AesState}
    (each : ∀ s rk, (round s key rk).matrix = step s.matrix (key.matrix rk)) {half : Nat}
    (even : key.rounds = 2 * (half + 1)) (s : CipherWords) :
    (fullRounds round key (key.rounds / 2 - 1) 0 s).2 = 4 * key.rounds ∧
      (fullRounds round key (key.rounds / 2 - 1) 0 s).1.matrix =
        ((List.range' 1 (key.rounds - 1)).map (roundKey key.words)).foldl step s.matrix := by
  have turns : key.rounds / 2 - 1 = half := by omega
  have inner : key.rounds - 1 = 2 * half + 1 := by omega
  obtain ⟨offset, rounds⟩ := fullRounds_matrix each half 0 s
  rw [turns, inner]
  refine ⟨by rw [offset]; omega, rounds.trans ?_⟩
  refine congrArg (fun keys => List.foldl step _ keys) (List.map_congr_left fun i _ => ?_)
  exact congrArg key.matrix (Nat.zero_add _)

/-- `AES_encrypt` is the cipher of the standard with the words of its key. -/
theorem aesEncrypt_state {key : AesKey} {half : Nat} (even : key.rounds = 2 * (half + 1))
    (input : Block 16) : blockState (aesEncrypt input key) =
      standardCipher sBox key.words key.rounds (blockState input) := by
  obtain ⟨offset, rounds⟩ := fullRounds_key (encryptRound_matrix · key) even (loadWords input key)
  have last := @lastWord_column te4 sBox.sub te4_column
  rw [aesEncrypt]
  dsimp only
  rw [storeWords_state, offset]
  rw [standardCipher, Layers.cipher]
  have start : blockState input + roundKey key.words 0 = (loadWords input key).matrix :=
    (loadWords_matrix input key).symm
  rw [start, ← rounds]
  refine Matrix.ext fun row place => ?_
  rw [Matrix.add_apply]
  fin_cases place
  · refine (congrFun (last _ _ _ _ _) row).trans ?_
    fin_cases row <;> rfl
  · refine (congrFun (last _ _ _ _ _) row).trans ?_
    fin_cases row <;> rfl
  · refine (congrFun (last _ _ _ _ _) row).trans ?_
    fin_cases row <;> rfl
  · refine (congrFun (last _ _ _ _ _) row).trans ?_
    fin_cases row <;> rfl

/-- `AES_decrypt` has the rounds of the inverse cipher. -/
theorem aesDecrypt_state {key : AesKey} {half : Nat} (even : key.rounds = 2 * (half + 1))
    (input : Block 16) : blockState (aesDecrypt input key) =
      (aesLayers sBox).decipher (roundKey key.words 0)
        ((List.range' 1 (key.rounds - 1)).map (roundKey key.words)) (roundKey key.words key.rounds)
        (blockState input) := by
  obtain ⟨offset, rounds⟩ := fullRounds_key (decryptRound_matrix · key) even (loadWords input key)
  have last := @lastWord_column td4 sBox.unsub td4_column
  rw [aesDecrypt]
  dsimp only
  rw [storeWords_state, offset]
  rw [Layers.decipher]
  have start : blockState input - roundKey key.words 0 = (loadWords input key).matrix :=
    (loadWords_matrix input key).symm
  rw [start, ← rounds]
  refine Matrix.ext fun row place => ?_
  rw [Matrix.sub_apply]
  fin_cases place
  · refine (congrFun (last _ _ _ _ _) row).trans ?_
    fin_cases row <;> rfl
  · refine (congrFun (last _ _ _ _ _) row).trans ?_
    fin_cases row <;> rfl
  · refine (congrFun (last _ _ _ _ _) row).trans ?_
    fin_cases row <;> rfl
  · refine (congrFun (last _ _ _ _ _) row).trans ?_
    fin_cases row <;> rfl

end Livezure.Utils
