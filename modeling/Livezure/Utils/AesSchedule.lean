import Livezure.Utils.AesRounds

/-! The key schedules of `aes.c` are the standard's. -/
namespace Livezure.Utils
open Livezure.Core

/-! ### Words -/

theorem subRotated_column (temp : UInt32) :
    column (subRotated temp) = sBox.sub ∘ rotWord (column temp) := by
  rw [subRotated, look_first, look_second, look_third, look_fourth, column_select, te4_column,
    te4_column, te4_column, te4_column]
  funext row
  fin_cases row <;> rfl

private theorem subUnrotated_column (temp : UInt32) :
    column (subUnrotated temp) = sBox.sub ∘ column temp := by
  rw [subUnrotated, look_first, look_second, look_third, look_fourth, column_select, te4_column,
    te4_column, te4_column, te4_column]
  funext row
  fin_cases row <;> rfl

private theorem rcon_column {i : Nat} (small : i < 10) : column (rcon.getD i 0) = rconWord (i + 1) := by
  have all : ∀ i : Fin 10, ∀ row, column (rcon.getD i 0) row = rconWord (i + 1) row := by decide
  exact funext (all ⟨i, small⟩)

private theorem unmixWord_column (rk : UInt32) :
    column (unmixWord rk) = fun row =>
      invMixMatrix row 0 * column rk 0 + invMixMatrix row 1 * column rk 1 +
        invMixMatrix row 2 * column rk 2 + invMixMatrix row 3 * column rk 3 := by
  have cell : ∀ (place : Fin 4) (byte : Gf),
      column (atByte (td place) (column (atByte te4 byte) 3)) = fun row => invMixMatrix row place * byte := by
    intro place byte
    rw [te4_column, td_column, sBox.unsub_sub]
  rw [unmixWord, look_fourth td0, look_fourth td1, look_fourth td2, look_fourth td3, look_first,
    look_second, look_third, look_fourth, column_xor, column_xor, column_xor]
  have first := cell 0 (column rk 0)
  have second := cell 1 (column rk 1)
  have third := cell 2 (column rk 2)
  have fourth := cell 3 (column rk 3)
  change column (atByte td0 _) = _ at first
  change column (atByte td1 _) = _ at second
  change column (atByte td2 _) = _ at third
  change column (atByte td3 _) = _ at fourth
  rw [first, second, third, fourth]
  rfl

/-! ### Encryption -/

section Schedule
variable {nk : Nat} {key : Nat → AesWord}

private theorem schedule_round {round : Nat} (positive : 0 < nk) :
    schedule sBox nk key (nk * (round + 1)) = schedule sBox nk key (nk * round) +
      (sBox.sub ∘ rotWord (schedule sBox nk key (nk * round + (nk - 1))) + rconWord (round + 1)) := by
  have next : nk * (round + 1) = nk + nk * round := by rw [Nat.mul_succ, Nat.add_comm]
  have before : nk + nk * round - 1 = nk * round + (nk - 1) := by omega
  rw [next, schedule_add positive, before, scheduleTemp, ← next, if_pos (Nat.mul_mod_right _ _),
    Nat.mul_div_cancel_left _ positive]

private theorem schedule_next {round place : Nat} (inside : place + 1 < nk) :
    schedule sBox nk key (nk * (round + 1) + (place + 1)) =
      schedule sBox nk key (nk * round + (place + 1)) +
        if 6 < nk ∧ place + 1 = 4 then sBox.sub ∘ schedule sBox nk key (nk * (round + 1) + place)
        else schedule sBox nk key (nk * (round + 1) + place) := by
  have next : nk * (round + 1) + (place + 1) = nk + (nk * round + (place + 1)) := by
    rw [Nat.mul_succ]
    omega
  have before : nk + (nk * round + (place + 1)) - 1 = nk * (round + 1) + place := by omega
  have rest : (nk * (round + 1) + (place + 1)) % nk = place + 1 := by
    rw [Nat.mul_add_mod, Nat.mod_eq_of_lt inside]
  have off : ¬ (place + 1 = 0) := by omega
  rw [next, schedule_add (by omega), before, scheduleTemp, ← next, rest, if_neg off]

/-- The words that are written are the words of the schedule. -/
def Expanded (nk : Nat) (key : Nat → AesWord) (rdKey : List UInt32) : Prop :=
  ∀ n, n < rdKey.length → column (rdKey.getD n 0) = schedule sBox nk key n

namespace Expanded
variable {rdKey : List UInt32}

theorem append (expanded : Expanded nk key rdKey) {words : List UInt32}
    (next : ∀ k, k < words.length →
      column (words.getD k 0) = schedule sBox nk key (rdKey.length + k)) :
    Expanded nk key (rdKey ++ words) := by
  intro n written
  rw [List.length_append] at written
  by_cases early : n < rdKey.length
  · rw [List.getD_append _ _ _ _ early]
    exact expanded n early
  · rw [List.getD_append_right _ _ _ _ (by omega), next _ (by omega)]
    congr 1
    omega

/-- A word of the schedule from the word `nk` before and the one before it. -/
theorem next (expanded : Expanded nk key rdKey) {i : Nat} (length : rdKey.length = nk * (i + 1))
    (place : Nat) (inside : place + 1 < nk) (plain : ¬ (6 < nk ∧ place + 1 = 4)) {before : UInt32}
    (same : column before = schedule sBox nk key (nk * (i + 1) + place)) :
    column (rdKey.getD (nk * i + (place + 1)) 0 ^^^ before) =
      schedule sBox nk key (nk * (i + 1) + (place + 1)) := by
  have early : nk * i + (place + 1) < rdKey.length := by rw [length, Nat.mul_succ]; omega
  rw [column_xor, same, expanded _ early, schedule_next inside, if_neg plain]

private theorem substituted {i : Nat} (expanded : Expanded nk key rdKey) (length : rdKey.length = nk * (i + 1))
    (large : 6 < nk) {before : UInt32}
    (same : column before = schedule sBox nk key (nk * (i + 1) + 3)) :
    column (rdKey.getD (nk * i + 4) 0 ^^^ subUnrotated before) =
      schedule sBox nk key (nk * (i + 1) + 4) := by
  have early : nk * i + (3 + 1) < rdKey.length := by rw [length, Nat.mul_succ]; omega
  have next := @schedule_next nk key i 3 (by omega)
  rw [if_pos ⟨large, rfl⟩] at next
  rw [column_xor, subUnrotated_column, same, expanded _ early]
  exact next.symm

theorem first {i : Nat} (expanded : Expanded nk key rdKey) (length : rdKey.length = nk * (i + 1))
    (positive : 0 < nk) (small : i < 10) :
    column (rdKey.getD (nk * i + 0) 0 ^^^ subRotated (rdKey.getD (nk * i + (nk - 1)) 0) ^^^ rcon.getD i 0) =
      schedule sBox nk key (nk * (i + 1)) := by
  have early : nk * i + (nk - 1) < rdKey.length := by rw [length, Nat.mul_succ]; omega
  rw [column_xor, column_xor, subRotated_column, rcon_column small, expanded _ early,
    expanded _ (by omega), schedule_round positive]
  exact add_assoc _ _ _

end Expanded

private theorem expand128_expanded {rdKey : List UInt32} {i : Nat} (expanded : Expanded 4 key rdKey)
    (length : rdKey.length = 4 * (i + 1)) (small : i < 10) :
    Expanded 4 key (expand128 rdKey i) ∧ (expand128 rdKey i).length = 4 * (i + 2) := by
  have rk4 := expanded.first length (by decide) small
  have rk5 := expanded.next length 0 (by decide) (by decide) rk4
  have rk6 := expanded.next length 1 (by decide) (by decide) rk5
  have rk7 := expanded.next length 2 (by decide) (by decide) rk6
  constructor
  · refine expanded.append fun k inside => ?_
    rw [length]
    match k, inside with
    | 0, _ => exact rk4
    | 1, _ => exact rk5
    | 2, _ => exact rk6
    | 3, _ => exact rk7
  · rw [expand128, List.length_append, length]
    rfl

private theorem expand192_expanded {rdKey : List UInt32} {i : Nat} (expanded : Expanded 6 key rdKey)
    (length : rdKey.length = 6 * (i + 1)) (small : i < 8) :
    Expanded 6 key (expand192 rdKey i) ∧
      (expand192 rdKey i).length = if i + 1 = 8 then 52 else 6 * (i + 2) := by
  have rk6 := expanded.first length (by decide) (by omega)
  have rk7 := expanded.next length 0 (by decide) (by decide) rk6
  have rk8 := expanded.next length 1 (by decide) (by decide) rk7
  have rk9 := expanded.next length 2 (by decide) (by decide) rk8
  have rk10 := expanded.next length 3 (by decide) (by decide) rk9
  have rk11 := expanded.next length 4 (by decide) (by decide) rk10
  rw [expand192]
  dsimp only
  by_cases last : i + 1 = 8
  · rw [if_pos last, if_pos last]
    refine ⟨expanded.append fun k inside => ?_, by rw [List.length_append, length, last]; rfl⟩
    rw [length]
    match k, inside with
    | 0, _ => exact rk6
    | 1, _ => exact rk7
    | 2, _ => exact rk8
    | 3, _ => exact rk9
  · rw [if_neg last, if_neg last, List.append_assoc]
    refine ⟨expanded.append fun k inside => ?_, by rw [List.length_append, length]; rfl⟩
    rw [length]
    match k, inside with
    | 0, _ => exact rk6
    | 1, _ => exact rk7
    | 2, _ => exact rk8
    | 3, _ => exact rk9
    | 4, _ => exact rk10
    | 5, _ => exact rk11

private theorem expand256_expanded {rdKey : List UInt32} {i : Nat} (expanded : Expanded 8 key rdKey)
    (length : rdKey.length = 8 * (i + 1)) (small : i < 7) :
    Expanded 8 key (expand256 rdKey i) ∧
      (expand256 rdKey i).length = if i + 1 = 7 then 60 else 8 * (i + 2) := by
  have rk8 := expanded.first length (by decide) (by omega)
  have rk9 := expanded.next length 0 (by decide) (by decide) rk8
  have rk10 := expanded.next length 1 (by decide) (by decide) rk9
  have rk11 := expanded.next length 2 (by decide) (by decide) rk10
  have rk12 := expanded.substituted length (by decide) rk11
  have rk13 := expanded.next length 4 (by decide) (by decide) rk12
  have rk14 := expanded.next length 5 (by decide) (by decide) rk13
  have rk15 := expanded.next length 6 (by decide) (by decide) rk14
  rw [expand256]
  dsimp only
  by_cases last : i + 1 = 7
  · rw [if_pos last, if_pos last]
    refine ⟨expanded.append fun k inside => ?_, by rw [List.length_append, length, last]; rfl⟩
    rw [length]
    match k, inside with
    | 0, _ => exact rk8
    | 1, _ => exact rk9
    | 2, _ => exact rk10
    | 3, _ => exact rk11
  · rw [if_neg last, if_neg last, List.append_assoc]
    refine ⟨expanded.append fun k inside => ?_, by rw [List.length_append, length]; rfl⟩
    rw [length]
    match k, inside with
    | 0, _ => exact rk8
    | 1, _ => exact rk9
    | 2, _ => exact rk10
    | 3, _ => exact rk11
    | 4, _ => exact rk12
    | 5, _ => exact rk13
    | 6, _ => exact rk14
    | 7, _ => exact rk15

end Schedule

/-- The bytes of a word of the key. -/
def userWord (userKey : Bytes) (i : Nat) : AesWord :=
  fun row => ⟨(userKey.getD (4 * i + row) 0).toBitVec⟩

private theorem keyWords_expanded (userKey : Bytes) (nk : Nat) :
    Expanded nk (userWord userKey) (keyWords userKey nk) ∧ (keyWords userKey nk).length = nk := by
  have length : (keyWords userKey nk).length = nk := by rw [keyWords, List.length_map, List.length_range]
  refine ⟨fun n written => ?_, length⟩
  rw [length] at written
  have entry : (keyWords userKey nk).getD n 0 = getU32 userKey (4 * n) := by
    simp [keyWords, written]
  rw [entry, schedule_key written]
  exact funext (getU32_column userKey (4 * n))

/-- The rounds of an expansion; the last one may write less than the others. -/
theorem expand_expanded {nk : Nat} {key : Nat → AesWord} {expand : List UInt32 → Nat → List UInt32}
    {rounds last : Nat}
    (each : ∀ rdKey i, i < rounds → Expanded nk key rdKey → rdKey.length = nk * (i + 1) →
      Expanded nk key (expand rdKey i) ∧
        (expand rdKey i).length = if i + 1 = rounds then last else nk * (i + 2))
    {rdKey : List UInt32} (expanded : Expanded nk key rdKey) (length : rdKey.length = nk) (count : Nat)
    (bounded : count ≤ rounds) :
    Expanded nk key ((List.range count).foldl expand rdKey) ∧
      ((List.range count).foldl expand rdKey).length =
        if count = rounds ∧ 0 < count then last else nk * (count + 1) := by
  induction count with
  | zero => exact ⟨expanded, by rw [List.range_zero, List.foldl_nil, length]; simp⟩
  | succ count ih =>
    obtain ⟨before, written⟩ := ih (by omega)
    rw [if_neg (by omega)] at written
    obtain ⟨after, more⟩ := each _ count (by omega) before written
    rw [List.range_succ, List.foldl_append, List.foldl_cons, List.foldl_nil]
    refine ⟨after, more.trans ?_⟩
    simp only [Nat.succ_pos, and_true]

/-- The words of a key in `nk` words, for `nr` rounds. -/
structure KeyFor (userKey : Bytes) (nk : Nat) (key : AesKey) : Prop where
  rounds : key.rounds = nk + 6
  length : key.rdKey.length = 4 * (key.rounds + 1)
  expanded : Expanded nk (userWord userKey) key.rdKey

private theorem aesSetEncryptKey_ok {userKey : Bytes} {bits : Int} {key : AesKey}
    (set : aesSetEncryptKey (some userKey) bits = .ok key) :
    ∃ nk : Nat, bits = 32 * nk ∧ (nk = 4 ∨ nk = 6 ∨ nk = 8) ∧ KeyFor userKey nk key := by
  rw [aesSetEncryptKey] at set
  split at set
  · cases set
  · split at set
    · cases set
      rename_i size
      obtain ⟨start, count⟩ := keyWords_expanded userKey 4
      have each : ∀ rdKey i, i < 10 → Expanded 4 (userWord userKey) rdKey → rdKey.length = 4 * (i + 1) →
          Expanded 4 (userWord userKey) (expand128 rdKey i) ∧
            (expand128 rdKey i).length = if i + 1 = 10 then 44 else 4 * (i + 2) := by
        intro rdKey i small before written
        obtain ⟨after, more⟩ := expand128_expanded before written small
        refine ⟨after, ?_⟩
        split <;> omega
      obtain ⟨expanded, length⟩ := expand_expanded each start count 10 (Nat.le_refl 10)
      exact ⟨4, size, .inl rfl, rfl, length, expanded⟩
    · split at set
      · cases set
        rename_i size
        obtain ⟨start, count⟩ := keyWords_expanded userKey 6
        obtain ⟨expanded, length⟩ := expand_expanded (fun rdKey i small before written =>
          expand192_expanded before written small) start count 8 (Nat.le_refl 8)
        exact ⟨6, size, .inr (.inl rfl), rfl, length, expanded⟩
      · cases set
        rename_i first second
        obtain ⟨start, count⟩ := keyWords_expanded userKey 8
        obtain ⟨expanded, length⟩ := expand_expanded (fun rdKey i small before written =>
          expand256_expanded before written small) start count 7 (Nat.le_refl 7)
        exact ⟨8, by omega, .inr (.inr rfl), rfl, length, expanded⟩

/-! ### Decryption -/

theorem swapWords_length (rk : List UInt32) (i j : Nat) : (swapWords rk i j).length = rk.length := by
  rw [swapWords, List.length_set, List.length_set]

private theorem swapWords_getD {rk : List UInt32} {i j : Nat} (first : i < rk.length) (second : j < rk.length)
    (n : Nat) : (swapWords rk i j).getD n 0 = rk.getD (if n = j then i else if n = i then j else n) 0 := by
  have set : ∀ (words : List UInt32) (k : Nat) (word : UInt32), k < words.length →
      (words.set k word).getD n 0 = if n = k then word else words.getD n 0 := by
    intro words k word inside
    rw [List.getD_eq_getElem?_getD, List.getElem?_set, List.getD_eq_getElem?_getD]
    by_cases same : n = k
    · rw [if_pos same, if_pos same.symm, if_pos inside]
      rfl
    · rw [if_neg same, if_neg (Ne.symm same)]
  rw [swapWords, set _ _ _ (by rw [List.length_set]; exact second), set _ _ _ first]
  split_ifs <;> rfl

private theorem swapKeys_length (rk : List UInt32) (i j : Nat) : (swapKeys rk i j).length = rk.length := by
  simp only [swapKeys, swapWords_length]

/-- The block that comes to a place where two are exchanged. -/
def exchanged (p q block : Nat) : Nat := if block = q then p else if block = p then q else block

private theorem swapWords_block {rk : List UInt32} {p q : Nat} (ordered : p < q) (written : 4 * q + 3 < rk.length)
    {offset place : Nat} (word : offset < 4) (inside : place < 4) (block : Nat) :
    (swapWords rk (4 * p + offset) (4 * q + offset)).getD (4 * block + place) 0 =
      rk.getD (4 * (if place = offset then exchanged p q block else block) + place) 0 := by
  rw [swapWords_getD (by omega) (by omega)]
  congr 1
  by_cases same : place = offset
  · rw [if_pos same, exchanged]
    split_ifs <;> omega
  · rw [if_neg same, if_neg (by omega), if_neg (by omega)]

private theorem swapKeys_getD {rk : List UInt32} {p q : Nat} (ordered : p < q) (written : 4 * q + 3 < rk.length)
    {place : Nat} (inside : place < 4) (block : Nat) :
    (swapKeys rk (4 * p) (4 * q)).getD (4 * block + place) 0 =
      rk.getD (4 * exchanged p q block + place) 0 := by
  have first := @swapWords_block rk p q ordered written 0 place (by decide) inside
  have second := @swapWords_block (swapWords rk (4 * p) (4 * q)) p q ordered
    (by rw [swapWords_length]; exact written) 1 place (by decide) inside
  have third := @swapWords_block (swapWords (swapWords rk (4 * p) (4 * q)) (4 * p + 1) (4 * q + 1)) p q ordered
    (by rw [swapWords_length, swapWords_length]; exact written) 2 place (by decide) inside
  rw [swapKeys, swapWords_block ordered (by simp only [swapWords_length]; exact written) (by decide) inside,
    third, second]
  refine (first _).trans ?_
  congr 2
  obtain rfl | rfl | rfl | rfl : place = 0 ∨ place = 1 ∨ place = 2 ∨ place = 3 := by omega
  · rfl
  · rfl
  · rfl
  · rfl

private theorem invertOrder_length (rk : List UInt32) (i j : Nat) : (invertOrder rk i j).length = rk.length := by
  fun_induction invertOrder rk i j with
  | case1 rk i j ordered ih => rw [ih, swapKeys_length]
  | case2 => rfl

private theorem invertOrder_getD {rk : List UInt32} {p q : Nat} (written : 4 * q + 3 < rk.length)
    {place : Nat} (inside : place < 4) (block : Nat) :
    (invertOrder rk (4 * p) (4 * q)).getD (4 * block + place) 0 =
      rk.getD (4 * (if p ≤ block ∧ block ≤ q then p + q - block else block) + place) 0 := by
  induction hsize : q - p using Nat.strong_induction_on generalizing rk p q with
  | h size ih =>
    rw [invertOrder]
    by_cases ordered : p < q
    · have shrunk := @ih (q - 1 - (p + 1)) (by omega) (swapKeys rk (4 * p) (4 * q)) (p + 1) (q - 1)
        (by rw [swapKeys_length]; omega) rfl
      have later : 4 * p + 4 = 4 * (p + 1) := by omega
      have earlier : 4 * q - 4 = 4 * (q - 1) := by omega
      rw [if_pos (by omega), later, earlier, shrunk, swapKeys_getD ordered written inside, exchanged]
      congr 3
      split_ifs <;> omega
    · rw [if_neg (by omega)]
      congr 3
      split_ifs <;> omega

private theorem unmixAt_length (rk : List UInt32) (i : Nat) : (unmixAt rk i).length = rk.length := List.length_set

private theorem unmixAt_getD {rk : List UInt32} {i : Nat} (written : i < rk.length) (n : Nat) :
    (unmixAt rk i).getD n 0 = if n = i then unmixWord (rk.getD n 0) else rk.getD n 0 := by
  simp only [unmixAt, List.getD_eq_getElem?_getD, List.getElem?_set]
  by_cases same : n = i
  · subst same
    simp [written]
  · rw [if_neg same, if_neg (Ne.symm same)]

private theorem unmixKey_length (rk : List UInt32) (i : Nat) : (unmixKey rk i).length = rk.length := by
  simp only [unmixKey, unmixAt_length]

private theorem unmixKey_getD {rk : List UInt32} {i : Nat} (written : 4 * i + 3 < rk.length) {place : Nat}
    (inside : place < 4) (block : Nat) :
    (unmixKey rk i).getD (4 * block + place) 0 =
      if block = i then unmixWord (rk.getD (4 * block + place) 0) else rk.getD (4 * block + place) 0 := by
  rw [unmixKey, unmixAt_getD (by simp only [unmixAt_length]; omega),
    unmixAt_getD (by simp only [unmixAt_length]; omega), unmixAt_getD (by simp only [unmixAt_length]; omega),
    unmixAt_getD (by omega)]
  by_cases same : block = i
  · subst same
    obtain rfl | rfl | rfl | rfl : place = 0 ∨ place = 1 ∨ place = 2 ∨ place = 3 := by omega
    · rw [if_neg (by omega), if_neg (by omega), if_neg (by omega), if_pos (by omega), if_pos rfl]
    · rw [if_neg (by omega), if_neg (by omega), if_pos rfl, if_neg (by omega), if_pos rfl]
    · rw [if_neg (by omega), if_pos rfl, if_neg (by omega), if_neg (by omega), if_pos rfl]
    · rw [if_pos rfl, if_neg (by omega), if_neg (by omega), if_neg (by omega), if_pos rfl]
  · rw [if_neg same, if_neg (by omega), if_neg (by omega), if_neg (by omega), if_neg (by omega)]

private theorem unmixKeys_length (rk : List UInt32) (rounds : List Nat) :
    (rounds.foldl unmixKey rk).length = rk.length := by
  induction rounds generalizing rk with
  | nil => rfl
  | cons round rest ih => rw [List.foldl_cons, ih, unmixKey_length]

/-- The transform of all round keys but the first and the last. -/
theorem unmixKeys_getD {rk : List UInt32} {count : Nat} (written : 4 * count + 3 < rk.length)
    {place : Nat} (inside : place < 4) (block : Nat) :
    ((List.range' 1 count).foldl unmixKey rk).getD (4 * block + place) 0 =
      if 1 ≤ block ∧ block ≤ count then unmixWord (rk.getD (4 * block + place) 0)
      else rk.getD (4 * block + place) 0 := by
  induction count with
  | zero => rw [if_neg (by omega)]; rfl
  | succ count ih =>
    rw [List.range'_concat, List.foldl_append, List.foldl_cons, List.foldl_nil, Nat.one_mul,
      Nat.add_comm 1 count, unmixKey_getD (by rw [unmixKeys_length]; exact written) inside,
      ih (by omega)]
    by_cases last : block = count + 1
    · rw [if_pos last, if_neg (by omega), if_pos (by omega)]
    · rw [if_neg last]
      congr 1
      simp only [eq_iff_iff]
      omega

/-- The key of decryption: the round keys in the other order, the inner ones unmixed. -/
structure Inverted (enc dec : AesKey) : Prop where
  rounds : dec.rounds = enc.rounds
  word : ∀ round, round ≤ enc.rounds → ∀ place, place < 4 →
    dec.rk (4 * round + place) =
      if 1 ≤ round ∧ round ≤ enc.rounds - 1 then unmixWord (enc.rk (4 * (enc.rounds - round) + place))
      else enc.rk (4 * (enc.rounds - round) + place)

private theorem aesSetDecryptKey_ok {userKey : Option Bytes} {bits : Int} {enc : AesKey}
    (set : aesSetEncryptKey userKey bits = .ok enc) (length : enc.rdKey.length = 4 * (enc.rounds + 1))
    (positive : 0 < enc.rounds) :
    ∃ dec, aesSetDecryptKey userKey bits = .ok dec ∧ Inverted enc dec := by
  refine ⟨⟨(List.range' 1 (enc.rounds - 1)).foldl unmixKey (invertOrder enc.rdKey 0 (4 * enc.rounds)),
    enc.rounds⟩, by rw [aesSetDecryptKey, set]; rfl, rfl, ?_⟩
  intro round early place inside
  have inverted := @invertOrder_getD enc.rdKey 0 enc.rounds (by omega) place inside round
  rw [if_pos ⟨Nat.zero_le _, early⟩, Nat.zero_add] at inverted
  rw [AesKey.rk, unmixKeys_getD (by rw [invertOrder_length]; omega) inside]
  exact congrArg (fun word => if 1 ≤ round ∧ round ≤ enc.rounds - 1 then unmixWord word else word) inverted

namespace Inverted
variable {enc dec : AesKey}

private theorem outer (inverted : Inverted enc dec) {round : Nat} (end_ : round = 0 ∨ round = enc.rounds) :
    roundKey dec.words round = roundKey enc.words (enc.rounds - round) := by
  refine Matrix.ext fun row place => ?_
  have word := inverted.word round (by omega) place place.isLt
  rw [if_neg (by omega)] at word
  exact congrArg (column · row) word

theorem inner (inverted : Inverted enc dec) {round : Nat} (first : 1 ≤ round)
    (last : round ≤ enc.rounds - 1) :
    roundKey dec.words round = (aesLayers sBox).unmix (roundKey enc.words (enc.rounds - round)) := by
  refine Matrix.ext fun row place => ?_
  have word := inverted.word round (by omega) place place.isLt
  rw [if_pos ⟨first, last⟩] at word
  change _ = (invMixMatrix * roundKey enc.words (enc.rounds - round)) row place
  rw [Matrix.mul_apply, Fin.sum_univ_four]
  exact (congrArg (column · row) word).trans (congrFun (unmixWord_column _) row)

end Inverted

/-! ### Keys of the program -/

theorem KeyFor.even {userKey : Bytes} {nk : Nat} {key : AesKey} (keyFor : KeyFor userKey nk key)
    (taken : nk = 4 ∨ nk = 6 ∨ nk = 8) : key.rounds = 2 * ((nk + 4) / 2 + 1) := by
  rw [keyFor.rounds]
  omega

/-- `AES_encrypt` under a key of `AES_set_encrypt_key` is the cipher of the standard. -/
theorem aesEncrypt_standard {userKey : Bytes} {bits : Int} {key : AesKey}
    (set : aesSetEncryptKey (some userKey) bits = .ok key) :
    ∃ nk : Nat, bits = 32 * nk ∧ (nk = 4 ∨ nk = 6 ∨ nk = 8) ∧ (∃ box : SBox, box.Standard) ∧
      ∀ box : SBox, box.Standard → ∀ input, blockState (aesEncrypt input key) =
        standardCipher box (schedule box nk (userWord userKey)) (nk + 6) (blockState input) := by
  obtain ⟨nk, size, taken, keyFor⟩ := aesSetEncryptKey_ok set
  refine ⟨nk, size, taken, ⟨sBox, sBox_standard⟩, fun box standard input => ?_⟩
  obtain rfl := standard.unique sBox_standard
  rw [aesEncrypt_state (keyFor.even taken), ← keyFor.rounds]
  have words : ∀ i, i < key.rdKey.length → key.words i = schedule sBox nk (userWord userKey) i :=
    fun i written => keyFor.expanded i written
  have keys : ∀ round, round ≤ key.rounds →
      roundKey key.words round = roundKey (schedule sBox nk (userWord userKey)) round := by
    intro round early
    refine Matrix.ext fun row place => congrFun (words _ ?_) row
    rw [keyFor.length]
    omega
  rw [standardCipher, standardCipher, keys 0 (Nat.zero_le _), keys key.rounds (Nat.le_refl _)]
  congr 1
  refine List.map_congr_left fun round member => keys round ?_
  rw [List.mem_range'_1] at member
  omega

theorem aesEncrypt_standard_zeros :
    ∃ key, aesSetEncryptKey (some (List.replicate 16 0)) 128 = .ok key ∧
      ∃ nk : Nat, (128 : Int) = 32 * nk ∧ (nk = 4 ∨ nk = 6 ∨ nk = 8) ∧ (∃ box : SBox, box.Standard) ∧
        ∀ box : SBox, box.Standard → ∀ input, blockState (aesEncrypt input key) =
          standardCipher box (schedule box nk (userWord (List.replicate 16 0))) (nk + 6)
            (blockState input) :=
  ⟨_, rfl, aesEncrypt_standard rfl⟩

/-- The rounds of the one key undo the rounds of the other. -/
theorem Inverted.undoes {enc dec : AesKey} {half : Nat} (inverted : Inverted enc dec)
    (even : enc.rounds = 2 * (half + 1)) (input : Block 16) :
    aesDecrypt (aesEncrypt input enc) dec = input := by
  apply blockState_injective
  have inner : (List.range' 1 (enc.rounds - 1)).map (roundKey dec.words) =
      ((List.range' 1 (enc.rounds - 1)).map (roundKey enc.words)).reverse.map (aesLayers sBox).unmix := by
    refine List.ext_getElem (by simp) fun i first second => ?_
    have small : i < enc.rounds - 1 := by simpa using first
    simp only [List.getElem_map, List.getElem_range', List.getElem_reverse, List.length_map,
      List.length_range', Nat.one_mul]
    rw [inverted.inner (by omega) (by omega)]
    congr 2
    omega
  have last := inverted.outer (.inl rfl)
  have first := @Inverted.outer enc dec inverted enc.rounds (.inr rfl)
  rw [Nat.sub_zero] at last
  rw [Nat.sub_self] at first
  rw [aesDecrypt_state (inverted.rounds.trans even), inverted.rounds, inner, last, first,
    aesEncrypt_state even, standardCipher, Layers.decipher_cipher]

/-- Both keys of a user key. -/
theorem aesKeys_inverted {userKey : Bytes} {bits : Int} {enc : AesKey}
    (set : aesSetEncryptKey (some userKey) bits = .ok enc) :
    ∃ dec half, aesSetDecryptKey (some userKey) bits = .ok dec ∧ Inverted enc dec ∧
      enc.rounds = 2 * (half + 1) := by
  obtain ⟨nk, size, taken, keyFor⟩ := aesSetEncryptKey_ok set
  have even := keyFor.even taken
  obtain ⟨dec, opposite, inverted⟩ := aesSetDecryptKey_ok set keyFor.length (by omega)
  exact ⟨dec, _, opposite, inverted, even⟩

/-- The key of `AES_set_decrypt_key` undoes the key of `AES_set_encrypt_key`. -/
theorem aesDecrypt_undoes {userKey : Option Bytes} {bits : Int} {enc : AesKey}
    (set : aesSetEncryptKey userKey bits = .ok enc) :
    ∃ dec, aesSetDecryptKey userKey bits = .ok dec ∧
      ∀ input, aesDecrypt (aesEncrypt input enc) dec = input := by
  cases userKey with
  | none => cases set
  | some userKey =>
    obtain ⟨dec, half, opposite, inverted, even⟩ := aesKeys_inverted set
    exact ⟨dec, opposite, inverted.undoes even⟩

theorem aesDecrypt_undoes_zeros :
    ∃ enc dec, aesSetEncryptKey (some (List.replicate 32 0)) 256 = .ok enc ∧
      aesSetDecryptKey (some (List.replicate 32 0)) 256 = .ok dec ∧
      ∀ input, aesDecrypt (aesEncrypt input enc) dec = input := by
  obtain ⟨dec, set, undoes⟩ := aesDecrypt_undoes (rfl : aesSetEncryptKey (some (List.replicate 32 0)) 256 = .ok _)
  exact ⟨_, dec, rfl, set, undoes⟩

end Livezure.Utils
