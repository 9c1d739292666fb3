import Igmp.Proofs.OnesComplement
import Mathlib.Logic.Function.Iterate

/-! # Checksums calculated in 32 bits -/
namespace Igmp.Checksum
open Bytes

/-- The sum of the words of a run without bound. The word at index `skipped` counts as zero,
whatever is stored there. -/
def countedSum (skipped : Nat) (bs : Bytes) : Nat :=
  (((words bs).set skipped 0).map UInt16.toNat).sum

/-- The checksum of a run whose words have this sum: the complement of the remainder of the sum
by 65535, where only the sum zero leaves zero. -/
def complement (bs : Bytes) (sum : Nat) : Nat :=
  if bs = [] then 0 else if sum = 0 then 0xffff else 0xffff - ((sum - 1) % 65535 + 1)

/-- Adds the words of a run, but for the one at index `skipped`, to a sum of 32 bits, which
loses the carries out of its top. The words are numbered from `index` on. -/
def accumulate (skipped : Nat) : Nat → UInt32 → Bytes → UInt32
  | index, sum, hi :: lo :: rest =>
    accumulate skipped (index + 1)
      (if index = skipped then sum else sum + (word hi lo).toUInt32) rest
  | index, sum, [last] => if index = skipped then sum else sum + last.toUInt32 <<< 8
  | _, sum, [] => sum

/-- Adds what lies above sixteen bits back in, once. -/
def foldRound (sum : UInt32) : UInt32 := (sum >>> 16) + (sum &&& 0xffff)

theorem foldRound_toNat (sum : UInt32) :
    (foldRound sum).toNat = sum.toNat / 65536 + sum.toNat % 65536 := by
  have hlt := sum.toNat_lt
  have hlow : (sum &&& 0xffff).toNat = sum.toNat % 65536 := by
    rw [UInt32.toNat_and]
    exact Nat.and_two_pow_sub_one_eq_mod _ 16
  have hhigh : (sum >>> 16).toNat = sum.toNat / 65536 := by
    rw [UInt32.toNat_shiftRight]
    exact Nat.shiftRight_eq_div_pow _ 16
  rw [foldRound, UInt32.toNat_add, hlow, hhigh]
  omega

theorem shiftRight_eq_zero_iff (sum : UInt32) : sum >>> 16 = 0 ↔ sum.toNat < 65536 := by
  have hhigh : (sum >>> 16).toNat = sum.toNat / 65536 := by
    rw [UInt32.toNat_shiftRight]
    exact Nat.shiftRight_eq_div_pow _ 16
  rw [← UInt32.toNat_inj, hhigh, UInt32.toNat_zero]
  omega

/-- Adds what lies above sixteen bits back in for as long as something does. -/
def foldRounds (sum : UInt32) : UInt32 :=
  if sum >>> 16 = 0 then sum else foldRounds (foldRound sum)
termination_by sum.toNat
decreasing_by
  rename_i h
  rw [shiftRight_eq_zero_iff] at h
  rw [foldRound_toNat]
  omega

/-- The checksum of a run, with the sum of its words in 32 bits. -/
def inRegister (skipped : Nat) (bs : Bytes) : UInt16 :=
  if bs = [] then 0 else (~~~ foldRounds (accumulate skipped 0 0 bs)).toUInt16

theorem foldRounds_toNat (sum : UInt32) : (foldRounds sum).toNat = fold sum.toNat := by
  fun_induction foldRounds sum with
  | case1 sum h => rw [fold, if_pos ((shiftRight_eq_zero_iff sum).1 h)]
  | case2 sum h ih =>
    rw [ih, foldRound_toNat, fold.eq_1 sum.toNat, if_neg (mt (shiftRight_eq_zero_iff sum).2 h)]

/-- Two rounds are enough for every sum. -/
theorem exists_iterate_foldRound (sum : UInt32) :
    ∃ rounds ≤ 2, foldRound^[rounds] sum = foldRounds sum ∧ foldRounds sum >>> 16 = 0 := by
  have hlt := sum.toNat_lt
  have hend : foldRounds sum >>> 16 = 0 := by
    rw [shiftRight_eq_zero_iff, foldRounds_toNat]
    exact fold_lt _
  have hone := foldRound_toNat sum
  have htwo := foldRound_toNat (foldRound sum)
  by_cases h₀ : sum >>> 16 = 0
  · refine ⟨0, by decide, ?_, hend⟩
    rw [foldRounds, if_pos h₀]
    rfl
  by_cases h₁ : foldRound sum >>> 16 = 0
  · refine ⟨1, by decide, ?_, hend⟩
    rw [foldRounds, if_neg h₀, foldRounds, if_pos h₁]
    rfl
  · have h₂ : foldRound (foldRound sum) >>> 16 = 0 := by
      rw [shiftRight_eq_zero_iff] at h₁ ⊢
      omega
    refine ⟨2, by decide, ?_, hend⟩
    rw [foldRounds, if_neg h₀, foldRounds, if_neg h₁, foldRounds, if_pos h₂]
    rfl

theorem countedSum_nil (skipped : Nat) : countedSum skipped [] = 0 := rfl

theorem countedSum_zero_cons (hi lo : UInt8) (rest : Bytes) :
    countedSum 0 (hi :: lo :: rest) = wordSum rest := by
  simp [countedSum, words, wordSum_eq_sum]

theorem countedSum_succ_cons (skipped : Nat) (hi lo : UInt8) (rest : Bytes) :
    countedSum (skipped + 1) (hi :: lo :: rest) =
      hi.toNat * 256 + lo.toNat + countedSum skipped rest := by
  simp [countedSum, words, word_toNat]

theorem countedSum_singleton (skipped : Nat) (last : UInt8) :
    countedSum skipped [last] = if skipped = 0 then 0 else last.toNat * 256 := by
  cases skipped <;> simp [countedSum, words, word_toNat]

private theorem toUInt32_word_toNat (hi lo : UInt8) :
    (word hi lo).toUInt32.toNat = hi.toNat * 256 + lo.toNat := by
  rw [UInt16.toNat_toUInt32, word_toNat]

private theorem toUInt32_shiftLeft_toNat (last : UInt8) :
    (last.toUInt32 <<< 8).toNat = last.toNat * 256 := by
  have hlt := last.toNat_lt
  have hshift : last.toNat <<< 8 = last.toNat * 256 := Nat.shiftLeft_eq _ 8
  have hwidth : (8 : UInt32).toNat % 32 = 8 := rfl
  rw [UInt32.toNat_shiftLeft, UInt8.toNat_toUInt32, hwidth, hshift]
  omega

theorem wordSum_singleton (last : UInt8) : wordSum [last] = last.toNat * 256 := by
  simp [wordSum, wordSum.go]

/-- Behind the word that is left out all words are added. -/
theorem accumulate_after {skipped index : Nat} (h : skipped < index) (sum : UInt32) (bs : Bytes) :
    (accumulate skipped index sum bs).toNat = (sum.toNat + wordSum bs) % 4294967296 := by
  fun_induction words bs generalizing index sum with
  | case1 hi lo rest ih =>
    rw [accumulate, if_neg (by omega), ih (by omega), UInt32.toNat_add, toUInt32_word_toNat,
      wordSum_cons]
    omega
  | case2 last =>
    rw [accumulate, if_neg (by omega), UInt32.toNat_add, toUInt32_shiftLeft_toNat,
      wordSum_singleton]
  | case3 =>
    have hsum := sum.toNat_lt
    rw [accumulate, wordSum_nil]
    omega

/-- What 32 bits hold of the sum of all words but the one that is left out. -/
theorem accumulate_toNat (skipped index : Nat) (sum : UInt32) (bs : Bytes) :
    (accumulate (index + skipped) index sum bs).toNat =
      (sum.toNat + countedSum skipped bs) % 4294967296 := by
  have hsum := sum.toNat_lt
  fun_induction words bs generalizing skipped index sum with
  | case1 hi lo rest ih =>
    cases skipped with
    | zero =>
      rw [Nat.add_zero, accumulate, if_pos rfl, accumulate_after (by omega), countedSum_zero_cons]
    | succ skipped =>
      have hindex : index + (skipped + 1) = index + 1 + skipped := by omega
      rw [accumulate, if_neg (by omega), hindex, ih _ _ _ (UInt32.toNat_lt _),
        countedSum_succ_cons, UInt32.toNat_add, toUInt32_word_toNat]
      omega
  | case2 last =>
    cases skipped with
    | zero =>
      rw [Nat.add_zero, accumulate, if_pos rfl, countedSum_singleton, if_pos rfl]
      omega
    | succ skipped =>
      rw [accumulate, if_neg (by omega), countedSum_singleton, if_neg (by omega), UInt32.toNat_add,
        toUInt32_shiftLeft_toNat]
  | case3 =>
    rw [accumulate, countedSum_nil]
    omega

/-- The words before the one that is left out, and those behind it. -/
theorem countedSum_eq (skipped : Nat) (bs : Bytes) :
    countedSum skipped bs =
      wordSum (bs.take (2 * skipped)) + wordSum (bs.drop (2 * skipped + 2)) := by
  fun_induction words bs generalizing skipped with
  | case1 hi lo rest ih =>
    cases skipped with
    | zero =>
      rw [countedSum_zero_cons, Nat.mul_zero, List.take_zero, wordSum_nil, Nat.zero_add]
      rfl
    | succ skipped =>
      have htake : (hi :: lo :: rest).take (2 * (skipped + 1)) =
          hi :: lo :: rest.take (2 * skipped) := rfl
      have hdrop : (hi :: lo :: rest).drop (2 * (skipped + 1) + 2) =
          rest.drop (2 * skipped + 2) := rfl
      rw [countedSum_succ_cons, ih, htake, hdrop, wordSum_cons]
      omega
  | case2 last =>
    cases skipped with
    | zero => rfl
    | succ skipped =>
      have htake : [last].take (2 * (skipped + 1)) = [last] := rfl
      have hdrop : [last].drop (2 * (skipped + 1) + 2) = [] := rfl
      rw [countedSum_singleton, if_neg (by omega), htake, hdrop, wordSum_singleton, wordSum_nil,
        Nat.add_zero]
  | case3 => rw [countedSum_nil, List.take_nil, List.drop_nil, wordSum_nil]

theorem countedSum_le (skipped : Nat) (bs : Bytes) :
    countedSum skipped bs ≤ 65535 * ((bs.length + 1) / 2) := by
  have hbefore := wordSum_le (bs.take (2 * skipped))
  have hafter := wordSum_le (bs.drop (2 * skipped + 2))
  rw [List.length_take] at hbefore
  rw [List.length_drop] at hafter
  rw [countedSum_eq]
  omega

theorem skipping_toNat {skipped : Nat} {bs : Bytes} (h : bs ≠ []) :
    (skipping skipped bs).toNat = 65535 - fold (countedSum skipped bs % 4294967296) := by
  have hskip : skipping skipped bs = UInt16.ofNat (65535 -
      fold ((wordSum (bs.take (2 * skipped)) + wordSum (bs.drop (2 * skipped + 2))) % 4294967296)) :=
    if_neg (by simpa using h)
  rw [hskip, ← countedSum_eq, UInt16.toNat_ofNat']
  omega

/-- The sum in 32 bits, folded in rounds, gives the checksum of a run. -/
theorem skipping_eq_inRegister (skipped : Nat) (bs : Bytes) :
    skipping skipped bs = inRegister skipped bs := by
  by_cases hne : bs = []
  · rw [hne, inRegister, if_pos rfl]
    rfl
  · have hrun := accumulate_toNat skipped 0 0 bs
    rw [Nat.zero_add, UInt32.toNat_zero, Nat.zero_add] at hrun
    have hlt := fold_lt (countedSum skipped bs % 4294967296)
    have hsize : UInt32.size = 4294967296 := rfl
    apply UInt16.toNat_inj.mp
    rw [skipping_toNat hne, inRegister, if_neg hne, UInt32.toNat_toUInt16, UInt32.toNat_not,
      foldRounds_toNat, hrun, hsize]
    omega

/-- As long as the sum of its words fits 32 bits, the checksum of a run is that of its exact sum. -/
theorem skipping_toNat_of_lt {skipped : Nat} {bs : Bytes} (h : countedSum skipped bs < 4294967296) :
    (skipping skipped bs).toNat = complement bs (countedSum skipped bs) := by
  by_cases hne : bs = []
  · rw [hne]
    rfl
  · rw [skipping_toNat hne, Nat.mod_eq_of_lt h, fold_eq, complement, if_neg hne]
    split <;> rfl

/-- As many words as make up 131074 bytes do not overflow 32 bits, wherever the sum has got to. -/
theorem accumulate_eq_countedSum (skipped : Nat) {bs : Bytes} (h : bs.length ≤ 131074) :
    (accumulate skipped 0 0 bs).toNat = countedSum skipped bs := by
  have hle := countedSum_le skipped bs
  have hrun := accumulate_toNat skipped 0 0 bs
  rw [Nat.zero_add, UInt32.toNat_zero, Nat.zero_add] at hrun
  rw [hrun, Nat.mod_eq_of_lt (by omega)]

/-- The checksums of messages and of headers are the complements of the exact sums of their words
for up to 131074 bytes, over which the sum in 32 bits never loses a carry. Folding a sum ends
after at most two rounds. -/
theorem checksum_toNat_eq_complement {bs : Bytes} (h : bs.length ≤ 131074) :
    (ofMessage bs).toNat = complement bs (countedSum 1 bs) ∧
      (ofHeader bs).toNat = complement bs (countedSum 5 bs) ∧
      (ofMessage bs = inRegister 1 bs ∧ ofHeader bs = inRegister 5 bs) ∧
      (∀ skipped count, (accumulate skipped 0 0 (bs.take count)).toNat =
        countedSum skipped (bs.take count)) ∧
      ∀ sum : UInt32,
        ∃ rounds ≤ 2, foldRound^[rounds] sum = foldRounds sum ∧ foldRounds sum >>> 16 = 0 := by
  have hroom (skipped : Nat) : countedSum skipped bs < 4294967296 := by
    have hle := countedSum_le skipped bs
    omega
  refine ⟨skipping_toNat_of_lt (hroom 1), skipping_toNat_of_lt (hroom 5),
    ⟨skipping_eq_inRegister 1 bs, skipping_eq_inRegister 5 bs⟩, ?_, exists_iterate_foldRound⟩
  intro skipped count
  apply accumulate_eq_countedSum
  rw [List.length_take]
  omega

/-- An odd last byte in the place of a message's checksum. -/
theorem checksum_toNat_eq_complement_odd :
    let bs : Bytes := [0x11, 0x64, 0xab]
    bs.length ≤ 131074 ∧ (ofMessage bs).toNat = 0xee9b ∧ (ofHeader bs).toNat = 0x439b := by
  intro bs
  have hlen : bs.length ≤ 131074 := by decide
  obtain ⟨hmessage, hheader, -⟩ := checksum_toNat_eq_complement hlen
  have hsum : countedSum 1 bs = 0x1164 := rfl
  have hsum' : countedSum 5 bs = 0xbc64 := rfl
  rw [hsum] at hmessage
  rw [hsum'] at hheader
  exact ⟨hlen, hmessage, hheader⟩

end Igmp.Checksum
