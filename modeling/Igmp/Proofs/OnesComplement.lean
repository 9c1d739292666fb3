import Igmp.Checksum
import Igmp.Proofs.ByteOverlay
import Mathlib.Algebra.GroupWithZero.Nat

/-! # One's complement sums, with the carry added back in at each step or at the end -/
namespace Igmp.Checksum
open Bytes

/-- The big-endian words of a run; an odd last byte is the high byte of a word. -/
def words : Bytes → List UInt16
  | hi :: lo :: rest => word hi lo :: words rest
  | [last] => [word last 0]
  | [] => []

/-- Addition of words where a carry out of the top is added back in at the bottom. -/
def onesAdd (x y : UInt16) : UInt16 :=
  if x.toNat + y.toNat < 65536 then x + y else x + y + 1

/-- The one's complement sum of all words of a run, the stored checksum among them. -/
def onesSum (bs : Bytes) : UInt16 := (words bs).foldl onesAdd 0

/-- The sum of the words of a message but for the one that holds its checksum, without bound. -/
def restSum (bs : Bytes) : Nat := wordSum (bs.take 2) + wordSum (bs.drop 4)

/-- A folded sum is the remainder of the sum by 65535, where only the sum zero leaves zero. -/
theorem fold_eq (sum : Nat) : fold sum = if sum = 0 then 0 else (sum - 1) % 65535 + 1 := by
  fun_induction fold sum with
  | case1 sum h =>
    split
    · assumption
    · rw [Nat.mod_eq_of_lt (by omega)]
      omega
  | case2 sum h ih =>
    rw [ih, if_neg (by omega), if_neg (by omega)]
    omega

theorem fold_add_fold (x y : Nat) : fold (fold x + y) = fold (x + y) := by
  simp only [fold_eq]
  split
  · rename_i hx
    rw [hx]
  · rw [if_neg (by omega), if_neg (by omega)]
    omega

theorem onesAdd_toNat (x y : UInt16) : (onesAdd x y).toNat = fold (x.toNat + y.toNat) := by
  have hx := x.toNat_lt
  have hy := y.toNat_lt
  rw [onesAdd, fold_eq]
  split
  · rw [UInt16.toNat_add]
    split <;> omega
  · have hone : (1 : UInt16).toNat = 1 := rfl
    rw [UInt16.toNat_add, UInt16.toNat_add, if_neg (by omega), hone]
    omega

theorem wordSum_nil : wordSum [] = 0 := rfl

theorem wordSum_eq_sum (bs : Bytes) : wordSum bs = ((words bs).map UInt16.toNat).sum := by
  fun_induction words bs with
  | case1 hi lo rest ih => rw [wordSum_cons, List.map_cons, List.sum_cons, ih, word_toNat]
  | case2 last =>
    rw [List.map_cons, List.sum_cons, word_toNat]
    simp [wordSum, wordSum.go]
  | case3 => rfl

/-- Adding the carry back in at each step or folding the whole sum at the end is the same. -/
theorem onesSum_toNat (bs : Bytes) : (onesSum bs).toNat = fold (wordSum bs) := by
  have hrun : ∀ (ws : List UInt16) (sum : UInt16),
      (ws.foldl onesAdd sum).toNat = fold (sum.toNat + (ws.map UInt16.toNat).sum) := by
    intro ws
    induction ws with
    | nil =>
      intro sum
      have hlt := sum.toNat_lt
      rw [List.foldl_nil, List.map_nil, List.sum_nil, fold_eq]
      split <;> omega
    | cons w ws ih =>
      intro sum
      rw [List.foldl_cons, ih, onesAdd_toNat, fold_add_fold, List.map_cons, List.sum_cons,
        Nat.add_assoc]
  rw [onesSum, hrun, wordSum_eq_sum, UInt16.toNat_zero, Nat.zero_add]

theorem wordSum_append {xs : Bytes} (h : xs.length % 2 = 0) (ys : Bytes) :
    wordSum (xs ++ ys) = wordSum xs + wordSum ys := by
  fun_induction words xs with
  | case1 hi lo rest ih =>
    have hrest : rest.length % 2 = 0 := by
      simp only [List.length_cons] at h
      omega
    rw [List.cons_append, List.cons_append, wordSum_cons, wordSum_cons, ih hrest]
    omega
  | case2 last => simp at h
  | case3 => rw [List.nil_append, wordSum_nil, Nat.zero_add]

theorem wordSum_le (bs : Bytes) : wordSum bs ≤ 65535 * ((bs.length + 1) / 2) := by
  fun_induction words bs with
  | case1 hi lo rest ih =>
    have hhi := hi.toNat_lt
    have hlo := lo.toNat_lt
    rw [wordSum_cons, List.length_cons, List.length_cons]
    omega
  | case2 last =>
    have hlast := last.toNat_lt
    simp only [wordSum, wordSum.go, List.length_singleton]
    omega
  | case3 => exact Nat.zero_le _

/-- All words are the one that holds the checksum and the others. -/
theorem wordSum_eq_restSum_add {bs : Bytes} (h : 4 ≤ bs.length) :
    wordSum bs = restSum bs + (bs.wordAt 2).toNat := by
  match bs, h with
  | b₀ :: b₁ :: b₂ :: b₃ :: rest, _ =>
    have hword : Bytes.wordAt (b₀ :: b₁ :: b₂ :: b₃ :: rest) 2 = word b₂ b₃ := rfl
    have htake : wordSum [b₀, b₁] = b₀.toNat * 256 + b₁.toNat := by
      rw [wordSum_cons, wordSum_nil, Nat.add_zero]
    rw [wordSum_cons, wordSum_cons, hword, word_toNat, restSum]
    simp only [List.take_succ_cons, List.take_zero, List.drop_succ_cons, List.drop_zero, htake]
    omega

theorem restSum_le (bs : Bytes) : restSum bs ≤ 65535 * ((bs.length - 4 + 1) / 2 + 1) := by
  have hhead := wordSum_le (bs.take 2)
  have htail := wordSum_le (bs.drop 4)
  rw [List.length_take] at hhead
  rw [List.length_drop] at htail
  rw [restSum]
  omega

/-- A first byte that is not zero is part of the sum. -/
theorem restSum_pos {bs : Bytes} (h : 2 ≤ bs.length) (h0 : bs.byteAt 0 ≠ 0) : 0 < restSum bs := by
  match bs, h with
  | b₀ :: b₁ :: rest, _ =>
    have hpos : 0 < b₀.toNat := by
      rcases Nat.eq_zero_or_pos b₀.toNat with hz | hpos
      · exact absurd (UInt8.toNat_inj.mp hz) h0
      · exact hpos
    have htake : List.take 2 (b₀ :: b₁ :: rest) = [b₀, b₁] := rfl
    rw [restSum, htake, wordSum_cons]
    omega

theorem ofMessage_toNat {bs : Bytes} (h : bs ≠ []) :
    (ofMessage bs).toNat = 65535 - fold (restSum bs % 4294967296) := by
  have hskip : ofMessage bs = UInt16.ofNat (65535 - fold (restSum bs % 4294967296)) :=
    if_neg (by simpa using h)
  rw [hskip, UInt16.toNat_ofNat']
  omega

end Igmp.Checksum
