import Igmp.Proofs.WrappingSum

/-! # What a checksum tells of a change in one word -/
namespace Igmp.Checksum
open Bytes

/-- Two runs of one length that differ, and in no byte but those of the word at `index`. -/
structure DifferAt (index : Nat) (bs bs' : Bytes) : Prop where
  length_eq : bs'.length = bs.length
  byteAt_eq : ∀ i, i / 2 ≠ index → bs'.byteAt i = bs.byteAt i
  ne : bs' ≠ bs

/-- The sum of the words of a message but for its checksum and the word at `index`. -/
def otherSum (index : Nat) (bs : Bytes) : Nat :=
  ((((words bs).set index 0).set 1 0).map UInt16.toNat).sum

theorem words_length (bs : Bytes) : (words bs).length = (bs.length + 1) / 2 := by
  fun_induction words bs with
  | case1 hi lo rest ih =>
    simp only [List.length_cons, ih]
    omega
  | case2 last => simp
  | case3 => rfl

/-- The words of a run are read at every second byte, and behind them there is nothing but zero. -/
theorem getD_words (bs : Bytes) (index : Nat) :
    (words bs).getD index 0 = bs.wordAt (2 * index) := by
  fun_induction words bs generalizing index with
  | case1 hi lo rest ih =>
    cases index with
    | zero => rfl
    | succ index => exact ih index
  | case2 last => cases index <;> simp [wordAt, byteAt, word]
  | case3 => simp [wordAt, byteAt, word]

/-- A word taken out of a sum. -/
private theorem sum_eq_add_getD (ws : List UInt16) (index : Nat) :
    (ws.map UInt16.toNat).sum =
      ((ws.set index 0).map UInt16.toNat).sum + (ws.getD index 0).toNat := by
  induction ws generalizing index with
  | nil => rfl
  | cons w ws ih =>
    cases index with
    | zero =>
      simp only [List.set_cons_zero, List.map_cons, List.sum_cons, List.getD_cons_zero,
        UInt16.toNat_zero]
      omega
    | succ index =>
      simp only [List.set_cons_succ, List.map_cons, List.sum_cons, List.getD_cons_succ, ih index]
      omega

private theorem getD_set_of_ne {ws : List UInt16} {index index' : Nat} (h : index' ≠ index) :
    (ws.set index' 0).getD index 0 = ws.getD index 0 := by
  rw [List.getD_eq_getElem?_getD, List.getD_eq_getElem?_getD, List.getElem?_set_ne h]

variable {index : Nat} {bs bs' : Bytes}

theorem countedSum_eq_otherSum_add (h : index ≠ 1) (bs : Bytes) :
    countedSum 1 bs = otherSum index bs + (bs.wordAt (2 * index)).toNat := by
  rw [countedSum, sum_eq_add_getD _ index, getD_set_of_ne h.symm, getD_words, otherSum,
    List.set_comm _ _ h]

/-- Another word that is not zero is part of the sum. -/
theorem otherSum_pos {other : Nat} (h1 : other ≠ 1) (hne : other ≠ index)
    (h0 : bs.wordAt (2 * other) ≠ 0) : 0 < otherSum index bs := by
  have hword : (((words bs).set index 0).set 1 0).getD other 0 = bs.wordAt (2 * other) := by
    rw [getD_set_of_ne h1.symm, getD_set_of_ne hne.symm, getD_words]
  have hpos : (bs.wordAt (2 * other)).toNat ≠ 0 := by
    intro hz
    exact h0 (UInt16.toNat_inj.mp hz)
  rw [otherSum, sum_eq_add_getD _ other, hword]
  omega

theorem differAt_iff : DifferAt index bs bs' ↔ bs'.length = bs.length ∧
    (∀ i < bs.length, i / 2 ≠ index → bs'.byteAt i = bs.byteAt i) ∧ bs' ≠ bs := by
  constructor
  · intro h
    exact ⟨h.length_eq, fun i _ => h.byteAt_eq i, h.ne⟩
  · rintro ⟨hlen, hbytes, hne⟩
    refine ⟨hlen, ?_, hne⟩
    intro i hi
    rcases Nat.lt_or_ge i bs.length with hlt | hge
    · exact hbytes i hlt hi
    · rw [byteAt, byteAt, List.getD_eq_default _ _ hge, List.getD_eq_default _ _ (by omega)]

instance : Decidable (DifferAt index bs bs') := decidable_of_iff _ differAt_iff.symm

namespace DifferAt

variable (h : DifferAt index bs bs')

include h

theorem wordAt_eq {other : Nat} (hne : other ≠ index) :
    bs'.wordAt (2 * other) = bs.wordAt (2 * other) := by
  rw [wordAt, wordAt, h.byteAt_eq _ (by omega), h.byteAt_eq _ (by omega)]

theorem otherSum_eq : otherSum index bs' = otherSum index bs := by
  have hlen : (words bs').length = (words bs).length := by
    rw [words_length, words_length, h.length_eq]
  have hwords : (words bs').set index 0 = (words bs).set index 0 := by
    apply List.ext_getElem (by rw [List.length_set, List.length_set, hlen])
    intro other hi hi'
    rw [List.length_set] at hi hi'
    by_cases hne : other = index
    · simp [hne]
    · have hword := h.wordAt_eq hne
      rw [← getD_words, ← getD_words, List.getD_eq_getElem _ _ hi, List.getD_eq_getElem _ _ hi']
        at hword
      rw [List.getElem_set_ne (Ne.symm hne), List.getElem_set_ne (Ne.symm hne), hword]
  rw [otherSum, hwords, otherSum]

theorem wordAt_ne : bs'.wordAt (2 * index) ≠ bs.wordAt (2 * index) := by
  intro hword
  have hbytes := congrArg ofWord hword
  rw [wordAt, wordAt, ofWord_word, ofWord_word, List.cons.injEq, List.cons.injEq] at hbytes
  apply h.ne
  apply ext_byteAt h.length_eq
  intro i _
  by_cases hi : i / 2 = index
  · have hcases : i = 2 * index ∨ i = 2 * index + 1 := by omega
    rcases hcases with rfl | rfl
    · exact hbytes.1
    · exact hbytes.2.1
  · exact h.byteAt_eq i hi

end DifferAt

/-- With something else in the sum, the two words that leave one sum are all zeros and all ones. -/
theorem fold_add_eq_iff {rest w w' : Nat} (hrest : 0 < rest) (hw : w < 65536) (hw' : w' < 65536)
    (hne : w' ≠ w) :
    fold (rest + w') = fold (rest + w) ↔ w = 0 ∧ w' = 65535 ∨ w = 65535 ∧ w' = 0 := by
  rw [fold_eq, fold_eq, if_neg (by omega), if_neg (by omega)]
  omega

private theorem ne_nil_of_countedSum_pos {skipped : Nat} (h : 0 < countedSum skipped bs) :
    bs ≠ [] := by
  rintro rfl
  rw [countedSum_nil] at h
  omega

theorem ofMessage_toNat_of_length_le (h : bs.length ≤ 131074) (hne : bs ≠ []) :
    (ofMessage bs).toNat = 65535 - fold (countedSum 1 bs) := by
  have hle := countedSum_le 1 bs
  rw [ofMessage, skipping_toNat hne, Nat.mod_eq_of_lt (by omega)]

/-- Of all changes in one word that a message's checksum covers, beside other words that are not
all zero, the checksum misses only the one between all zeros and all ones. -/
theorem ofMessage_eq_iff_of_differAt (h : DifferAt index bs bs') (hlen : bs.length ≤ 131074)
    (hindex : index ≠ 1)
    (hother : ∃ other, other ≠ 1 ∧ other ≠ index ∧ bs.wordAt (2 * other) ≠ 0) :
    ofMessage bs' = ofMessage bs ↔
      bs.wordAt (2 * index) = 0 ∧ bs'.wordAt (2 * index) = 0xffff ∨
        bs.wordAt (2 * index) = 0xffff ∧ bs'.wordAt (2 * index) = 0 := by
  obtain ⟨other, h1, hne, h0⟩ := hother
  have hlen' : bs'.length ≤ 131074 := by rwa [h.length_eq]
  have hpos : 0 < otherSum index bs := otherSum_pos h1 hne h0
  have hsum := countedSum_eq_otherSum_add hindex bs
  have hsum' := countedSum_eq_otherSum_add hindex bs'
  rw [h.otherSum_eq] at hsum'
  have hbs : bs ≠ [] := ne_nil_of_countedSum_pos (by omega : 0 < countedSum 1 _)
  have hbs' : bs' ≠ [] := ne_nil_of_countedSum_pos (by omega : 0 < countedSum 1 _)
  have hword : (bs'.wordAt (2 * index)).toNat ≠ (bs.wordAt (2 * index)).toNat := by
    intro heq
    exact h.wordAt_ne (UInt16.toNat_inj.mp heq)
  have hlt := fold_lt (countedSum 1 bs)
  have hlt' := fold_lt (countedSum 1 bs')
  have hzero : (0 : UInt16).toNat = 0 := rfl
  have hones : (0xffff : UInt16).toNat = 65535 := rfl
  have hfold : ofMessage bs' = ofMessage bs ↔
      fold (countedSum 1 bs') = fold (countedSum 1 bs) := by
    rw [← UInt16.toNat_inj, ofMessage_toNat_of_length_le hlen hbs,
      ofMessage_toNat_of_length_le hlen' hbs']
    omega
  rw [hfold, hsum, hsum', fold_add_eq_iff hpos (UInt16.toNat_lt _) (UInt16.toNat_lt _) hword]
  simp only [← UInt16.toNat_inj, hzero, hones]

/-- All ones read in place of zeros behind a stored checksum go unnoticed; a change of an odd last
byte does not. -/
theorem ofMessage_eq_iff_of_differAt_odd :
    let bs : Bytes := [0x11, 0x64, 0xee, 0x9b, 0, 0, 0x01]
    let ones : Bytes := [0x11, 0x64, 0xee, 0x9b, 0xff, 0xff, 0x01]
    let last : Bytes := [0x11, 0x64, 0xee, 0x9b, 0, 0, 0xff]
    DifferAt 2 bs ones ∧ DifferAt 3 bs last ∧ bs.length ≤ 131074 ∧ bs.wordAt (2 * 0) ≠ 0 ∧
      ofMessage ones = ofMessage bs ∧ ofMessage last ≠ ofMessage bs := by
  intro bs ones last
  have hones : DifferAt 2 bs ones := by decide
  have hlast : DifferAt 3 bs last := by decide
  have hlen : bs.length ≤ 131074 := by decide
  have hfirst : bs.wordAt (2 * 0) ≠ 0 := by decide
  refine ⟨hones, hlast, hlen, hfirst, ?_, ?_⟩
  · have hiff := ofMessage_eq_iff_of_differAt hones hlen (by decide)
      ⟨0, by decide, by decide, hfirst⟩
    exact hiff.2 (by decide)
  · have hiff := ofMessage_eq_iff_of_differAt hlast hlen (by decide)
      ⟨0, by decide, by decide, hfirst⟩
    exact mt hiff.1 (by decide)

end Igmp.Checksum
