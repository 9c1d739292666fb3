import Igmp.HexText
import Igmp.Tokens

/-! # The tokens of a text written piece by piece -/
namespace Igmp

namespace Numeral

private theorem digitValue?_ne_none_of_foldlM {base start n : Nat} {cs : List Char}
    (h : cs.foldlM (step? base) start = some n) {c : Char} (hc : c ∈ cs) :
    digitValue? c ≠ none := by
  induction cs generalizing start with
  | nil => simp at hc
  | cons d cs ih =>
    obtain ⟨next, hstep, hrest⟩ : ∃ next, step? base start d = some next ∧
        cs.foldlM (step? base) next = some n := by
      simpa only [List.foldlM_cons, Option.bind_eq_bind, Option.bind_eq_some_iff] using h
    rcases List.mem_cons.1 hc with rfl | hc
    · intro hnone
      simp [step?, hnone] at hstep
    · exact ih hrest hc

/-- A number is spelled in digits only. -/
theorem digitValue?_ne_none {base n : Nat} {cs : List Char} (h : value? base cs = some n) :
    ∀ c ∈ cs, digitValue? c ≠ none :=
  fun _ hc => digitValue?_ne_none_of_foldlM h hc

/-- Leading zeros count for nothing. -/
theorem value?_zeros (count : Nat) (cs : List Char) :
    value? 16 (List.replicate count '0' ++ cs) = value? 16 cs := by
  induction count with
  | zero => rfl
  | succ count ih =>
    rw [List.replicate_succ, List.cons_append, ← ih]
    rfl

theorem digitValue?_toLower (c : Char) : digitValue? c.toLower = digitValue? c := by
  by_cases h : c.val ≥ 'A'.val ∧ c.val ≤ 'Z'.val
  · have hall : ∀ n < 91, 65 ≤ n →
        digitValue? (Char.ofNat n).toLower = digitValue? (Char.ofNat n) := by decide
    have hlow : 65 ≤ c.toNat := h.1
    have hhigh : c.toNat ≤ 90 := h.2
    have hc := hall c.toNat (by omega) hlow
    rwa [Char.ofNat_toNat] at hc
  · have hlower : c.toLower = c := dif_neg h
    rw [hlower]

/-- Digits spell the same number in either case. -/
theorem value?_map_toLower (base : Nat) (cs : List Char) :
    value? base (cs.map Char.toLower) = value? base cs := by
  have hstep : (fun n c => step? base n (Char.toLower c)) = step? base := by
    funext n c
    rw [step?, step?, digitValue?_toLower]
  rw [value?, value?, List.foldlM_map, hstep]

end Numeral

namespace HexText

theorem digits_ne_nil (n : Nat) : digits n ≠ [] := by
  rw [digits]
  split
  · exact List.cons_ne_nil _ _
  · exact List.append_ne_nil_of_right_ne_nil _ (List.cons_ne_nil _ _)

/-- The two digits of a byte spell it. -/
theorem value?_byte (b : UInt8) : Numeral.value? 16 (byte b) = some b.toNat := by
  have hlt := b.toNat_lt
  have hhigh : b.toNat / 16 < 16 := by omega
  have hlow : b.toNat % 16 < 16 := by omega
  simp only [byte, Numeral.value?, Numeral.step?, List.foldlM_cons, List.foldlM_nil,
    digitValue?_digit _ hhigh, digitValue?_digit _ hlow, if_pos hhigh, if_pos hlow,
    Option.bind_eq_bind, Option.bind_some, Option.pure_def, Nat.mul_zero, Nat.zero_add]
  rw [Nat.div_add_mod]

private theorem toLower_digit : ∀ n < 16, (digit n).toLower = digit n := by decide

theorem map_toLower_digits (n : Nat) : (digits n).map Char.toLower = digits n := by
  fun_induction digits n with
  | case1 n h => rw [List.map_singleton, toLower_digit n h]
  | case2 n h ih =>
    rw [List.map_append, ih, List.map_singleton, toLower_digit _ (Nat.mod_lt _ (by decide))]

theorem toList_spaced_cons (b : UInt8) (row : Bytes) :
    (spaced (b :: row)).toList = byte b ++ row.flatMap fun b => ' ' :: byte b := by
  rw [spaced, String.toList_intercalate, List.map_map]
  induction row generalizing b with
  | nil => simp
  | cons c row ih =>
    rw [List.map_cons, List.map_cons, List.intercalate_cons_cons, ← List.map_cons, ih]
    simp

end HexText

namespace Tokens

theorem digitValue?_of_isBlank {c : Char} (h : isBlank c = true) :
    Numeral.digitValue? c = none := by
  have hall : blanks.all (fun d => (Numeral.digitValue? d).isNone) = true := by decide
  exact Option.isNone_iff_eq_none.1 (List.all_eq_true.1 hall c (List.contains_iff_mem.1 h))

/-- The digits of a number hold no blank. -/
theorem isBlank_of_value? {base n : Nat} {cs : List Char}
    (h : Numeral.value? base cs = some n) : ∀ c ∈ cs, isBlank c = false := by
  intro c hc
  rw [← Bool.not_eq_true]
  intro hblank
  exact Numeral.digitValue?_ne_none h c hc (digitValue?_of_isBlank hblank)

theorem newline_not_mem_of_value? {base n : Nat} {cs : List Char}
    (h : Numeral.value? base cs = some n) : '\n' ∉ cs := by
  intro hc
  exact absurd (isBlank_of_value? h _ hc) (by decide)

theorem lines_eq_singleton {line : List Char} (h : '\n' ∉ line) : lines line = [line] :=
  split_eq_singleton _ line fun _ hc => decide_eq_false fun he => h (he ▸ hc)

/-- A line feed ends the first line. -/
theorem lines_append_cons {line : List Char} (h : '\n' ∉ line) (text : List Char) :
    lines (line ++ '\n' :: text) = line :: lines text := by
  have hline : split (· = '\n') line = [line] := lines_eq_singleton h
  rw [lines, split_append_cons _ _ _ _ (by simp), hline]
  rfl

/-- Lines that are joined by line feeds, and hold none themselves, are the lines of the text. -/
theorem lines_intercalate {ls : List (List Char)} (hne : ls ≠ []) (h : ∀ l ∈ ls, '\n' ∉ l) :
    lines (['\n'].intercalate ls) = ls := by
  induction ls with
  | nil => exact absurd rfl hne
  | cons l ls ih =>
    cases ls with
    | nil => rw [List.intercalate_singleton, lines_eq_singleton (h l (by simp))]
    | cons next ls =>
      rw [List.intercalate_cons_cons, List.append_assoc, List.singleton_append,
        lines_append_cons (h l (by simp)), ih (by simp) fun k hk => h k (by simp [hk])]

@[simp] theorem ofText_nil : ofText [] = [] := rfl

/-- A blank ends the tokens before it. -/
theorem ofText_append_cons (xs ys : List Char) {c : Char} (h : isBlank c = true) :
    ofText (xs ++ c :: ys) = ofText xs ++ ofText ys := by
  rw [ofText, split_append_cons _ _ _ _ h, List.filter_append, ofText, ofText]

/-- A token by itself. -/
theorem ofText_word {word : List Char} (hne : word ≠ []) (h : ∀ c ∈ word, isBlank c = false) :
    ofText word = [word] := by
  rw [ofText, split_eq_singleton _ _ h, List.filter_cons_of_pos (by simp [hne]), List.filter_nil]

/-- Blanks within a line. -/
def Blank (cs : List Char) : Prop := ∀ c ∈ cs, isBlank c = true ∧ c ≠ '\n'

instance (cs : List Char) : Decidable (Blank cs) :=
  List.decidableBAll (fun c => isBlank c = true ∧ c ≠ '\n') cs

theorem Blank.newline_not_mem {cs : List Char} (h : Blank cs) : '\n' ∉ cs :=
  fun hc => (h _ hc).2 rfl

theorem Blank.tail {c : Char} {cs : List Char} (h : Blank (c :: cs)) : Blank cs :=
  fun d hd => h d (List.mem_cons_of_mem c hd)

theorem Blank.append {xs ys : List Char} (hxs : Blank xs) (hys : Blank ys) : Blank (xs ++ ys) :=
  fun c hc => (List.mem_append.1 hc).elim (hxs c) (hys c)

theorem blank_replicate (count : Nat) : Blank (List.replicate count ' ') := by
  intro c hc
  rw [List.eq_of_mem_replicate hc]
  decide

theorem Blank.ofText_append {cs : List Char} (h : Blank cs) (ys : List Char) :
    ofText (cs ++ ys) = ofText ys := by
  induction cs with
  | nil => rfl
  | cons c cs ih =>
    rw [List.cons_append, ← List.nil_append (c :: _), ofText_append_cons _ _ (h c (by simp)).1,
      ofText_nil, List.nil_append, ih h.tail]

theorem Blank.ofText_eq_nil {cs : List Char} (h : Blank cs) : ofText cs = [] := by
  rw [← List.append_nil cs, h.ofText_append, ofText_nil]

theorem ofText_eq_nil_of_blank {ls : List (List Char)} (h : ∀ l ∈ ls, Blank l) :
    ∀ tokens ∈ ls.map ofText, tokens = [] := by
  intro tokens htokens
  obtain ⟨l, hl, rfl⟩ := List.mem_map.1 htokens
  exact (h l hl).ofText_eq_nil

/-- A text stands by itself behind a token: it is empty, or blanks part it from the token. -/
def Apart (cs : List Char) : Prop := ∀ c ∈ cs.head?, isBlank c = true

theorem Apart.ofText_append {ys : List Char} (h : Apart ys) (xs : List Char) :
    ofText (xs ++ ys) = ofText xs ++ ofText ys := by
  cases ys with
  | nil => rw [List.append_nil, ofText_nil, List.append_nil]
  | cons c ys =>
    have hc : isBlank c = true := h c rfl
    rw [ofText_append_cons _ _ hc, ← List.nil_append (c :: ys), ofText_append_cons _ _ hc,
      ofText_nil, List.nil_append]

theorem Blank.apart {cs : List Char} (h : Blank cs) : Apart cs := by
  intro c hc
  exact (h c (List.mem_of_mem_head? hc)).1

theorem Blank.apart_append {cs : List Char} (h : Blank cs) (hne : cs ≠ []) (ys : List Char) :
    Apart (cs ++ ys) := by
  intro c hc
  rw [List.head?_append, List.head?_eq_some_head hne, Option.some_or,
    ← List.head?_eq_some_head hne] at hc
  exact h.apart c hc

/-- Lines with line feeds between them, and carriage returns in front of some line feeds. -/
inductive Joined : List (List Char) → List Char → Prop where
  | last (line : List Char) : Joined [line] line
  | lf {line text : List Char} {lines : List (List Char)} (hrest : Joined lines text) :
    Joined (line :: lines) (line ++ '\n' :: text)
  | crlf {line text : List Char} {lines : List (List Char)} (hrest : Joined lines text) :
    Joined (line :: lines) (line ++ '\r' :: '\n' :: text)

/-- The tokens of the lines do not depend on how the lines are joined. -/
theorem Joined.map_ofText {ls : List (List Char)} {text : List Char} (h : Joined ls text)
    (hlines : ∀ l ∈ ls, '\n' ∉ l) : (lines text).map ofText = ls.map ofText := by
  induction h with
  | last line =>
    rw [lines_eq_singleton (hlines line (List.mem_singleton_self line))]
  | @lf line text ls hrest ih =>
    rw [lines_append_cons (hlines line (by simp)), List.map_cons, List.map_cons,
      ih fun l hl => hlines l (List.mem_cons_of_mem _ hl)]
  | @crlf line text ls hrest ih =>
    have hreturn : '\n' ∉ line ++ ['\r'] := by simpa using hlines line (by simp)
    have hblank : Blank ['\r'] := by decide
    rw [← List.singleton_append, ← List.append_assoc, lines_append_cons hreturn, List.map_cons,
      List.map_cons, hblank.apart.ofText_append, hblank.ofText_eq_nil, List.append_nil,
      ih fun l hl => hlines l (List.mem_cons_of_mem _ hl)]

end Tokens

end Igmp
