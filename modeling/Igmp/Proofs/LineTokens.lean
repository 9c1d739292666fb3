import Mathlib.Data.List.Forall2
import Mathlib.Data.List.Induction
import Mathlib.Data.List.TakeWhile
import Igmp.Proofs.DumpText

/-! # What the lines of a hex dump hold

Lines, tokens, offsets and octets are told by relations on the characters, without a reader, and
the reader is shown to find exactly what they tell. -/
namespace Igmp

namespace Tokens

/-- The lines of a text, with a line feed between each two of them. A carriage return in front of a
line feed stays with its line, where it is a blank. -/
inductive Lines : List Char → List (List Char) → Prop where
  | last {line : List Char} (hline : '\n' ∉ line) : Lines line [line]
  | cons {line text : List Char} {ls : List (List Char)} (hline : '\n' ∉ line)
      (hrest : Lines text ls) : Lines (line ++ '\n' :: text) (line :: ls)

/-- The tokens of a line: runs of characters that are no blanks, parted by blanks. -/
inductive Words : List Char → List (List Char) → Prop where
  | nil : Words [] []
  | blank {c : Char} {cs : List Char} {words : List (List Char)} (hc : isBlank c = true)
      (hrest : Words cs words) : Words (c :: cs) words
  | word {word cs : List Char} {words : List (List Char)} (hne : word ≠ [])
      (hword : ∀ c ∈ word, isBlank c = false) (hapart : Apart cs) (hrest : Words cs words) :
      Words (word ++ cs) (word :: words)

theorem Lines.lines_eq {cs : List Char} {ls : List (List Char)} (h : Lines cs ls) :
    lines cs = ls := by
  induction h with
  | last hline => exact lines_eq_singleton hline
  | cons hline _ ih => rw [lines_append_cons hline, ih]

theorem exists_lines (cs : List Char) : ∃ ls, Lines cs ls := by
  induction cs with
  | nil => exact ⟨[[]], .last List.not_mem_nil⟩
  | cons c cs ih =>
    obtain ⟨ls, hls⟩ := ih
    by_cases hc : c = '\n'
    · subst hc
      exact ⟨[] :: ls, .cons List.not_mem_nil hls⟩
    · -- The character joins the first line of the rest.
      have hcons : ∀ line : List Char, '\n' ∉ line → '\n' ∉ c :: line := by
        intro line hline hmem
        rcases List.mem_cons.1 hmem with rfl | hmem
        · exact hc rfl
        · exact hline hmem
      cases hls with
      | last hline => exact ⟨[c :: cs], .last (hcons cs hline)⟩
      | @cons line text ls hline hrest =>
        exact ⟨(c :: line) :: ls, .cons (hcons line hline) hrest⟩

theorem lines_iff {cs : List Char} {ls : List (List Char)} : Lines cs ls ↔ lines cs = ls := by
  constructor
  · exact Lines.lines_eq
  · rintro rfl
    obtain ⟨ls, hls⟩ := exists_lines cs
    rwa [hls.lines_eq]

theorem Words.ofText_eq {cs : List Char} {words : List (List Char)} (h : Words cs words) :
    ofText cs = words := by
  induction h with
  | nil => rfl
  | @blank c cs words hc _ ih =>
    rw [← List.nil_append (c :: cs), ofText_append_cons _ _ hc, ofText_nil, List.nil_append, ih]
  | word hne hword hapart _ ih =>
    rw [hapart.ofText_append, ofText_word hne hword, ih, List.singleton_append]

theorem Words.unique {cs : List Char} {words words' : List (List Char)} (h : Words cs words)
    (h' : Words cs words') : words' = words := h'.ofText_eq.symm.trans h.ofText_eq

theorem exists_words (cs : List Char) : ∃ words, Words cs words := by
  induction cs with
  | nil => exact ⟨[], .nil⟩
  | cons c cs ih =>
    obtain ⟨words, hwords⟩ := ih
    cases hc : isBlank c with
    | true => exact ⟨words, .blank hc hwords⟩
    | false =>
      have halone : Apart cs → Words (c :: cs) ([c] :: words) := fun hapart =>
        .word (List.cons_ne_nil c []) (by simpa using hc) hapart hwords
      cases hwords with
      | nil => exact ⟨[[c]], halone (by simp [Apart])⟩
      | @blank d cs words hd hrest => exact ⟨_, halone (by simpa [Apart] using hd)⟩
      | @word word cs words hne hword hapart hrest =>
        -- The character joins the first token of the rest.
        have hjoined : ∀ d ∈ c :: word, isBlank d = false := List.forall_mem_cons.2 ⟨hc, hword⟩
        exact ⟨(c :: word) :: words, .word (List.cons_ne_nil c word) hjoined hapart hrest⟩

theorem words_iff {cs : List Char} {words : List (List Char)} :
    Words cs words ↔ ofText cs = words := by
  constructor
  · exact Words.ofText_eq
  · rintro rfl
    obtain ⟨words, hwords⟩ := exists_words cs
    rwa [hwords.ofText_eq]

end Tokens

namespace HexText

theorem digits_of_lt {n : Nat} (h : n < 16) : digits n = [digit n] := by
  rw [digits, if_pos h]

theorem digits_step {n d : Nat} (hn : n ≠ 0) (hd : d < 16) :
    digits (16 * n + d) = digits n ++ [digit d] := by
  have hdiv : (16 * n + d) / 16 = n := by omega
  have hmod : (16 * n + d) % 16 = d := by omega
  rw [digits, if_neg (by omega), hdiv, hmod]

end HexText

namespace Numeral

theorem toNat_lt_of_digitValue? {c : Char} {v : Nat} (h : digitValue? c = some v) :
    c.toNat < 103 := by
  unfold digitValue? at h
  split at h
  · next hdigit =>
    have hle : c.toNat ≤ 57 := hdigit.2
    omega
  split at h
  · next hlower =>
    have hle : c.toNat ≤ 102 := hlower.2
    omega
  split at h
  · next hupper =>
    have hle : c.toNat ≤ 70 := hupper.2
    omega
  · simp at h

theorem toLower_of_digitValue? {c : Char} {v : Nat} (h : digitValue? c = some v) :
    c.toLower = HexText.digit v := by
  have hall : ∀ n < 103, ∀ v ∈ digitValue? (Char.ofNat n),
      (Char.ofNat n).toLower = HexText.digit v := by decide
  have hdigit := hall c.toNat (toNat_lt_of_digitValue? h)
  rw [Char.ofNat_toNat] at hdigit
  exact hdigit v h

theorem value?_append_eq_some_iff {base n : Nat} (cs : List Char) {c : Char} :
    value? base (cs ++ [c]) = some n ↔
      ∃ m d, value? base cs = some m ∧ digitValue? c = some d ∧ d < base ∧ n = base * m + d := by
  rw [value?_append, Option.bind_eq_some_iff]
  constructor
  · rintro ⟨m, hm, hstep⟩
    cases hd : digitValue? c with
    | none => simp [step?, hd] at hstep
    | some d =>
      simp only [step?, hd, Option.ite_none_right_eq_some, Option.some.injEq] at hstep
      exact ⟨m, d, hm, rfl, hstep.1, hstep.2.symm⟩
  · rintro ⟨m, d, hm, hd, hlt, rfl⟩
    exact ⟨m, hm, by simp only [step?, hd, if_pos hlt]⟩

/-- A number in 64 bits is read from digits with or without a plus sign in front. -/
theorem word?_eq_some_iff {base n : Nat} {cs : List Char} :
    word? base cs = some n ↔
      ∃ sign digits, cs = sign ++ digits ∧ (sign = [] ∨ sign = ['+']) ∧ digits ≠ [] ∧
        value? base digits = some n ∧ n < wordLimit := by
  have hdigits : ∀ digits : List Char,
      (if digits = [] then none else (value? base digits).filter (· < wordLimit)) = some n ↔
        digits ≠ [] ∧ value? base digits = some n ∧ n < wordLimit := by
    intro digits
    by_cases hnil : digits = []
    · simp [hnil]
    · simp [hnil, Option.filter_eq_some_iff]
  constructor
  · intro h
    simp only [word?] at h
    split at h
    · next digits => exact ⟨['+'], digits, rfl, .inr rfl, (hdigits digits).1 h⟩
    · exact ⟨[], cs, rfl, .inl rfl, (hdigits cs).1 h⟩
  · rintro ⟨sign, digits, rfl, hsign, hne, hvalue, hfit⟩
    have hword := (hdigits digits).2 ⟨hne, hvalue, hfit⟩
    rcases hsign with rfl | rfl
    · simp only [word?, List.nil_append]
      split
      · -- The plus sign is no digit.
        exact absurd (by decide) (digitValue?_ne_none hvalue '+' (by simp))
      · exact hword
    · exact hword

end Numeral

namespace DumpText

/-- A text of digits spells the number that is read of it. -/
theorem spells_of_value? {n : Nat} {cs : List Char} (hne : cs ≠ [])
    (h : Numeral.value? 16 cs = some n) : Spells n cs := by
  induction cs using List.reverseRecOn generalizing n with
  | nil => exact absurd rfl hne
  | append_singleton cs c ih =>
    obtain ⟨m, d, hm, hd, hlt, rfl⟩ := (Numeral.value?_append_eq_some_iff cs).1 h
    have hc := Numeral.toLower_of_digitValue? hd
    cases cs with
    | nil =>
      obtain rfl : 0 = m := Option.some.inj hm
      exact ⟨0, by rw [Nat.mul_zero, Nat.zero_add, HexText.digits_of_lt hlt]; simp [hc]⟩
    | cons first rest =>
      obtain ⟨zeros, hzeros⟩ := ih (List.cons_ne_nil first rest) hm
      by_cases hzero : m = 0
      · -- All digits so far are zeros.
        subst hzero
        refine ⟨zeros + 1, ?_⟩
        rw [List.map_append, hzeros, HexText.digits_of_lt (by decide), Nat.mul_zero, Nat.zero_add,
          HexText.digits_of_lt hlt, List.replicate_succ', List.map_singleton, hc]
        rfl
      · refine ⟨zeros, ?_⟩
        rw [List.map_append, hzeros, HexText.digits_step hzero hlt, List.map_singleton, hc,
          List.append_assoc]

end DumpText

namespace HexDump

open DumpText (Spells)

/-- A token is an offset: hexadecimal digits of a number that 64 bits hold, perhaps with a plus
sign in front, and colons behind them. -/
def OffsetToken (token : List Char) (offset : Nat) : Prop :=
  ∃ sign digits colons, token = sign ++ digits ++ colons ∧ (sign = [] ∨ sign = ['+']) ∧
    Spells offset digits ∧ (∀ c ∈ colons, c = ':') ∧ offset < Numeral.wordLimit

/-- A token is an octet: two hexadecimal digits. -/
def OctetToken (token : List Char) (b : UInt8) : Prop := token.length = 2 ∧ Spells b.toNat token

/-- The octets at the start of the tokens: all of them up to one that is none, but sixteen at
most. -/
def LeadingOctets (tokens : List (List Char)) (octets : Bytes) : Prop :=
  ∃ taken rest, tokens = taken ++ rest ∧ List.Forall₂ OctetToken taken octets ∧
    octets.length ≤ 16 ∧ (octets.length = 16 ∨ ∀ token ∈ rest.head?, ∀ b, ¬ OctetToken token b)

theorem offset?_iff {token : List Char} {offset : Nat} :
    offset? token = some offset ↔ OffsetToken token offset := by
  rw [offset?, Numeral.word?_eq_some_iff]
  constructor
  · rintro ⟨sign, digits, hsplit, hsign, hne, hvalue, hfit⟩
    have hcolons : ∀ c ∈ (token.reverse.takeWhile (· = ':')).reverse, c = ':' := by
      intro c hc
      simpa using List.mem_takeWhile_imp (List.mem_reverse.1 hc)
    have htoken : token = sign ++ digits ++ (token.reverse.takeWhile (· = ':')).reverse := by
      rw [← hsplit, ← List.reverse_append, List.takeWhile_append_dropWhile, List.reverse_reverse]
    exact ⟨sign, digits, _, htoken, hsign, DumpText.spells_of_value? hne hvalue, hcolons, hfit⟩
  · rintro ⟨sign, digits, colons, rfl, hsign, hspells, hcolons, hfit⟩
    refine ⟨sign, digits, ?_, hsign, hspells.ne_nil, hspells.value?, hfit⟩
    have hcolon : ':' ∉ sign ++ digits := by
      rw [List.mem_append, not_or]
      refine ⟨?_, colon_not_mem_of_value? hspells.value?⟩
      rcases hsign with rfl | rfl <;> decide
    exact dropColons_append hcolon hcolons

theorem octet?_iff {token : List Char} {b : UInt8} :
    octet? token = some b ↔ OctetToken token b := by
  constructor
  · intro h
    unfold octet? at h
    split at h
    · next hi lo =>
      obtain ⟨n, hvalue, hn⟩ := Option.map_eq_some_iff.1 h
      obtain ⟨m, d, hm, -, hd, rfl⟩ := (Numeral.value?_append_eq_some_iff [hi]).1 hvalue
      obtain ⟨k, e, hk, -, he, rfl⟩ := (Numeral.value?_append_eq_some_iff []).1 hm
      obtain rfl : 0 = k := Option.some.inj hk
      have hbyte : b.toNat = 16 * (16 * 0 + e) + d := by
        rw [← hn, UInt8.toNat_ofNat']
        omega
      rw [← hbyte] at hvalue
      exact ⟨rfl, DumpText.spells_of_value? (List.cons_ne_nil hi [lo]) hvalue⟩
    · simp at h
  · rintro ⟨hlen, hspells⟩
    obtain ⟨hi, lo, rfl⟩ := List.length_eq_two.1 hlen
    exact octet?_of_value? hspells.value?

/-- Tokens begin with the octets that are read of them. -/
theorem exists_octets (tokens : List (List Char)) :
    ∃ taken rest octets, tokens = taken ++ rest ∧ List.Forall₂ OctetToken taken octets ∧
      ∀ token ∈ rest.head?, ∀ b, ¬ OctetToken token b := by
  induction tokens with
  | nil => exact ⟨[], [], [], rfl, .nil, by simp⟩
  | cons token tokens ih =>
    by_cases hoctet : ∃ b, OctetToken token b
    · obtain ⟨b, hb⟩ := hoctet
      obtain ⟨taken, rest, octets, rfl, htaken, hrest⟩ := ih
      exact ⟨token :: taken, rest, b :: octets, rfl, .cons hb htaken, hrest⟩
    · exact ⟨[], token :: tokens, [], rfl, .nil, by simpa using hoctet⟩

theorem map_octet? {taken : List (List Char)} {octets : Bytes}
    (h : List.Forall₂ OctetToken taken octets) : taken.map octet? = octets.map some := by
  induction h with
  | nil => rfl
  | cons hb _ ih => rw [List.map_cons, List.map_cons, octet?_iff.2 hb, ih]

theorem LeadingOctets.leadingOctets_eq {tokens : List (List Char)} {octets : Bytes}
    (h : LeadingOctets tokens octets) : leadingOctets (tokens.take maxOctets) = octets := by
  obtain ⟨taken, rest, rfl, htaken, hlen, hend⟩ := h
  have hcount := htaken.length_eq
  have hnone : leadingOctets (rest.take (16 - taken.length)) = [] := by
    rw [leadingOctets_eq_nil_iff]
    rcases hend with hfull | hother
    · rw [hcount, hfull, Nat.sub_self, List.take_zero]
      rfl
    · cases rest with
      | nil => simp
      | cons token rest =>
        rw [List.head?_take]
        split
        · rfl
        · rw [List.head?_cons, Option.bind_some, Option.eq_none_iff_forall_ne_some]
          intro b hb
          exact hother token rfl b (octet?_iff.1 hb)
  rw [maxOctets, List.take_append, List.take_of_length_le (by omega),
    leadingOctets_append (map_octet? htaken), hnone, List.append_nil]

theorem exists_leadingOctets (tokens : List (List Char)) :
    ∃ octets, LeadingOctets tokens octets := by
  obtain ⟨taken, rest, octets, hsplit, htaken, hrest⟩ := exists_octets (tokens.take 16)
  have hcount := htaken.length_eq
  have hlen := congrArg List.length hsplit
  rw [List.length_take, List.length_append] at hlen
  refine ⟨octets, taken, rest ++ tokens.drop 16, ?_, htaken, by omega, ?_⟩
  · rw [← List.append_assoc, ← hsplit, List.take_append_drop]
  · by_cases hfull : octets.length = 16
    · exact .inl hfull
    · refine .inr ?_
      cases rest with
      | nil =>
        -- Fewer than sixteen tokens, all of them octets.
        rw [List.length_nil] at hlen
        rw [List.drop_of_length_le (by omega)]
        simp
      | cons token rest => exact hrest

theorem leadingOctets_iff {tokens : List (List Char)} {octets : Bytes} :
    leadingOctets (tokens.take maxOctets) = octets ↔ LeadingOctets tokens octets := by
  constructor
  · rintro rfl
    obtain ⟨octets, h⟩ := exists_leadingOctets tokens
    rwa [h.leadingOctets_eq]
  · exact LeadingOctets.leadingOctets_eq

end HexDump

end Igmp
