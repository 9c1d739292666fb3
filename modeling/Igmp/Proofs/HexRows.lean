import Igmp.HexDump
import Igmp.Proofs.TokenText

/-! # The rows of a hex dump, read line by line -/
namespace Igmp.HexDump

open Tokens (ofText)

theorem octet?_of_value? {hi lo : Char} {b : UInt8}
    (h : Numeral.value? 16 [hi, lo] = some b.toNat) : octet? [hi, lo] = some b := by
  rw [octet?, h, Option.map_some, UInt8.ofNat_toNat]

/-- Octets are read up to where other text follows them. -/
theorem leadingOctets_append {tokens : List (List Char)} {row : Bytes}
    (h : tokens.map octet? = row.map some) (rest : List (List Char)) :
    leadingOctets (tokens ++ rest) = row ++ leadingOctets rest := by
  induction tokens generalizing row with
  | nil =>
    obtain rfl : row = [] := by simpa using h.symm
    rfl
  | cons token tokens ih =>
    obtain ⟨b, row, rfl⟩ : ∃ b row', row = b :: row' := by
      cases row with
      | nil => simp at h
      | cons b row => exact ⟨b, row, rfl⟩
    obtain ⟨htoken, htokens⟩ := List.cons.inj h
    rw [List.cons_append, leadingOctets, htoken]
    exact congrArg (b :: ·) (ih htokens)

theorem leadingOctets_eq_nil_iff {tokens : List (List Char)} :
    leadingOctets tokens = [] ↔ tokens.head?.bind octet? = none := by
  cases tokens with
  | nil => simp [leadingOctets]
  | cons token tokens =>
    rw [leadingOctets]
    cases h : octet? token <;> simp [h]

/-- Colons are taken off the end of a token, and nothing before them. -/
theorem dropColons_append {cs colons : List Char} (hcs : ':' ∉ cs)
    (hcolons : ∀ c ∈ colons, c = ':') :
    ((cs ++ colons).reverse.dropWhile (· = ':')).reverse = cs := by
  rw [List.reverse_append, List.dropWhile_append_of_pos]
  · cases hrev : cs.reverse with
    | nil => exact (List.reverse_eq_nil_iff.1 hrev).symm
    | cons c rest =>
      have hc : c ∈ cs := List.mem_reverse.1 (by simp [hrev])
      rw [List.dropWhile_cons_of_neg, ← hrev, List.reverse_reverse]
      rw [decide_eq_true_iff]
      rintro rfl
      exact hcs hc
  · intro c hc
    exact decide_eq_true (hcolons c (List.mem_reverse.1 hc))

theorem colon_not_mem_of_value? {digits : List Char} {n : Nat}
    (h : Numeral.value? 16 digits = some n) : ':' ∉ digits :=
  fun hc => Numeral.digitValue?_ne_none h ':' hc (by decide)

/-- The digits of an offset that 64 bits hold, with any number of colons behind them. -/
theorem offset?_append_colons {digits colons : List Char} {n : Nat} (hne : digits ≠ [])
    (h : Numeral.value? 16 digits = some n) (hn : n < Numeral.wordLimit)
    (hcolons : ∀ c ∈ colons, c = ':') : offset? (digits ++ colons) = some n := by
  rw [offset?, dropColons_append (colon_not_mem_of_value? h) hcolons, Numeral.word?, if_neg hne, h,
    Option.filter_some, if_pos (decide_eq_true hn)]
  rintro rest rfl
  exact Numeral.digitValue?_ne_none h '+' (by simp) (by decide)

theorem offset?_of_value? {digits : List Char} {n : Nat} (hne : digits ≠ [])
    (h : Numeral.value? 16 digits = some n) (hn : n < Numeral.wordLimit) :
    offset? digits = some n := by
  have hcolons := offset?_append_colons hne h hn (List.forall_mem_nil _)
  rwa [List.append_nil] at hcolons

/-- The rows of the lines from a number on; each line is given by its tokens. -/
def rowsFrom (n : Nat) (lines : List (List (List Char))) : Except HexDumpError (List Row) :=
  ((lines.zipIdx n).filter (·.1 ≠ [])).mapM fun (tokens, line) => Row.read line tokens

theorem rows_ofList (cs : List Char) :
    rows (String.ofList cs) = rowsFrom 1 ((Tokens.lines cs).map ofText) := by
  rw [rows, String.toList_ofList, rowsFrom]

theorem rows_of_lines {ls : List (List Char)} (hne : ls ≠ []) (h : ∀ l ∈ ls, '\n' ∉ l) :
    rows (String.ofList (['\n'].intercalate ls)) = rowsFrom 1 (ls.map ofText) := by
  rw [rows_ofList, Tokens.lines_intercalate hne h]

/-- A line of these tokens has the offset and the octets, whichever its number. -/
def Reads (tokens : List (List Char)) (offset : Nat) (octets : Bytes) : Prop :=
  tokens ≠ [] ∧ ∀ line, Row.read line tokens = .ok ⟨line, offset, octets⟩

theorem Reads.rowsFrom_cons {tokens : List (List Char)} {offset : Nat} {octets : Bytes}
    (h : Reads tokens offset octets) {n : Nat} {lines : List (List (List Char))}
    {rest : List Row} (hrest : rowsFrom (n + 1) lines = .ok rest) :
    rowsFrom n (tokens :: lines) = .ok (⟨n, offset, octets⟩ :: rest) := by
  rw [rowsFrom] at hrest
  rw [rowsFrom, List.zipIdx_cons, List.filter_cons_of_pos (by simp [h.1]), List.mapM_cons, hrest]
  simp only [h.2, bind, Except.bind, pure, Except.pure]

/-- A line without tokens gives no row, and is counted all the same. -/
theorem rowsFrom_nil_cons (n : Nat) (lines : List (List (List Char))) :
    rowsFrom n ([] :: lines) = rowsFrom (n + 1) lines := by
  rw [rowsFrom, rowsFrom, List.zipIdx_cons, List.filter_cons_of_neg (by simp)]

theorem rowsFrom_blank {n : Nat} {lines : List (List (List Char))} (h : ∀ l ∈ lines, l = []) :
    rowsFrom n lines = .ok [] := by
  rw [rowsFrom, List.filter_eq_nil_iff.2]
  · rfl
  · intro p hp
    simp [h p.1 (List.fst_mem_of_mem_zipIdx hp)]

/-- A row gives as many octets as the next one tells, however many there are on its line. -/
theorem join_cons {row next : Row} {rest : List Row} {bytes : Bytes} {count : Nat}
    (hnext : next.offset = row.offset + count) (hpos : 0 < count)
    (hlen : count ≤ row.octets.length) (hrest : join (next :: rest) = .ok bytes) :
    join (row :: next :: rest) = .ok (row.octets.take count ++ bytes) := by
  rw [join, hnext, Nat.add_sub_cancel_left, if_neg (by omega), if_neg (by omega), hrest]
  rfl

/-- The reading of a text whose rows start at zero and follow each other. -/
theorem read_eq_ok {text : String} {row : Row} {rest : List Row} {bytes : Bytes}
    (hrows : rows text = .ok (row :: rest)) (hzero : row.offset = 0)
    (hjoin : join (row :: rest) = .ok bytes) (hne : bytes ≠ []) : read text = .ok bytes := by
  rw [read, hrows]
  simp only [bind, Except.bind, startsAtZero, hzero, hjoin, if_pos, if_neg hne]

end Igmp.HexDump
