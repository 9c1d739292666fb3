import Igmp.Proofs.HexListing

/-! # Hex dumps of rows of any length read back as their bytes

The lines of a dump give the rows of a division of the bytes, with blank lines among them. Every
row but the last one may have further text behind its octets. -/
namespace Igmp.DumpText

open Tokens (ofText isBlank Blank Apart Joined)
open HexDump (Reads leadingOctets)
open HexListing (Cells)

/-- The hexadecimal digits of a number, in either case and with any number of zeros in front. -/
def Spells (n : Nat) (cs : List Char) : Prop :=
  ∃ zeros, cs.map Char.toLower = List.replicate zeros '0' ++ HexText.digits n

/-- The text of a row that starts at an offset: the offset, then spaces and tabs, then the octets.
There may be a colon behind the offset. -/
structure RowText (start : Nat) (row : Bytes) where
  offset : List Char
  colon : List Char
  gap : List Char
  offset_spells : Spells start offset
  colon_eq : ∀ c ∈ colon, c = ':'
  gap_ne : gap ≠ []
  gap_eq : ∀ c ∈ gap, c = ' ' ∨ c = '\t'
  row_ne : row ≠ []
  row_length : row.length ≤ 16

/-- A space or tab and what follows it in the line, or nothing. -/
structure Trailing (cs : List Char) : Prop where
  head_eq : ∀ c ∈ cs.head?, c = ' ' ∨ c = '\t'
  newline_not_mem : '\n' ∉ cs

def RowText.chars {start : Nat} {row : Bytes} (t : RowText start row) : List Char :=
  (t.offset ++ t.colon) ++ (t.gap ++ (HexText.spaced row).toList)

/-- The lines hold the rows, of which the first one starts at the offset `start`. -/
inductive Dumps : Nat → List Bytes → List (List Char) → Prop where
  | blank {start : Nat} {rows : List Bytes} {line : List Char} {lines : List (List Char)}
      (hblank : Blank line) (hrest : Dumps start rows lines) : Dumps start rows (line :: lines)
  | last {start : Nat} {row : Bytes} (t : RowText start row) {lines : List (List Char)}
      (hblanks : ∀ line ∈ lines, Blank line) : Dumps start [row] (t.chars :: lines)
  | row {start : Nat} {row : Bytes} (t : RowText start row) {after : List Char}
      (hafter : Trailing after) {rows : List Bytes} {lines : List (List Char)}
      (hrest : Dumps (start + row.length) rows lines) :
      Dumps start (row :: rows) ((t.chars ++ after) :: lines)

theorem Spells.value? {n : Nat} {cs : List Char} (h : Spells n cs) :
    Numeral.value? 16 cs = some n := by
  obtain ⟨zeros, hcs⟩ := h
  rw [← Numeral.value?_map_toLower, hcs, Numeral.value?_zeros, HexText.value?_digits]

theorem Spells.ne_nil {n : Nat} {cs : List Char} (h : Spells n cs) : cs ≠ [] := by
  obtain ⟨zeros, hcs⟩ := h
  rintro rfl
  exact List.append_ne_nil_of_right_ne_nil _ (HexText.digits_ne_nil n) hcs.symm

theorem spells_digits (n : Nat) : Spells n (HexText.digits n) :=
  ⟨0, HexText.map_toLower_digits n⟩

theorem isBlank_of_eq {c : Char} (h : c = ' ' ∨ c = '\t') : isBlank c = true ∧ c ≠ '\n' := by
  rcases h with rfl | rfl <;> decide

theorem Trailing.apart {cs : List Char} (h : Trailing cs) : Apart cs :=
  fun c hc => (isBlank_of_eq (h.head_eq c hc)).1

namespace RowText

variable {start : Nat} {row : Bytes} (t : RowText start row)

theorem cells : Cells row (t.gap ++ (HexText.spaced row).toList) := by
  have hgap : Blank t.gap := fun c hc => isBlank_of_eq (t.gap_eq c hc)
  obtain ⟨b, row', rfl⟩ := List.exists_cons_of_ne_nil t.row_ne
  rw [HexText.toList_spaced_cons]
  exact .cons hgap t.gap_ne (HexText.value?_byte b) (HexListing.cells_flatMap row')

theorem isBlank_word : ∀ c ∈ t.offset ++ t.colon, isBlank c = false := by
  intro c hc
  rcases List.mem_append.1 hc with hc | hc
  · exact Tokens.isBlank_of_value? t.offset_spells.value? c hc
  · rw [t.colon_eq c hc]
    decide

theorem newline_not_mem : '\n' ∉ t.chars := by
  rw [chars, List.mem_append, not_or]
  refine ⟨fun hc => ?_, t.cells.newline_not_mem⟩
  exact absurd (t.isBlank_word _ hc) (by decide)

/-- The line of a row has the octets of the row, and those that the text behind it begins with. -/
theorem reads (hfit : start < Numeral.wordLimit) {after : List Char} (hafter : Apart after) :
    Reads (ofText (t.chars ++ after)) start
      (row ++ leadingOctets ((ofText after).take (16 - row.length))) := by
  have hword : t.offset ++ t.colon ≠ [] :=
    List.append_ne_nil_of_left_ne_nil t.offset_spells.ne_nil _
  rw [chars, List.append_assoc]
  exact t.cells.reads t.row_length hword t.isBlank_word
    (HexDump.offset?_append_colons t.offset_spells.ne_nil t.offset_spells.value? hfit t.colon_eq)
    hafter

/-- A row in its shortest text. -/
def short (start : Nat) (row : Bytes) (hne : row ≠ []) (hlen : row.length ≤ 16) :
    RowText start row where
  offset := HexText.digits start
  colon := []
  gap := [' ']
  offset_spells := spells_digits start
  colon_eq := List.forall_mem_nil _
  gap_ne := List.cons_ne_nil _ _
  gap_eq := by simp
  row_ne := hne
  row_length := hlen

end RowText

namespace Dumps

variable {start : Nat} {rows : List Bytes} {lines : List (List Char)}

theorem newline_not_mem (h : Dumps start rows lines) : ∀ line ∈ lines, '\n' ∉ line := by
  induction h with
  | blank hblank _ ih => exact List.forall_mem_cons.2 ⟨hblank.newline_not_mem, ih⟩
  | last t hblanks =>
    exact List.forall_mem_cons.2
      ⟨t.newline_not_mem, fun line hline => (hblanks line hline).newline_not_mem⟩
  | row t hafter _ ih =>
    refine List.forall_mem_cons.2 ⟨?_, ih⟩
    rw [List.mem_append, not_or]
    exact ⟨t.newline_not_mem, hafter.newline_not_mem⟩

theorem flatten_ne_nil (h : Dumps start rows lines) : rows.flatten ≠ [] := by
  induction h with
  | blank _ _ ih => exact ih
  | last t _ => simpa using t.row_ne
  | row t _ _ _ =>
    rw [List.flatten_cons]
    exact List.append_ne_nil_of_left_ne_nil t.row_ne _

/-- There are lines that hold the rows of every division. -/
theorem exists_dumps_iff {start : Nat} {rows : List Bytes} :
    (∃ lines, Dumps start rows lines) ↔ rows ≠ [] ∧ ∀ row ∈ rows, row ≠ [] ∧ row.length ≤ 16 := by
  constructor
  · rintro ⟨lines, h⟩
    induction h with
    | blank _ _ ih => exact ih
    | last t _ => exact ⟨List.cons_ne_nil _ _, by simpa using ⟨t.row_ne, t.row_length⟩⟩
    | row t _ _ ih =>
      exact ⟨List.cons_ne_nil _ _, List.forall_mem_cons.2 ⟨⟨t.row_ne, t.row_length⟩, ih.2⟩⟩
  · rintro ⟨hne, hrows⟩
    induction rows generalizing start with
    | nil => exact absurd rfl hne
    | cons row rows ih =>
      obtain ⟨⟨hrow, hlen⟩, hrows⟩ := List.forall_mem_cons.1 hrows
      let t := RowText.short start row hrow hlen
      cases rows with
      | nil => exact ⟨[t.chars], .last t (List.forall_mem_nil _)⟩
      | cons next rows =>
        obtain ⟨lines, hlines⟩ := ih (List.cons_ne_nil _ _) hrows
        have hnothing : Trailing [] := ⟨by simp, List.not_mem_nil⟩
        exact ⟨(t.chars ++ []) :: lines, .row t hnothing hlines⟩

/-- The rows of the lines follow each other. Each is cut where the next one starts, so that the
text behind it counts for nothing, and behind the last one there is no text. -/
theorem exists_rows (h : Dumps start rows lines)
    (hfit : start + rows.flatten.length ≤ Numeral.wordLimit) (n : Nat) :
    ∃ row rest, HexDump.rowsFrom n (lines.map ofText) = .ok (row :: rest) ∧ row.offset = start ∧
      HexDump.join (row :: rest) = .ok rows.flatten := by
  induction h generalizing n with
  | blank hblank _ ih =>
    rw [List.map_cons, hblank.ofText_eq_nil, HexDump.rowsFrom_nil_cons]
    exact ih hfit (n + 1)
  | @last start row t lines hblanks =>
    have hpos := List.length_pos_iff.2 t.row_ne
    have hapart : Apart [] := by simp [Apart]
    have hread := t.reads (by simp at hfit; omega) hapart
    rw [List.append_nil, Tokens.ofText_nil, List.take_nil, leadingOctets, List.append_nil] at hread
    have hnone := Tokens.ofText_eq_nil_of_blank hblanks
    refine ⟨_, _, hread.rowsFrom_cons (HexDump.rowsFrom_blank hnone), rfl, ?_⟩
    simp [HexDump.join]
  | @row start row t after hafter rows lines hrest ih =>
    have hpos := List.length_pos_iff.2 t.row_ne
    rw [List.flatten_cons, List.length_append] at hfit
    have hread := t.reads (by omega) hafter.apart
    obtain ⟨next, more, hrows, hoffset, hjoin⟩ := ih (by omega) (n + 1)
    refine ⟨_, _, hread.rowsFrom_cons hrows, rfl, ?_⟩
    rw [HexDump.join_cons hoffset hpos (by rw [List.length_append]; omega) hjoin,
      List.take_left' rfl, List.flatten_cons]

end Dumps

/-- Whatever the division of the bytes into rows, and however the rows are written and their lines
joined, the bytes are read back. -/
theorem read_dump {rows : List Bytes} {lines : List (List Char)} {text : List Char}
    (h : Dumps 0 rows lines) (hjoined : Joined lines text)
    (hfit : rows.flatten.length ≤ Numeral.wordLimit) :
    HexDump.read (String.ofList text) = .ok rows.flatten := by
  obtain ⟨row, rest, hrows, hzero, hjoin⟩ := h.exists_rows (by omega) 1
  refine HexDump.read_eq_ok ?_ hzero hjoin h.flatten_ne_nil
  rw [HexDump.rows_ofList, hjoined.map_ofText h.newline_not_mem, hrows]

/-- Two rows that are not full, text that looks like an octet behind the first one, and both ways
to end a line. -/
theorem read_dump_uneven :
    let rows : List Bytes := [[0x11, 0x64], [0xee]]
    let lines := ["".toList, "00:\t11 64 ab".toList, "2  ee".toList, " ".toList]
    let text := "\r\n00:\t11 64 ab\n2  ee\r\n "
    Dumps 0 rows lines ∧ Joined lines text.toList ∧
      rows.flatten.length ≤ Numeral.wordLimit ∧ HexDump.read text = .ok rows.flatten := by
  intro rows lines text
  have hzero : Spells 0 ['0', '0'] := ⟨1, by rw [HexText.digits, if_pos (by decide)]; decide⟩
  have htwo : Spells 2 ['2'] := ⟨0, by rw [HexText.digits, if_pos (by decide)]; decide⟩
  let first : RowText 0 [0x11, 0x64] :=
    { offset := ['0', '0'], colon := [':'], gap := ['\t'], offset_spells := hzero,
      colon_eq := by simp, gap_ne := by simp, gap_eq := by simp, row_ne := by simp,
      row_length := by decide }
  let second : RowText 2 [0xee] :=
    { offset := ['2'], colon := [], gap := [' ', ' '], offset_spells := htwo,
      colon_eq := by simp, gap_ne := by simp, gap_eq := by simp, row_ne := by simp,
      row_length := by decide }
  have hafter : Trailing " ab".toList := ⟨by simp, by decide⟩
  have hdumps : Dumps 0 rows lines :=
    .blank (by decide) (.row first hafter (.last second (by decide)))
  have hjoined : Joined lines text.toList := by
    unfold lines text
    exact .crlf (.lf (.crlf (.last _)))
  have hfit : rows.flatten.length ≤ Numeral.wordLimit := by decide
  have hread := read_dump hdumps hjoined hfit
  rw [String.ofList_toList] at hread
  exact ⟨hdumps, hjoined, hfit, hread⟩

end Igmp.DumpText
