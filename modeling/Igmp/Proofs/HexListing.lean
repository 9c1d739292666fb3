import Igmp.Proofs.HexRows

/-! # Hex dumps with and without the column of characters

A listing of bytes has a line for every sixteen of them: the offset, the bytes in digits and the
bytes as characters. What a reader takes of the characters depends on the last line alone. -/
namespace Igmp.HexListing

open Tokens (ofText isBlank Blank Apart)
open HexDump (Reads leadingOctets octet?)

/-- A byte as a character, with a dot for what cannot be printed. -/
def glyph (b : UInt8) : Char := if 0x20 ≤ b ∧ b ≤ 0x7e then Char.ofNat b.toNat else '.'

/-- The text of bytes in two digits each, with blanks in front of each of them. -/
inductive Cells : Bytes → List Char → Prop where
  | nil : Cells [] []
  | cons {gap cells : List Char} {hi lo : Char} {b : UInt8} {row : Bytes} (hgap : Blank gap)
      (hne : gap ≠ []) (hvalue : Numeral.value? 16 [hi, lo] = some b.toNat)
      (hcells : Cells row cells) : Cells (b :: row) (gap ++ hi :: lo :: cells)

/-- The parts of a line; the gap stands between the digits and the characters. -/
structure Line where
  offset : List Char
  cells : List Char
  gap : List Char
  column : List Char
  ending : List Char
  deriving DecidableEq

namespace Line

/-- The line as it is written. -/
def full (l : Line) : List Char := l.offset ++ (l.cells ++ (l.gap ++ (l.column ++ l.ending)))

/-- The line without its column of characters. -/
def bare (l : Line) : List Char := full { l with column := [] }

/-- The line shows these bytes, of which the first one is at the offset `start`. -/
structure Shows (l : Line) (start : Nat) (row : Bytes) : Prop where
  wide : 4 ≤ l.offset.length
  offset_eq : Numeral.value? 16 l.offset = some start
  cells_eq : Cells row l.cells
  gap_blank : Blank l.gap
  gap_ne : l.gap ≠ []
  column_eq : l.column = row.map glyph
  ending_blank : Blank l.ending

end Line

/-- The lines show the bytes from an offset on, sixteen to a line but for the last one. -/
inductive Lists : Nat → Bytes → List Line → Prop where
  | last {start : Nat} {row : Bytes} {l : Line} (hshows : l.Shows start row) (hne : row ≠ [])
      (hlen : row.length ≤ 16) : Lists start row [l]
  | row {start : Nat} {row rest : Bytes} {l : Line} {lines : List Line}
      (hshows : l.Shows start row) (hlen : row.length = 16)
      (hrest : Lists (start + 16) rest lines) : Lists start (row ++ rest) (l :: lines)

/-- Lines with line feeds between them. -/
def text (lines : List (List Char)) : String := String.ofList (['\n'].intercalate lines)

/-- The bytes on the last line of a listing. -/
def lastRow (bs : Bytes) : Bytes := bs.drop (16 * ((bs.length - 1) / 16))

/-- What a reader takes for octets of the characters of a line: the tokens of two digits that the
characters begin with, as long as there are no more than sixteen octets in all. -/
def spill (row : Bytes) : Bytes :=
  leadingOctets ((ofText (row.map glyph)).take (16 - row.length))

theorem glyph_ne_newline (b : UInt8) : glyph b ≠ '\n' := by
  have hall : ∀ n < 127, Char.ofNat n = '\n' → n = 10 := by decide
  rw [glyph]
  split
  · next hprint =>
    intro he
    have hlow : 32 ≤ b.toNat := UInt8.le_iff_toNat_le.1 hprint.1
    have hhigh : b.toNat ≤ 126 := UInt8.le_iff_toNat_le.1 hprint.2
    have hten : b.toNat = 10 := hall _ (by omega) he
    omega
  · decide

theorem Cells.newline_not_mem {row : Bytes} {cells : List Char} (h : Cells row cells) :
    '\n' ∉ cells := by
  induction h with
  | nil => exact List.not_mem_nil
  | cons hgap _ hvalue _ ih =>
    have hdigits := Tokens.newline_not_mem_of_value? hvalue
    simp only [List.mem_append, List.mem_cons, List.not_mem_nil, or_false, not_or] at hdigits ⊢
    exact ⟨hgap.newline_not_mem, hdigits.1, hdigits.2, ih⟩

/-- The tokens of a word with cells behind it. -/
theorem Cells.exists_ofText {row : Bytes} {cells : List Char} (h : Cells row cells)
    {word : List Char} (hne : word ≠ []) (hword : ∀ c ∈ word, isBlank c = false)
    {tail : List Char} (htail : Apart tail) :
    ∃ octets : List (List Char), octets.map octet? = row.map some ∧
      ofText (word ++ (cells ++ tail)) = word :: (octets ++ ofText tail) := by
  induction h generalizing word with
  | nil =>
    refine ⟨[], rfl, ?_⟩
    rw [List.nil_append, htail.ofText_append, Tokens.ofText_word hne hword]
    rfl
  | @cons gap cells hi lo b row hgap hgapne hvalue _ ih =>
    obtain ⟨octets, hoctets, htokens⟩ := ih (List.cons_ne_nil hi [lo])
      (Tokens.isBlank_of_value? hvalue)
    refine ⟨[hi, lo] :: octets, ?_, ?_⟩
    · rw [List.map_cons, List.map_cons, HexDump.octet?_of_value? hvalue, hoctets]
    · have hsplit : gap ++ hi :: lo :: cells ++ tail = gap ++ ([hi, lo] ++ (cells ++ tail)) := by
        simp
      rw [hsplit, (hgap.apart_append hgapne _).ofText_append, hgap.ofText_append, htokens,
        Tokens.ofText_word hne hword]
      rfl

/-- A line of an offset and cells has the octets of its row, and those that the tokens behind them
begin with. -/
theorem Cells.reads {row : Bytes} {cells : List Char} (h : Cells row cells)
    (hlen : row.length ≤ 16) {word : List Char} (hne : word ≠ [])
    (hword : ∀ c ∈ word, isBlank c = false) {start : Nat} (hstart : HexDump.offset? word = some start)
    {tail : List Char} (htail : Apart tail) :
    Reads (ofText (word ++ (cells ++ tail))) start
      (row ++ leadingOctets ((ofText tail).take (16 - row.length))) := by
  obtain ⟨octets, hoctets, htokens⟩ := h.exists_ofText hne hword htail
  have hcount : octets.length = row.length := by simpa using congrArg List.length hoctets
  rw [htokens]
  refine ⟨List.cons_ne_nil _ _, fun n => ?_⟩
  rw [HexDump.Row.read, List.headD_cons, hstart, List.tail_cons, HexDump.maxOctets,
    List.take_append, hcount, List.take_of_length_le (by omega),
    HexDump.leadingOctets_append hoctets]

section Shows

variable {l : Line} {start : Nat} {row : Bytes}

theorem Line.Shows.offset_ne_nil (h : l.Shows start row) : l.offset ≠ [] := by
  intro hnil
  have hwide := h.wide
  rw [hnil] at hwide
  exact absurd hwide (by decide)

/-- Whatever stands in the column, a line has the octets of its row, and those that the column
begins with. -/
theorem Line.Shows.reads_column (h : l.Shows start row) (hlen : row.length ≤ 16)
    (hfit : start < Numeral.wordLimit) (column : List Char) :
    Reads (ofText (full { l with column := column })) start
      (row ++ leadingOctets ((ofText column).take (16 - row.length))) := by
  have hreads := h.cells_eq.reads hlen h.offset_ne_nil (Tokens.isBlank_of_value? h.offset_eq)
    (HexDump.offset?_of_value? h.offset_ne_nil h.offset_eq hfit)
    (h.gap_blank.apart_append h.gap_ne (column ++ l.ending))
  rwa [h.gap_blank.ofText_append, h.ending_blank.apart.ofText_append, h.ending_blank.ofText_eq_nil,
    List.append_nil] at hreads

theorem Line.Shows.newline_not_mem_column (h : l.Shows start row) {column : List Char}
    (hcolumn : '\n' ∉ column) : '\n' ∉ full { l with column := column } := by
  simp only [full, List.mem_append, not_or]
  exact ⟨Tokens.newline_not_mem_of_value? h.offset_eq, h.cells_eq.newline_not_mem,
    h.gap_blank.newline_not_mem, hcolumn, h.ending_blank.newline_not_mem⟩

end Shows

theorem Lists.ne_nil {start : Nat} {bs : Bytes} {lines : List Line} (h : Lists start bs lines) :
    bs ≠ [] := by
  induction h with
  | last _ hne _ => exact hne
  | row _ _ _ ih => exact List.append_ne_nil_of_right_ne_nil _ ih

theorem Lists.lines_ne_nil {start : Nat} {bs : Bytes} {lines : List Line}
    (h : Lists start bs lines) : lines ≠ [] := by
  cases h <;> exact List.cons_ne_nil _ _

theorem lastRow_of_length_le {bs : Bytes} (h : bs.length ≤ 16) : lastRow bs = bs := by
  rw [lastRow, Nat.div_eq_of_lt (by omega), Nat.mul_zero, List.drop_zero]

theorem lastRow_append {row rest : Bytes} (h : row.length = 16) (hne : rest ≠ []) :
    lastRow (row ++ rest) = lastRow rest := by
  have hpos := List.length_pos_iff.2 hne
  have hstart : 16 * (((row ++ rest).length - 1) / 16) =
      row.length + 16 * ((rest.length - 1) / 16) := by
    rw [List.length_append]
    omega
  rw [lastRow, lastRow, hstart, List.drop_length_add_append]

theorem length_lastRow_eq_iff {bs : Bytes} (hne : bs ≠ []) :
    (lastRow bs).length = 16 ↔ 16 ∣ bs.length := by
  have hpos := List.length_pos_iff.2 hne
  rw [lastRow, List.length_drop]
  omega

theorem Lists.exists_shows {start : Nat} {bs : Bytes} {lines : List Line}
    (h : Lists start bs lines) : ∀ l ∈ lines, ∃ offset row, l.Shows offset row := by
  induction h with
  | last hshows _ _ =>
    intro l hl
    obtain rfl := List.mem_singleton.1 hl
    exact ⟨_, _, hshows⟩
  | row hshows _ _ ih =>
    intro l hl
    rcases List.mem_cons.1 hl with rfl | hl
    · exact ⟨_, _, hshows⟩
    · exact ih l hl

/-- A way to write lines, and the octets that it adds to those of a row. -/
structure Writes (write : Line → List Char) (extra : Bytes → Bytes) : Prop where
  reads : ∀ {l : Line} {start : Nat} {row : Bytes}, l.Shows start row → row.length ≤ 16 →
    start < Numeral.wordLimit → Reads (ofText (write l)) start (row ++ extra row)
  newline_not_mem : ∀ {l : Line} {start : Nat} {row : Bytes}, l.Shows start row → '\n' ∉ write l

theorem writes_full : Writes Line.full spill where
  reads hshows hlen hfit := by
    rw [spill, ← hshows.column_eq]
    exact hshows.reads_column hlen hfit _
  newline_not_mem hshows := by
    apply hshows.newline_not_mem_column
    rw [hshows.column_eq]
    intro hc
    obtain ⟨b, -, hb⟩ := List.mem_map.1 hc
    exact glyph_ne_newline b hb

theorem writes_bare : Writes Line.bare fun _ => [] where
  reads hshows hlen hfit := by
    have hreads := hshows.reads_column hlen hfit []
    rwa [Tokens.ofText_nil, List.take_nil] at hreads
  newline_not_mem hshows := hshows.newline_not_mem_column List.not_mem_nil

section Run

variable {write : Line → List Char} {extra : Bytes → Bytes}

/-- The lines of a listing have rows that follow each other. Every row but the last one is cut
where the next one starts, so that only the last line can add to the octets. -/
theorem Lists.exists_rows (hw : Writes write extra) {start : Nat} {bs : Bytes}
    {lines : List Line} (h : Lists start bs lines)
    (hfit : start + bs.length ≤ Numeral.wordLimit) {blanks : List (List (List Char))}
    (hblanks : ∀ l ∈ blanks, l = []) (n : Nat) :
    ∃ row rest, HexDump.rowsFrom n (lines.map (fun l => ofText (write l)) ++ blanks) =
        .ok (row :: rest) ∧ row.offset = start ∧
      HexDump.join (row :: rest) = .ok (bs ++ extra (lastRow bs)) := by
  induction h generalizing n with
  | @last start row l hshows hne hlen =>
    have hpos := List.length_pos_iff.2 hne
    have hread := hw.reads hshows hlen (by omega)
    refine ⟨_, _, hread.rowsFrom_cons (HexDump.rowsFrom_blank hblanks), rfl, ?_⟩
    rw [HexDump.join, lastRow_of_length_le hlen]
  | @row start row rest l lines hshows hlen hrest ih =>
    have hpos := List.length_pos_iff.2 hrest.ne_nil
    rw [List.length_append] at hfit
    have hread := hw.reads hshows (by omega) (by omega)
    obtain ⟨next, more, hrows, hoffset, hjoin⟩ := ih (by omega) (n + 1)
    refine ⟨_, _, hread.rowsFrom_cons hrows, rfl, ?_⟩
    rw [HexDump.join_cons hoffset (by omega) (by rw [List.length_append]; omega) hjoin,
      List.take_left' hlen, lastRow_append hlen hrest.ne_nil, List.append_assoc]

/-- A reader of a listing gets the bytes, and what the last line adds to them. -/
theorem Lists.read_eq (hw : Writes write extra) {bs : Bytes} {lines : List Line}
    (h : Lists 0 bs lines) (hfit : bs.length ≤ Numeral.wordLimit) {blanks : List (List Char)}
    (hblanks : ∀ l ∈ blanks, Blank l) :
    HexDump.read (text (lines.map write ++ blanks)) = .ok (bs ++ extra (lastRow bs)) := by
  have hempty := Tokens.ofText_eq_nil_of_blank hblanks
  obtain ⟨row, rest, hrows, hzero, hjoin⟩ := h.exists_rows hw (by omega) hempty 1
  refine HexDump.read_eq_ok ?_ hzero hjoin (List.append_ne_nil_of_left_ne_nil h.ne_nil _)
  rw [text, HexDump.rows_of_lines, List.map_append, List.map_map]
  · exact hrows
  · simp [h.lines_ne_nil]
  · intro cs hcs
    rcases List.mem_append.1 hcs with hcs | hcs
    · obtain ⟨l, hl, rfl⟩ := List.mem_map.1 hcs
      obtain ⟨_, _, hshows⟩ := h.exists_shows l hl
      exact hw.newline_not_mem hshows
    · exact (hblanks cs hcs).newline_not_mem

end Run

theorem length_lastRow_le (bs : Bytes) : (lastRow bs).length ≤ 16 := by
  rw [lastRow, List.length_drop]
  omega

theorem spill_eq_nil_iff {row : Bytes} (hlen : row.length ≤ 16) :
    spill row = [] ↔
      row.length = 16 ∨ (ofText (row.map glyph)).head?.bind octet? = none := by
  rw [spill]
  by_cases hfull : row.length = 16
  · simp [hfull, leadingOctets]
  · rw [HexDump.leadingOctets_eq_nil_iff, List.head?_take, if_neg (by omega)]
    simp [hfull]

theorem cells_flatMap (row : Bytes) : Cells row (row.flatMap fun b => ' ' :: HexText.byte b) := by
  induction row with
  | nil => exact .nil
  | cons b row ih =>
    have hspace : Blank [' '] := by decide
    exact .cons hspace (List.cons_ne_nil _ _) (HexText.value?_byte b) ih

theorem Cells.indent {row : Bytes} {cells : List Char} (h : Cells row cells) (hne : row ≠ [])
    {more : List Char} (hmore : Blank more) : Cells row (more ++ cells) := by
  cases h with
  | nil => exact absurd rfl hne
  | cons hgap hgapne hvalue hcells =>
    rw [← List.append_assoc]
    exact .cons (hmore.append hgap) (List.append_ne_nil_of_right_ne_nil _ hgapne) hvalue hcells

/-- The line of a row, with the column of characters below that of full rows. -/
def Line.ofRow (start : Nat) (row : Bytes) : Line where
  offset := List.replicate (4 - (HexText.digits start).length) '0' ++ HexText.digits start
  cells := [' ', ' '] ++ row.flatMap fun b => ' ' :: HexText.byte b
  gap := List.replicate (3 * (16 - row.length) + 3) ' '
  column := row.map glyph
  ending := []

theorem Line.shows_ofRow (start : Nat) {row : Bytes} (hne : row ≠ []) :
    (Line.ofRow start row).Shows start row where
  wide := by
    rw [Line.ofRow, List.length_append, List.length_replicate]
    omega
  offset_eq := by
    rw [Line.ofRow, Numeral.value?_zeros, HexText.value?_digits]
  cells_eq := (cells_flatMap row).indent hne (by decide)
  gap_blank := Tokens.blank_replicate _
  gap_ne := by simp [Line.ofRow]
  column_eq := rfl
  ending_blank := by simp [Line.ofRow, Blank]

/-- The lines of the bytes from an offset on. -/
def listing (start : Nat) (bs : Bytes) : List Line :=
  if bs.length ≤ 16 then [Line.ofRow start bs]
  else Line.ofRow start (bs.take 16) :: listing (start + 16) (bs.drop 16)
termination_by bs.length
decreasing_by
  rw [List.length_drop]
  omega

/-- Whatever the bytes, there are lines that show them. -/
theorem lists_listing (start : Nat) {bs : Bytes} (hne : bs ≠ []) :
    Lists start bs (listing start bs) := by
  fun_induction listing start bs with
  | case1 start bs hlen => exact .last (Line.shows_ofRow start hne) hne hlen
  | case2 start bs hlen ih =>
    have htake : (bs.take 16).length = 16 := by
      rw [List.length_take]
      omega
    have hrest : bs.drop 16 ≠ [] := by
      rw [ne_eq, List.drop_eq_nil_iff]
      exact hlen
    have hlists := Lists.row (Line.shows_ofRow start (List.ne_nil_of_length_pos (by omega))) htake
      (ih hrest)
    rwa [List.take_append_drop] at hlists

/-- Without the column of characters a listing reads as its bytes. With the column it does so too
where the last line is full, or where the characters of the last line do not begin with two
digits that stand by themselves; else those digits, and such that follow them, are read as
further bytes. -/
theorem read_listing {bs : Bytes} {lines : List Line} (h : Lists 0 bs lines)
    (hfit : bs.length ≤ Numeral.wordLimit) {blanks : List (List Char)}
    (hblanks : ∀ l ∈ blanks, Blank l) :
    HexDump.read (text (lines.map Line.bare ++ blanks)) = .ok bs ∧
      HexDump.read (text (lines.map Line.full ++ blanks)) = .ok (bs ++ spill (lastRow bs)) ∧
      (HexDump.read (text (lines.map Line.full ++ blanks)) = .ok bs ↔
        16 ∣ bs.length ∨ (ofText ((lastRow bs).map glyph)).head?.bind octet? = none) := by
  have hbare := h.read_eq writes_bare hfit hblanks
  have hfull := h.read_eq writes_full hfit hblanks
  rw [List.append_nil] at hbare
  refine ⟨hbare, hfull, ?_⟩
  rw [hfull, Except.ok.injEq, List.append_right_eq_self, spill_eq_nil_iff (length_lastRow_le bs),
    length_lastRow_eq_iff h.ne_nil]

theorem read_listing_spill :
    let bs : Bytes := [0x11, 0x64, 0xee, 0x9b, 0, 0, 0, 0, 0x61, 0x62, 0x20, 0x63, 0x64, 0, 0, 0,
      0x20, 0x64, 0x65, 0x20]
    Lists 0 bs (listing 0 bs) ∧ bs.length ≤ Numeral.wordLimit ∧ (∀ l ∈ [[]], Blank l) ∧
      HexDump.read (text ((listing 0 bs).map Line.bare ++ [[]])) = .ok bs ∧
      HexDump.read (text ((listing 0 bs).map Line.full ++ [[]])) = .ok (bs ++ [0xde]) := by
  intro bs
  have hlists : Lists 0 bs (listing 0 bs) := lists_listing 0 (by decide)
  have hblanks : ∀ l ∈ [[]], Blank l := by decide
  have hspill : spill (lastRow bs) = [0xde] := by decide
  obtain ⟨hbare, hfull, -⟩ := read_listing hlists (by decide) hblanks
  rw [hspill] at hfull
  exact ⟨hlists, by decide, hblanks, hbare, hfull⟩

/-- The letters of two bytes are read as a third one. -/
theorem read_listing_of_letters :
    let lines := listing 0 [0x61, 0x62]
    Lists 0 [0x61, 0x62] lines ∧
      text (lines.map Line.full ++ [[]]) =
        "0000   61 62                                             ab\n" ∧
      HexDump.read (text (lines.map Line.bare ++ [[]])) = .ok [0x61, 0x62] ∧
      HexDump.read (text (lines.map Line.full ++ [[]])) = .ok [0x61, 0x62, 0xab] := by
  intro lines
  have hlists : Lists 0 [0x61, 0x62] lines := lists_listing 0 (by decide)
  have hblanks : ∀ l ∈ [[]], Blank l := by decide
  have hspill : spill (lastRow [0x61, 0x62]) = [0xab] := by decide
  refine ⟨hlists, ?_, hlists.read_eq writes_bare (by decide) hblanks, ?_⟩
  · have hlines : lines = [Line.ofRow 0 [0x61, 0x62]] := by
      unfold lines
      rw [listing, if_pos (by decide)]
    rw [hlines, List.map_singleton, Line.full, Line.ofRow, HexText.digits, if_pos (by decide)]
    rfl
  · rw [hlists.read_eq writes_full (by decide) hblanks, hspill]
    rfl

end Igmp.HexListing
