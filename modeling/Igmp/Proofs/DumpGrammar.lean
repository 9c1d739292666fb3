import Mathlib.Data.List.Chain
import Igmp.Proofs.GuardedRead
import Igmp.Proofs.LineTokens

/-! # The grammar of hex dumps

A text is a hex dump where each line that is not blank has an offset, the first offset is zero, and
each row has octets up to where the next one starts. The reader accepts these texts and no others,
and of any other text it tells the first fault. -/
namespace Igmp.HexDump

open Tokens (Lines Words ofText)

/-- A line that is not blank: its number among all lines, its first token and the other ones. -/
structure Entry where
  line : Nat
  first : List Char
  others : List (List Char)

/-- The entries of lines that are numbered from `n` on. -/
inductive Entries : Nat → List (List Char) → List Entry → Prop where
  | nil {n : Nat} : Entries n [] []
  | blank {n : Nat} {line : List Char} {ls : List (List Char)} {es : List Entry}
      (hwords : Words line []) (hrest : Entries (n + 1) ls es) : Entries n (line :: ls) es
  | entry {n : Nat} {line first : List Char} {others ls : List (List Char)} {es : List Entry}
      (hwords : Words line (first :: others)) (hrest : Entries (n + 1) ls es) :
      Entries n (line :: ls) (⟨n, first, others⟩ :: es)

/-- The entries of a text, with its lines numbered from one on. -/
def TextEntries (text : String) (es : List Entry) : Prop :=
  ∃ ls, Lines text.toList ls ∧ Entries 1 ls es

/-- The row that is read of an entry. -/
def Entry.read (e : Entry) : Except HexDumpError Row := Row.read e.line (e.first :: e.others)

/-- The row that an entry gives. -/
structure Entry.Gives (e : Entry) (r : Row) : Prop where
  line_eq : r.line = e.line
  offset : OffsetToken e.first r.offset
  octets : LeadingOctets e.others r.octets

/-- The next row starts behind this one, and not behind its octets. -/
structure Reaches (r next : Row) : Prop where
  offset_lt : r.offset < next.offset
  le_length : next.offset - r.offset ≤ r.octets.length

/-- Rows that start at zero and reach one another. -/
structure Linked (rows : List Row) : Prop where
  head_eq : ∀ first ∈ rows.head?, first.offset = 0
  chain : rows.IsChain Reaches

/-- The octets of a row up to the next one. -/
def Row.upTo (r next : Row) : Bytes := r.octets.take (next.offset - r.offset)

/-- The octets of all rows but the last one, each up to the next one. -/
def upToLast (rows : List Row) : Bytes := (List.zipWith Row.upTo rows rows.tail).flatten

/-- Rows that end with `last` describe these bytes. -/
structure Describes (rows : List Row) (last : Row) (bytes : Bytes) : Prop where
  getLast_eq : rows.getLast? = some last
  linked : Linked rows
  pos : 0 < last.offset + last.octets.length
  bytes_eq : bytes = upToLast rows ++ last.octets

/-- The first fault of rows that describe no bytes. -/
inductive FirstFault : List Row → HexDumpError → Prop where
  | start {first : Row} {rest : List Row} (hne : first.offset ≠ 0) :
      FirstFault (first :: rest) (.unexpectedOffset first.line 0 first.offset)
  | backwards {before after : List Row} {r next : Row} (hlinked : Linked (before ++ [r]))
      (hle : next.offset ≤ r.offset) :
      FirstFault (before ++ r :: next :: after)
        (.unexpectedOffset next.line (r.offset + r.octets.length) next.offset)
  | missing {before after : List Row} {r next : Row} (hlinked : Linked (before ++ [r]))
      (hlt : r.octets.length < next.offset - r.offset) :
      FirstFault (before ++ r :: next :: after)
        (.missingOctets r.line (next.offset - r.offset) r.octets.length)
  | empty {rows : List Row} (hlinked : Linked rows)
      (hnone : ∀ last ∈ rows.getLast?, last.offset + last.octets.length = 0) :
      FirstFault rows .empty

theorem Entries.rowsFrom_eq {n : Nat} {ls : List (List Char)} {es : List Entry}
    (h : Entries n ls es) :
    rowsFrom n (ls.map ofText) = es.mapM Entry.read := by
  induction h with
  | nil => rfl
  | blank hwords _ ih => rw [List.map_cons, hwords.ofText_eq, rowsFrom_nil_cons, ih]
  | @entry n line first others ls es hwords _ ih =>
    rw [rowsFrom] at ih
    rw [List.map_cons, hwords.ofText_eq, rowsFrom, List.zipIdx_cons,
      List.filter_cons_of_pos (by simp), List.mapM_cons, ih, List.mapM_cons]
    rfl

theorem exists_entries (n : Nat) (ls : List (List Char)) : ∃ es, Entries n ls es := by
  induction ls generalizing n with
  | nil => exact ⟨[], .nil⟩
  | cons line ls ih =>
    obtain ⟨es, hes⟩ := ih (n + 1)
    cases hwords : ofText line with
    | nil => exact ⟨es, .blank (Tokens.words_iff.2 hwords) hes⟩
    | cons first others =>
      exact ⟨⟨n, first, others⟩ :: es, .entry (Tokens.words_iff.2 hwords) hes⟩

theorem Entries.unique {n : Nat} {ls : List (List Char)} {es es' : List Entry}
    (h : Entries n ls es) (h' : Entries n ls es') : es' = es := by
  induction h generalizing es' with
  | nil =>
    cases h'
    rfl
  | blank hwords _ ih =>
    cases h' with
    | blank _ hrest' => exact ih hrest'
    | entry hwords' _ => exact absurd (hwords.unique hwords') (by simp)
  | entry hwords _ ih =>
    cases h' with
    | blank hwords' _ => exact absurd (hwords.unique hwords') (by simp)
    | entry hwords' hrest' =>
      obtain ⟨rfl, rfl⟩ := List.cons.inj (hwords.unique hwords')
      rw [ih hrest']

theorem exists_textEntries (text : String) :
    ∃ es, ∀ es', TextEntries text es' ↔ es' = es := by
  obtain ⟨es, hes⟩ := exists_entries 1 (Tokens.lines text.toList)
  refine ⟨es, fun es' => ?_⟩
  constructor
  · rintro ⟨ls, hls, hes'⟩
    obtain rfl := Tokens.lines_iff.1 hls
    exact hes.unique hes'
  · rintro rfl
    exact ⟨_, Tokens.lines_iff.2 rfl, hes⟩

theorem TextEntries.rows_eq {text : String} {es : List Entry} (h : TextEntries text es) :
    rows text = es.mapM Entry.read := by
  obtain ⟨ls, hls, hes⟩ := h
  rw [← hes.rowsFrom_eq, ← hls.lines_eq, rows, rowsFrom]

theorem Entry.read_eq_ok_iff {e : Entry} {r : Row} : e.read = .ok r ↔ e.Gives r := by
  rw [read, Row.read, List.headD_cons, List.tail_cons]
  constructor
  · intro h
    split at h
    · next offset hoffset =>
      obtain rfl := Except.ok.inj h
      exact ⟨rfl, offset?_iff.1 hoffset, leadingOctets_iff.1 rfl⟩
    · simp at h
  · rintro ⟨hline, hoffset, hoctets⟩
    obtain ⟨line, offset, octets⟩ := r
    rw [offset?_iff.2 hoffset, leadingOctets_iff.2 hoctets, ← hline]

theorem Entry.read_eq_error {e : Entry} (h : ∀ offset, ¬ OffsetToken e.first offset) :
    e.read = .error (.invalidOffset e.line (String.ofList e.first)) := by
  have hnone : offset? e.first = none := by
    rw [Option.eq_none_iff_forall_ne_some]
    exact fun offset hoffset => h offset (offset?_iff.1 hoffset)
  rw [read, Row.read, List.headD_cons, hnone]

theorem Entry.exists_read {e : Entry} (h : ∃ offset, OffsetToken e.first offset) :
    ∃ r, e.read = .ok r := by
  obtain ⟨offset, hoffset⟩ := h
  obtain ⟨octets, hoctets⟩ := exists_leadingOctets e.others
  exact ⟨⟨e.line, offset, octets⟩, read_eq_ok_iff.2 ⟨rfl, hoffset, hoctets⟩⟩

theorem mapM_read_eq_ok_iff {es : List Entry} {rows : List Row} :
    es.mapM Entry.read = .ok rows ↔ List.Forall₂ Entry.Gives es rows := by
  induction es generalizing rows with
  | nil => simp [pure, Except.pure, eq_comm]
  | cons e es ih =>
    rw [List.mapM_cons, List.forall₂_cons_left_iff, Guarded.bind_eq_ok_iff]
    constructor
    · rintro ⟨r, hr, hrest⟩
      obtain ⟨rest, hrows, hcons⟩ := Guarded.bind_eq_ok_iff.1 hrest
      exact ⟨r, rest, Entry.read_eq_ok_iff.1 hr, ih.1 hrows, (Except.ok.inj hcons).symm⟩
    · rintro ⟨r, rest, hr, hrows, rfl⟩
      exact ⟨r, Entry.read_eq_ok_iff.2 hr, by rw [ih.2 hrows]; rfl⟩

/-- Entries are read one by one up to the first one without an offset. -/
theorem mapM_read_cases (es : List Entry) :
    (∃ before e after, es = before ++ e :: after ∧
      (∀ b ∈ before, ∃ offset, OffsetToken b.first offset) ∧
      (∀ offset, ¬ OffsetToken e.first offset) ∧
      es.mapM Entry.read = .error (.invalidOffset e.line (String.ofList e.first))) ∨
    ∃ rows, es.mapM Entry.read = .ok rows := by
  induction es with
  | nil => exact .inr ⟨[], rfl⟩
  | cons e es ih =>
    rw [List.mapM_cons]
    by_cases hoffset : ∃ offset, OffsetToken e.first offset
    · obtain ⟨r, hr⟩ := Entry.exists_read hoffset
      rw [hr]
      rcases ih with ⟨before, bad, after, rfl, hbefore, hbad, herror⟩ | ⟨rows, hrows⟩
      · refine .inl ⟨e :: before, bad, after, rfl, ?_, hbad, ?_⟩
        · exact List.forall_mem_cons.2 ⟨hoffset, hbefore⟩
        · rw [herror]
          rfl
      · refine .inr ⟨r :: rows, ?_⟩
        rw [hrows]
        rfl
    · have hbad : ∀ offset, ¬ OffsetToken e.first offset := not_exists.1 hoffset
      refine .inl ⟨[], e, es, rfl, List.forall_mem_nil _, hbad, ?_⟩
      rw [Entry.read_eq_error hbad]
      rfl

/-- The octets that a row gives: those up to the next row, or all of them where it is the last
one. -/
def Row.give (row : Row) : Option Row → Except HexDumpError Bytes
  | none => .ok row.octets
  | some next =>
    if next.offset ≤ row.offset then
      .error (.unexpectedOffset next.line (row.offset + row.octets.length) next.offset)
    else if row.octets.length < next.offset - row.offset then
      .error (.missingOctets row.line (next.offset - row.offset) row.octets.length)
    else .ok (row.upTo next)

/-- One pass over rows, with the bytes so far, at the end of which a row starts. -/
def gather (bytes : Bytes) : List Row → Except HexDumpError Bytes
  | [] => if bytes = [] then .error .empty else .ok bytes
  | row :: rest =>
    if row.offset = bytes.length then do
      let more ← row.give rest.head?
      gather (bytes ++ more) rest
    else .error (.unexpectedOffset row.line bytes.length row.offset)

section Step

variable {bytes : Bytes} {row next : Row} {rest : List Row} (h : row.offset = bytes.length)

include h

theorem gather_last : gather bytes [row] = gather (bytes ++ row.octets) [] := if_pos h

theorem gather_backwards (hle : next.offset ≤ row.offset) :
    gather bytes (row :: next :: rest) =
      .error (.unexpectedOffset next.line (row.offset + row.octets.length) next.offset) := by
  rw [gather, if_pos h, List.head?_cons, Row.give, if_pos hle]
  rfl

theorem gather_missing (hlt : row.octets.length < next.offset - row.offset) :
    gather bytes (row :: next :: rest) =
      .error (.missingOctets row.line (next.offset - row.offset) row.octets.length) := by
  rw [gather, if_pos h, List.head?_cons, Row.give, if_neg (by omega), if_pos hlt]
  rfl

theorem Reaches.gather_eq (hreach : Reaches row next) :
    gather bytes (row :: next :: rest) = gather (bytes ++ row.upTo next) (next :: rest) := by
  have hlt := hreach.offset_lt
  have hle := hreach.le_length
  rw [gather, if_pos h, List.head?_cons, Row.give, if_neg (by omega), if_neg (by omega)]
  rfl

theorem Reaches.offset_eq (hreach : Reaches row next) :
    next.offset = (bytes ++ row.upTo next).length := by
  have hlt := hreach.offset_lt
  have hle := hreach.le_length
  rw [List.length_append, Row.upTo, List.length_take]
  omega

end Step

theorem gather_eq_join {bytes : Bytes} {row : Row} {rest : List Row}
    (h : row.offset = bytes.length) :
    gather bytes (row :: rest) = (do
      let more ← join (row :: rest)
      if bytes ++ more = [] then .error .empty else .ok (bytes ++ more)) := by
  induction rest generalizing bytes row with
  | nil =>
    rw [gather_last h]
    rfl
  | cons next rest ih =>
    rw [join]
    split
    · next hle =>
      rw [gather_backwards h hle]
      rfl
    split
    · next hlt =>
      rw [gather_missing h hlt]
      rfl
    · next hle hlt =>
      have hreach : Reaches row next := ⟨Nat.lt_of_not_le hle, Nat.le_of_not_lt hlt⟩
      rw [hreach.gather_eq h, ih (hreach.offset_eq h)]
      cases join (next :: rest) with
      | error e => rfl
      | ok more => simp only [bind, Except.bind, Row.upTo, List.append_assoc]

theorem gather_nil_eq (rows : List Row) : gather [] rows = (do
    startsAtZero rows
    let bytes ← join rows
    if bytes = [] then .error .empty else .ok bytes) := by
  cases rows with
  | nil => rfl
  | cons first rest =>
    rw [startsAtZero]
    split
    · next hzero =>
      have hstart : first.offset = List.length ([] : Bytes) := hzero
      rw [gather_eq_join hstart]
      rfl
    · next hne => exact if_neg hne

/-- The reader compares the offsets in one pass. -/
theorem read_eq_gather (text : String) : HexDump.read text = rows text >>= gather [] := by
  rw [funext gather_nil_eq]
  rfl

theorem upToLast_append (before : List Row) (row next : Row) :
    upToLast (before ++ [row, next]) = upToLast (before ++ [row]) ++ row.upTo next := by
  induction before with
  | nil => simp [upToLast]
  | cons first before ih =>
    cases before with
    | nil => simp [upToLast]
    | cons second before =>
      have hcons : ∀ rows : List Row, upToLast (first :: second :: rows) =
          first.upTo second ++ upToLast (second :: rows) := fun rows => rfl
      simp only [List.cons_append] at ih ⊢
      rw [hcons, hcons, ih, List.append_assoc]

theorem Linked.append_iff {before : List Row} {row next : Row} :
    Linked (before ++ [row, next]) ↔ Linked (before ++ [row]) ∧ Reaches row next := by
  have hhead : (before ++ [row, next]).head? = (before ++ [row]).head? := by
    cases before <;> rfl
  constructor
  · rintro ⟨hzero, hchain⟩
    obtain ⟨hbefore, hreach, -⟩ := List.isChain_append_cons_cons.1 hchain
    exact ⟨⟨hhead ▸ hzero, hbefore⟩, hreach⟩
  · rintro ⟨⟨hzero, hbefore⟩, hreach⟩
    exact ⟨hhead ▸ hzero, List.isChain_append_cons_cons.2 ⟨hbefore, hreach, .singleton next⟩⟩

/-- Linked rows are passed over, and the last of them starts where the bytes of the others end. -/
theorem Linked.gather_eq {before : List Row} {row : Row} (h : Linked (before ++ [row]))
    (after : List Row) :
    row.offset = (upToLast (before ++ [row])).length ∧
      gather [] (before ++ row :: after) = gather (upToLast (before ++ [row])) (row :: after) := by
  -- From the row that was passed last, so that the bytes so far are those of the rows before it.
  induction before using List.reverseRecOn generalizing row after with
  | nil => exact ⟨h.head_eq row rfl, rfl⟩
  | append_singleton before previous ih =>
    rw [List.append_assoc] at h
    obtain ⟨hbefore, hreach⟩ := Linked.append_iff.1 h
    obtain ⟨hoffset, hgather⟩ := ih hbefore (row :: after)
    simp only [List.append_assoc, List.singleton_append]
    rw [upToLast_append]
    exact ⟨hreach.offset_eq hoffset, hgather.trans (hreach.gather_eq hoffset)⟩

theorem Describes.length_eq {rows : List Row} {last : Row} {bytes : Bytes}
    (h : Describes rows last bytes) : bytes.length = last.offset + last.octets.length := by
  obtain ⟨before, rfl⟩ := List.getLast?_eq_some_iff.1 h.getLast_eq
  rw [h.bytes_eq, List.length_append, (h.linked.gather_eq []).1]

theorem Describes.gather_eq {rows : List Row} {last : Row} {bytes : Bytes}
    (h : Describes rows last bytes) : gather [] rows = .ok bytes := by
  have hlen := h.length_eq
  have hpos := h.pos
  obtain ⟨before, rfl⟩ := List.getLast?_eq_some_iff.1 h.getLast_eq
  obtain ⟨hoffset, hgather⟩ := h.linked.gather_eq []
  have hne : bytes ≠ [] := List.ne_nil_of_length_pos (by omega)
  rw [hgather, gather_last hoffset, ← h.bytes_eq, gather, if_neg hne]

theorem FirstFault.gather_eq {rows : List Row} {error : HexDumpError} (h : FirstFault rows error) :
    gather [] rows = .error error := by
  cases h with
  | start hne => exact if_neg hne
  | backwards hlinked hle =>
    obtain ⟨hoffset, hgather⟩ := hlinked.gather_eq _
    rw [hgather, gather_backwards hoffset hle]
  | missing hlinked hlt =>
    obtain ⟨hoffset, hgather⟩ := hlinked.gather_eq _
    rw [hgather, gather_missing hoffset hlt]
  | empty hlinked hnone =>
    cases hlast : rows.getLast? with
    | none =>
      rw [List.getLast?_eq_none_iff] at hlast
      rw [hlast]
      rfl
    | some last =>
      have hzero := hnone last hlast
      obtain ⟨before, rfl⟩ := List.getLast?_eq_some_iff.1 hlast
      obtain ⟨hoffset, hgather⟩ := hlinked.gather_eq []
      have hnil : upToLast (before ++ [last]) ++ last.octets = [] := by
        rw [← List.length_eq_zero_iff, List.length_append]
        omega
      rw [hgather, gather_last hoffset, hnil]
      rfl

/-- Behind linked rows there is a fault, or all rows describe bytes. -/
theorem Linked.describes_or_fault {before : List Row} {row : Row} (h : Linked (before ++ [row]))
    (after : List Row) :
    (∃ last bytes, Describes (before ++ row :: after) last bytes) ∨
      ∃ error, FirstFault (before ++ row :: after) error := by
  induction after generalizing before row with
  | nil =>
    rcases Nat.eq_zero_or_pos (row.offset + row.octets.length) with hzero | hpos
    · refine .inr ⟨_, .empty h fun last hlast => ?_⟩
      rw [List.getLast?_concat] at hlast
      obtain rfl := Option.some.inj hlast
      exact hzero
    · exact .inl ⟨row, _, List.getLast?_concat, h, hpos, rfl⟩
  | cons next after ih =>
    by_cases hle : next.offset ≤ row.offset
    · exact .inr ⟨_, .backwards h hle⟩
    by_cases hlt : row.octets.length < next.offset - row.offset
    · exact .inr ⟨_, .missing h hlt⟩
    · have hreach : Reaches row next := ⟨Nat.lt_of_not_le hle, Nat.le_of_not_lt hlt⟩
      have hnext : Linked ((before ++ [row]) ++ [next]) := by
        rw [List.append_assoc]
        exact Linked.append_iff.2 ⟨h, hreach⟩
      have hrest := ih hnext
      rwa [List.append_assoc] at hrest

theorem describes_or_fault (rows : List Row) :
    (∃ last bytes, Describes rows last bytes) ∨ ∃ error, FirstFault rows error := by
  cases rows with
  | nil => exact .inr ⟨_, .empty ⟨by simp, .nil⟩ (by simp)⟩
  | cons first rest =>
    by_cases hzero : first.offset = 0
    · have hlinked : Linked ([] ++ [first]) := ⟨by simpa using hzero, .singleton first⟩
      exact hlinked.describes_or_fault rest
    · exact .inr ⟨_, .start hzero⟩

theorem gather_eq_ok_iff {rows : List Row} {bytes : Bytes} :
    gather [] rows = .ok bytes ↔ ∃ last, Describes rows last bytes := by
  constructor
  · intro h
    rcases describes_or_fault rows with ⟨last, found, hfound⟩ | ⟨error, herror⟩
    · obtain rfl := Except.ok.inj (hfound.gather_eq.symm.trans h)
      exact ⟨last, hfound⟩
    · exact absurd (herror.gather_eq.symm.trans h) (by simp)
  · rintro ⟨last, hlast⟩
    exact hlast.gather_eq

theorem gather_eq_error_iff {rows : List Row} {error : HexDumpError} :
    gather [] rows = .error error ↔ FirstFault rows error := by
  constructor
  · intro h
    rcases describes_or_fault rows with ⟨last, bytes, hbytes⟩ | ⟨found, hfound⟩
    · exact absurd (hbytes.gather_eq.symm.trans h) (by simp)
    · obtain rfl := Except.error.inj (hfound.gather_eq.symm.trans h)
      exact hfound
  · exact FirstFault.gather_eq

/-- A text is read exactly as the grammar tells. Where a line has no offset, the first such line is
told, whatever else is wrong. Otherwise the lines give rows, and the text is read where these
describe bytes, as the bytes that they describe; and where they do not, their first fault is
told. -/
theorem read_follows_grammar (text : String) :
    ∃ es, (∀ es', TextEntries text es' ↔ es' = es) ∧
      ((∃ before e after, es = before ++ e :: after ∧
        (∀ b ∈ before, ∃ offset, OffsetToken b.first offset) ∧
        (∀ offset, ¬ OffsetToken e.first offset) ∧
        HexDump.read text = .error (.invalidOffset e.line (String.ofList e.first))) ∨
      ∃ rows, (∀ rows', List.Forall₂ Entry.Gives es rows' ↔ rows' = rows) ∧
        (∀ bytes, HexDump.read text = .ok bytes ↔ ∃ last, Describes rows last bytes) ∧
        (∀ last bytes, Describes rows last bytes →
          bytes.length = last.offset + last.octets.length) ∧
        ∀ error, HexDump.read text = .error error ↔ FirstFault rows error) := by
  obtain ⟨es, hes⟩ := exists_textEntries text
  have hread : HexDump.read text = es.mapM Entry.read >>= gather [] := by
    rw [read_eq_gather, ((hes es).2 rfl).rows_eq]
  refine ⟨es, hes, ?_⟩
  rcases mapM_read_cases es with ⟨before, e, after, hsplit, hbefore, hbad, herror⟩ | ⟨rows, hrows⟩
  · refine .inl ⟨before, e, after, hsplit, hbefore, hbad, ?_⟩
    rw [hread, herror]
    rfl
  · have hgather : HexDump.read text = gather [] rows := by
      rw [hread, hrows]
      rfl
    refine .inr ⟨rows, fun rows' => ?_, fun bytes => ?_, fun _ _ h => h.length_eq, fun error => ?_⟩
    · rw [← mapM_read_eq_ok_iff, hrows, Except.ok.injEq, eq_comm]
    · rw [hgather, gather_eq_ok_iff]
    · rw [hgather, gather_eq_error_iff]

/-- The first row goes on behind the start of the second one. -/
example : HexDump.read "\n0: 01 02 03\n\n+1 04" = .ok [1, 4] := by decide +kernel

/-- An octet is missing on the second of four lines, and a later line has no offset. -/
example : HexDump.read "\n0 01\n2: 04\n-" = .error (.invalidOffset 4 "-") ∧
    HexDump.read "\n0 01\n2: 04\n" = .error (.missingOctets 2 2 1) := by decide +kernel

end Igmp.HexDump
