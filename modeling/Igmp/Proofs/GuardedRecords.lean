import Igmp.RecordCursor
import Igmp.Proofs.GuardedRead
import Igmp.Proofs.RecordLayout

/-! # Walking group records with checked reads -/
namespace Igmp.Guarded

open GroupRecord (headerSize)

/-- The size that a record's header declares, or nothing where the header is cut short. -/
def declaredSize? (bs : Bytes) : Guarded (Option Nat) :=
  if bs.length < headerSize then .ok none
  else do
    let words ← byteAt bs 1
    let sources ← word bs 2
    .ok (some (headerSize + 4 * sources.toNat + 4 * words.toNat))

/-- The record that starts a run of bytes, with the number of bytes it takes. -/
def decode (bs : Bytes) : Guarded (Except RecordFault (GroupRecord × Nat)) := do
  match ← declaredSize? bs with
  | none => .ok (.error (.truncated headerSize bs.length))
  | some size =>
    if bs.length < size then .ok (.error (.truncated size bs.length))
    else
      let code ← byteAt bs 0
      match RecordType.ofCode? code with
      | none => .ok (.error (.unknownType code))
      | some type =>
        let group ← window bs 4 4
        let count ← word bs 2
        let stop := headerSize + 4 * count.toNat
        let sources ← range bs headerSize stop
        let auxiliary ← range bs stop size
        .ok (.ok (⟨type, .ofBytes group, sources.fours Address.mk,
          auxiliary.fours AuxiliaryWord.mk⟩, size))

def next (c : RecordCursor) : Guarded (Option (Except RecordFault GroupRecord × RecordCursor)) :=
  if c.remaining = 0 ∨ c.failed then .ok none
  else do
    match ← decode c.unread with
    | .ok (record, size) =>
      let rest ← range c.unread size c.unread.length
      .ok (some (.ok record, ⟨rest, c.remaining - 1, false⟩))
    | .error fault => .ok (some (.error fault, ⟨c.unread, c.remaining - 1, true⟩))

/-- At most `n` of the items still to come. -/
def items : Nat → RecordCursor → Guarded (List (Except RecordFault GroupRecord))
  | 0, _ => .ok []
  | n + 1, c => do
    match ← next c with
    | none => .ok []
    | some (item, rest) =>
      let more ← items n rest
      .ok (item :: more)

/-- Where a run of records ends. The place may lie beyond the end of the bytes, and is held to it
before it is looked at. -/
def runEnd (bs : Bytes) : Nat → Nat → Guarded Nat
  | 0, offset => .ok offset
  | count + 1, offset => do
    let rest ← range bs (min offset bs.length) bs.length
    match ← declaredSize? rest with
    | none => .ok offset
    | some size => runEnd bs count (offset + size)

theorem declaredSize?_eq (bs : Bytes) : declaredSize? bs = .ok (GroupRecord.declaredSize? bs) := by
  rw [declaredSize?, GroupRecord.declaredSize?_eq]
  by_cases h : bs.length < headerSize
  · rw [if_pos h, if_pos h]
  · have hlen : 8 ≤ bs.length := Nat.le_of_not_lt h
    rw [if_neg h, if_neg h, byteAt_eq (by omega), ok_bind, word_eq (by omega), ok_bind]
    rfl

theorem decode_eq (bs : Bytes) :
    decode bs = .ok ((GroupRecord.decode bs).map fun r => (r, r.size)) := by
  rw [decode, declaredSize?_eq, ok_bind, GroupRecord.decode_eq, GroupRecord.declaredSize?_eq]
  by_cases hh : bs.length < headerSize
  · rw [if_pos hh, if_pos hh]
    rfl
  rw [if_neg hh, if_neg hh]
  by_cases hd : bs.length < GroupRecord.declaredSize bs
  · simp only [if_pos hd]
    rfl
  have hlen : 8 ≤ bs.length := Nat.le_of_not_lt hh
  have hsize : GroupRecord.declaredSize bs =
      8 + 4 * (bs.wordAt 2).toNat + 4 * (bs.byteAt 1).toNat := rfl
  simp only [if_neg hd]
  rw [byteAt_eq (by omega), ok_bind]
  cases ht : RecordType.ofCode? (bs.byteAt 0) with
  | none => rfl
  | some type =>
    have hread : (GroupRecord.read type bs).size = GroupRecord.declaredSize bs :=
      GroupRecord.read_size (Nat.le_of_not_lt hd)
    have hsources : 8 + 4 * (bs.wordAt 2).toNat - 8 = 4 * (bs.wordAt 2).toNat := by omega
    have hauxiliary : GroupRecord.declaredSize bs - (8 + 4 * (bs.wordAt 2).toNat) =
        4 * (bs.byteAt 1).toNat := by
      omega
    simp only [headerSize, Except.map, hread]
    rw [window_eq (by omega), ok_bind, word_eq (by omega), ok_bind, range_eq (by omega) (by omega),
      ok_bind, range_eq (by omega) (by omega), ok_bind, hsources, hauxiliary]
    rfl

theorem next_eq (c : RecordCursor) : next c = .ok c.next := by
  rw [next, RecordCursor.next]
  split
  · rfl
  rw [decode_eq, ok_bind]
  cases hd : GroupRecord.decode c.unread with
  | error fault => rfl
  | ok record =>
    have hle : record.size ≤ c.unread.length := by
      have hl := congrArg List.length (GroupRecord.eq_layout_append_of_decode hd).2
      rw [List.length_append, GroupRecord.layout_length] at hl
      omega
    simp only [Except.map]
    rw [range_from hle, ok_bind]

theorem items_eq (c : RecordCursor) : items c.remaining c = .ok c.items := by
  induction hn : c.remaining generalizing c with
  | zero => rw [items, RecordCursor.items_of_next_none]; simp [RecordCursor.next, hn]
  | succ n ih =>
    rw [items, next_eq, ok_bind]
    cases hnext : c.next with
    | none => rw [RecordCursor.items_of_next_none c hnext]
    | some step =>
      obtain ⟨item, rest⟩ := step
      have hrest := RecordCursor.remaining_of_next c rest item hnext
      rw [RecordCursor.items_of_next_some c rest item hnext]
      simp only
      rw [ih rest (by omega), ok_bind]

theorem runEnd_eq (bs : Bytes) (count offset : Nat) :
    runEnd bs count offset = .ok (GroupRecord.runEnd count (bs.drop offset) offset) := by
  induction count generalizing offset with
  | zero => rfl
  | succ count ih =>
    -- Beyond the end nothing is left to read, whether the place is held to the end or not.
    have hdrop : bs.drop (min offset bs.length) = bs.drop offset := by
      rcases Nat.le_total offset bs.length with h | h
      · rw [Nat.min_eq_left h]
      · rw [Nat.min_eq_right h, List.drop_length, List.drop_of_length_le h]
    rw [runEnd, range_from (Nat.min_le_right _ _), ok_bind, hdrop, declaredSize?_eq, ok_bind,
      GroupRecord.runEnd]
    cases GroupRecord.declaredSize? (bs.drop offset) with
    | none => rfl
    | some size =>
      simp only
      rw [ih, List.drop_drop]

end Igmp.Guarded
