import Igmp.Proofs.ParsedMessage
import Igmp.Proofs.ReportHistory

/-! # Where the records of a report end, whether they can be read or not -/
namespace Igmp
open GroupRecord

namespace GroupRecord

/-- A walk does not look at the type of a record. -/
theorem runEnd_set_zero (count : Nat) (bs : Bytes) (code : UInt8) (offset : Nat) :
    runEnd count (bs.set 0 code) offset = runEnd count bs offset := by
  cases bs with
  | nil => rfl
  | cons b bs =>
    cases count with
    | zero => rfl
    | succ count =>
      have hsize : declaredSize (code :: bs) = declaredSize (b :: bs) := rfl
      obtain ⟨n, hn⟩ : ∃ n, declaredSize (b :: bs) = n + 1 :=
        ⟨declaredSize (b :: bs) - 1, by rw [declaredSize, headerSize]; omega⟩
      rw [List.set_cons_zero, runEnd, runEnd, declaredSize?_eq, declaredSize?_eq, hsize, hn,
        List.length_cons, List.length_cons]
      by_cases h : bs.length + 1 < headerSize
      · simp only [if_pos h]
      · simp only [if_neg h, List.drop_succ_cons]

/-- A header that is cut short ends a walk. -/
theorem runEnd_of_short {bs : Bytes} (h : bs.length < headerSize) (count offset : Nat) :
    runEnd count bs offset = offset := by
  cases count with
  | zero => rfl
  | succ count => rw [runEnd, declaredSize?_eq, if_pos h]

theorem runEnd_succ {bs : Bytes} (h : headerSize ≤ bs.length) (count offset : Nat) :
    runEnd (count + 1) bs offset =
      runEnd count (bs.drop (declaredSize bs)) (offset + declaredSize bs) := by
  rw [runEnd, declaredSize?_eq, if_neg (Nat.not_lt.2 h)]

/-- Where a walk comes to that has passed over a record which cannot be read. -/
theorem runEnd_of_decode_error {bs : Bytes} {fault : RecordFault} (h : decode bs = .error fault)
    (count offset : Nat) :
    match fault with
    | .truncated minimum provided =>
      provided = bs.length ∧
        if provided < headerSize then
          minimum = headerSize ∧ runEnd (count + 1) bs offset = offset
        else
          minimum = declaredSize bs ∧ provided < minimum ∧
            offset + minimum ≤ runEnd (count + 1) bs offset
    | .unknownType code =>
      code = bs.byteAt 0 ∧ declaredSize bs ≤ bs.length ∧
        offset + declaredSize bs ≤ runEnd (count + 1) bs offset := by
  rw [decode_eq_error_iff] at h
  by_cases hshort : bs.length < headerSize
  · rw [if_pos hshort] at h
    subst h
    exact ⟨rfl, by rw [if_pos hshort]; exact ⟨rfl, runEnd_of_short hshort _ _⟩⟩
  rw [if_neg hshort] at h
  have hend : offset + declaredSize bs ≤ runEnd (count + 1) bs offset := by
    rw [runEnd_succ (Nat.le_of_not_lt hshort)]
    exact le_runEnd _ _ _
  by_cases hcut : bs.length < declaredSize bs
  · rw [if_pos hcut] at h
    subst h
    exact ⟨rfl, by rw [if_neg hshort]; exact ⟨rfl, hcut, hend⟩⟩
  · rw [if_neg hcut] at h
    obtain ⟨-, rfl⟩ := h
    exact ⟨rfl, Nat.le_of_not_lt hcut, hend⟩

end GroupRecord

namespace RecordCursor.StopsAt

variable {c : RecordCursor} {rs : List GroupRecord} {rest : Bytes} {stop : Option RecordFault}

theorem length_le (h : c.StopsAt rs rest stop) : rs.length ≤ c.remaining := by
  cases stop with
  | none => exact Nat.le_of_eq (h.complete rfl)
  | some fault => exact Nat.le_of_lt (h.faulty fault rfl).1

theorem unread_length (h : c.StopsAt rs rest stop) :
    c.unread.length = totalSize rs + rest.length := by
  rw [h.unread_eq, List.length_append, flatMap_layout_length]

theorem unread_drop (h : c.StopsAt rs rest stop) : c.unread.drop (totalSize rs) = rest := by
  rw [h.unread_eq, List.drop_left' (flatMap_layout_length rs)]

/-- A walk over the records that a cursor yields goes on behind them, whatever stands there. -/
theorem runEnd_layouts (h : c.StopsAt rs rest stop) (rest' : Bytes) (offset : Nat) :
    runEnd c.remaining (rs.flatMap layout ++ rest') offset =
      runEnd (c.remaining - rs.length) rest' (offset + totalSize rs) := by
  have hcount : c.remaining = rs.length + (c.remaining - rs.length) :=
    (Nat.add_sub_of_le h.length_le).symm
  rw [hcount, runEnd_layouts_append h.valid, Nat.add_sub_cancel_left]

/-- The type of the record at which a cursor stops does not show in the walk. -/
theorem runEnd_set (h : c.StopsAt rs rest stop) (code : UInt8) (offset : Nat) :
    runEnd c.remaining (c.unread.set (totalSize rs) code) offset =
      runEnd c.remaining c.unread offset := by
  have hset : c.unread.set (totalSize rs) code = rs.flatMap layout ++ rest.set 0 code := by
    rw [h.unread_eq, List.set_append_right _ _ (Nat.le_of_eq (flatMap_layout_length rs)),
      flatMap_layout_length, Nat.sub_self]
  rw [hset, h.unread_eq, h.runEnd_layouts, h.runEnd_layouts, runEnd_set_zero]

end RecordCursor.StopsAt

/-- A field does not show what is written behind it. -/
theorem Field.get_setByte {α : Type} (f : Field α) {bs : Bytes} {i : Nat} {b : UInt8}
    (h : f.offset + f.width ≤ i) : f.get (bs.set i b) = f.get bs := by
  have hslice : Bytes.slice (bs.set i b) f.offset f.width = bs.slice f.offset f.width := by
    rw [Bytes.slice, Bytes.slice, List.take_drop, List.take_drop, List.take_set_of_le h]
  rw [get, get, hslice]

namespace Message

variable {m : Message} {rs : List GroupRecord} {rest : Bytes} {stop : Option RecordFault}

theorem size_eq_runEnd (hkind : m.kind = .v3Report) :
    m.size = min (runEnd m.records.remaining m.records.unread 8) m.region.length := by
  simp only [size, hkind]
  rfl

theorem records_setByte (m : Message) (n : Nat) (b : UInt8) :
    records { m with region := m.region.set (8 + n) b } =
      .start (m.records.unread.set n b) m.records.remaining := by
  have hcount : recordCount { m with region := m.region.set (8 + n) b } = m.recordCount :=
    congrArg UInt16.toNat (Field.get_setByte Field.recordCount (Nat.le_add_right 8 n))
  rw [records, hcount, List.drop_set, if_neg (by omega), Nat.add_sub_cancel_left]
  rfl

section Stopped

variable (hstop : m.records.StopsAt rs rest stop)

include hstop

theorem region_length_of_stopsAt (h8 : 8 ≤ m.region.length) :
    m.region.length = 8 + totalSize rs + rest.length := by
  have hlen : m.region.length - 8 = totalSize rs + rest.length := by
    rw [← hstop.unread_length, records, RecordCursor.start, List.length_drop]
  omega

theorem region_drop_of_stopsAt : m.region.drop (8 + totalSize rs) = rest := by
  rw [← List.drop_drop]
  exact hstop.unread_drop

/-- The walk that finds the size goes on where the records that can be read end. -/
theorem size_eq_of_stopsAt (hkind : m.kind = .v3Report) :
    m.size = min (runEnd (m.records.remaining - rs.length) rest (8 + totalSize rs))
      m.region.length := by
  rw [size_eq_runEnd hkind, hstop.unread_eq, hstop.runEnd_layouts]

theorem size_set_of_stopsAt (hkind : m.kind = .v3Report) (code : UInt8) :
    size { m with region := m.region.set (8 + totalSize rs) code } = m.size := by
  have hwalk := hstop.runEnd_set code 8
  rw [size_eq_runEnd hkind, ← hwalk, size_eq_runEnd (by exact hkind), records_setByte,
    List.length_set]
  rfl

end Stopped

/-- How the size of a report goes with the records that are read from it, and with what stops the
reading: nothing, a record that is cut short in its header or behind it, or a record of no known
type. -/
theorem report_size_of_stop (hkind : m.kind = .v3Report) (h8 : 8 ≤ m.region.length) :
    ∃ (rs : List GroupRecord) (stop : Option RecordFault) (total : Nat),
      m.records.items = rs.map .ok ++ (stop.map .error).toList ∧
      total = 8 + (rs.map GroupRecord.size).sum ∧ total ≤ m.size ∧ m.size ≤ m.region.length ∧
      match stop with
      | none => rs.length = m.recordCount ∧ m.size = total
      | some (.truncated minimum provided) =>
        provided = m.region.length - total ∧
          if provided < 8 then minimum = 8 ∧ m.size = total
          else minimum = declaredSize (m.region.drop total) ∧ provided < minimum ∧
            m.size = m.region.length
      | some (.unknownType code) =>
        code = m.region.byteAt total ∧ total + declaredSize (m.region.drop total) ≤ m.size ∧
          ∀ code', size { m with region := m.region.set total code' } = m.size := by
  obtain ⟨rs, rest, stop, hstop⟩ := RecordCursor.exists_stopsAt (c := m.records) rfl
  have hlen := region_length_of_stopsAt hstop h8
  have hdrop := region_drop_of_stopsAt hstop
  have hsize := size_eq_of_stopsAt hstop hkind
  have hle := le_runEnd (m.records.remaining - rs.length) rest (8 + totalSize rs)
  refine ⟨rs, stop, 8 + totalSize rs, hstop.items_eq, by rw [totalSize_eq_sum], by omega, by omega,
    ?_⟩
  cases stop with
  | none =>
    have hcount : rs.length = m.records.remaining := hstop.complete rfl
    rw [hcount, Nat.sub_self, runEnd] at hsize
    exact ⟨hcount, by omega⟩
  | some fault =>
    obtain ⟨hcount, hdecode⟩ := hstop.faulty fault rfl
    obtain ⟨count, hrest⟩ : ∃ count, m.records.remaining - rs.length = count + 1 :=
      Nat.exists_eq_succ_of_ne_zero (Nat.sub_ne_zero_of_lt hcount)
    have hend := runEnd_of_decode_error hdecode count (8 + totalSize rs)
    rw [← hrest] at hend
    cases fault with
    | truncated minimum provided =>
      obtain ⟨rfl, hend⟩ := hend
      refine ⟨by omega, ?_⟩
      by_cases hshort : rest.length < headerSize
      · rw [if_pos hshort] at hend
        rw [if_pos (show rest.length < 8 from hshort)]
        exact ⟨hend.1, by omega⟩
      · rw [if_neg hshort] at hend
        rw [if_neg (show ¬ rest.length < 8 from hshort), hdrop]
        exact ⟨hend.1, hend.2.1, by omega⟩
    | unknownType code =>
      obtain ⟨rfl, hfits, hend⟩ := hend
      have hbyte : rest.byteAt 0 = m.region.byteAt (8 + totalSize rs) := by
        rw [← hdrop, Bytes.byteAt_drop, Nat.add_zero]
      refine ⟨hbyte, ?_, size_set_of_stopsAt hstop hkind⟩
      rw [hdrop]
      omega

/-- A record that can be read, one of no known type and the start of a header: the size takes the
second in, whatever stands in place of its type. -/
theorem report_size_of_stop_unknown :
    let m : Message := ⟨.v3Report, .readOnly, [0x22, 0, 0, 0, 0, 0, 0, 3,
      1, 0, 0, 0, 239, 1, 2, 3, 9, 0, 0, 1, 239, 1, 2, 4, 10, 0, 0, 1, 6, 0, 0, 0]⟩
    m.kind = .v3Report ∧ 8 ≤ m.region.length ∧
      m.records.items = [.ok ⟨.modeIsInclude, ⟨239, 1, 2, 3⟩, [], []⟩, .error (.unknownType 9)] ∧
      28 ≤ m.size ∧ ∀ code, size { m with region := m.region.set 16 code } = m.size := by
  intro m
  have hitems : m.records.items =
      [.ok ⟨.modeIsInclude, ⟨239, 1, 2, 3⟩, [], []⟩, .error (.unknownType 9)] := by cbv
  have hdeclared : declaredSize (m.region.drop 16) = 12 := by cbv
  obtain ⟨rs, stop, total, hrs, htotal, -, -, hstop⟩ :=
    report_size_of_stop (m := m) rfl (by decide)
  rw [hitems] at hrs
  rcases rs with _ | ⟨r, _ | ⟨r', rs⟩⟩ <;> cases stop <;> simp at hrs
  obtain ⟨rfl, rfl⟩ := hrs
  obtain rfl : total = 16 := htotal
  rw [hdeclared] at hstop
  exact ⟨rfl, by decide, hitems, hstop.2⟩

end Message
end Igmp
