import Igmp.Proofs.BuiltInPlace
import Igmp.Proofs.ChecksumEdit
import Igmp.Proofs.PinnedBytes
import Igmp.Proofs.RecordWalk
import Igmp.Proofs.StoredFields
import Mathlib.Algebra.GroupWithZero.Nat

/-! # A report reads as the records that were written last -/
namespace Igmp

namespace GroupRecord

theorem totalSize_eq_sum (rs : List GroupRecord) : totalSize rs = (rs.map size).sum := by
  induction rs with
  | nil => rfl
  | cons r rs ih => rw [totalSize_cons, ih, List.map_cons, List.sum_cons]

end GroupRecord

namespace Message

/-- The lists of records that a run of edits writes, in order. Those that are refused are left
out. -/
def recordsTaken : Message → List Edit → List (List GroupRecord)
  | _, [] => []
  | m, .records rs :: es =>
    match m.edit (.records rs) with
    | .ok edited => rs :: edited.recordsTaken es
    | .error _ => m.recordsTaken es
  | m, e :: es => (m.apply e).recordsTaken es

/-- A report over a region that may be written. -/
structure OpenReport (m : Message) : Prop where
  kind_eq : m.kind = .v3Report
  writable : m.access = .writable
  eight_le : 8 ≤ m.region.length

variable {m edited : Message} {rs : List GroupRecord}

namespace OpenReport

theorem headerSize_le (h : m.OpenReport) : m.kind.headerSize ≤ m.region.length := by
  rw [h.kind_eq]
  exact h.eight_le

theorem edit_records_iff (h : m.OpenReport) :
    m.edit (.records rs) = .ok edited ↔
      (Edit.records rs).Fits m.region.length ∧
        edited = { m with region := m.region.mapIdx (Edit.records rs).stamp } := by
  rw [edit_eq_ok_iff h.writable h.headerSize_le]
  exact and_iff_right h.kind_eq

/-- The records that fit their places and the region are taken, all others refused. -/
theorem edit_records_ok_iff (h : m.OpenReport) :
    (∃ edited, m.edit (.records rs) = .ok edited) ↔
      rs.length ≤ 65535 ∧ (∀ r ∈ rs, r.sources.length ≤ 65535 ∧ r.auxiliary.length ≤ 255) ∧
        8 + (rs.map GroupRecord.size).sum ≤ m.region.length := by
  simp only [h.edit_records_iff, Edit.Fits, GroupRecord.fault?_eq_none_iff,
    GroupRecord.totalSize_eq_sum, exists_and_left, exists_eq, and_true]

theorem of_edit (h : m.OpenReport) (he : m.edit (.records rs) = .ok edited) :
    edited.OpenReport := by
  obtain ⟨-, rfl⟩ := h.edit_records_iff.1 he
  exact ⟨h.kind_eq, h.writable, by simpa using h.eight_le⟩

theorem withChecksum (h : m.OpenReport) (value : UInt16) : (m.withChecksum value).OpenReport := by
  refine ⟨h.kind_eq, h.writable, ?_⟩
  have h8 := h.eight_le
  rwa [Message.withChecksum, Checksum.length_set value (by omega)]

section Edited

variable (h : m.OpenReport) (he : m.edit (.records rs) = .ok edited)

include h he

theorem stored : (Edit.records rs).Stored edited.region := by
  obtain ⟨hfits, rfl⟩ := h.edit_records_iff.1 he
  exact Edit.stored_stamp hfits.2.2

theorem fits : rs.length ≤ 65535 ∧ ∀ r ∈ rs, r.fault? = none := by
  obtain ⟨⟨hcount, hvalid, -⟩, -⟩ := h.edit_records_iff.1 he
  exact ⟨hcount, hvalid⟩

theorem recordCount_eq : edited.recordCount = rs.length :=
  (h.stored he).recordCount_toNat (h.fits he).1

theorem items_eq : edited.records.items = rs.map .ok := by
  obtain ⟨rest, hrest⟩ := (h.stored he).drop_eq
  rw [records, h.recordCount_eq he, hrest, RecordCursor.items_layouts (h.fits he).2]

theorem size_eq : edited.size = 8 + (rs.map GroupRecord.size).sum := by
  obtain ⟨rest, hrest⟩ := (h.stored he).drop_eq
  have hstop := (h.stored he).stop_le
  have hkind : edited.kind = .v3Report := (h.of_edit he).kind_eq
  simp only [size, hkind, h.recordCount_eq he, hrest, GroupRecord.runEnd_layouts (h.fits he).2]
  rw [← GroupRecord.totalSize_eq_sum]
  exact Nat.min_eq_left hstop

theorem length_eq : edited.region.length = m.region.length := by
  obtain ⟨-, rfl⟩ := h.edit_records_iff.1 he
  exact List.length_mapIdx

/-- The count, which starts at index six, and the records are all that is written. -/
theorem byteAt_eq {i : Nat} (hi : i < 6 ∨ edited.size ≤ i) :
    edited.region.byteAt i = m.region.byteAt i := by
  rw [h.size_eq he, ← GroupRecord.totalSize_eq_sum] at hi
  have hlen := h.length_eq he
  obtain ⟨-, rfl⟩ := h.edit_records_iff.1 he
  rcases Nat.lt_or_ge i m.region.length with hlt | hge
  · rw [Bytes.byteAt_mapIdx _ hlt]
    exact Edit.stamp_outside _ hi
  · rw [Bytes.byteAt, Bytes.byteAt, List.getD_eq_default _ _ hge,
      List.getD_eq_default _ _ (by rw [hlen]; exact hge)]

end Edited

/-- The records that are read after a run of edits of the records and of the checksum. -/
theorem items_applyAll (h : m.OpenReport) {es : List Edit}
    (hes : ∀ e ∈ es, e.place = .checksum ∨ e.place = .records) :
    (m.applyAll es).records.items =
      ((m.recordsTaken es).getLast?.map (List.map .ok)).getD m.records.items := by
  induction es generalizing m with
  | nil => rfl
  | cons e es ih =>
    have hrest : ∀ e ∈ es, e.place = .checksum ∨ e.place = .records :=
      fun e he => hes e (List.mem_cons_of_mem _ he)
    have hrun : m.applyAll (e :: es) = (m.apply e).applyAll es := rfl
    rw [hrun]
    cases e with
    | checksum value =>
      have happly : m.apply (.checksum value) = m.withChecksum value := by
        rw [apply, edit_checksum h.writable]
      rw [recordsTaken, happly, ih (h.withChecksum value) hrest,
        records_withChecksum value h.eight_le]
      simp
    | records rs =>
      cases he : m.edit (.records rs) with
      | error cause => simp only [apply, recordsTaken, he, ih h hrest]
      | ok edited =>
        simp only [apply, recordsTaken, he, ih (h.of_edit he) hrest, h.items_eq he]
        rw [List.getLast?_cons]
        cases (edited.recordsTaken es).getLast? <;> rfl
    | _ => simp [Edit.place] at hes

section InMemory

variable (h : m.OpenReport) {s : Memory} (hs : s.message .v3Report = m)

include h hs

theorem eight_le_room : MessageKind.v3Report.headerSize ≤ s.room := by
  rw [← s.message_room .v3Report, hs]
  exact h.eight_le

theorem records_run (he : m.edit (.records rs) = .ok edited) :
    ∃ after, (InPlace.edit .v3Report (.records rs)).run s = .ok () after ∧
      after.message .v3Report = edited ∧ after.bytes.length = s.bytes.length ∧
      ∀ i, i < 6 ∨ edited.size ≤ i → after.bytes.byteAt i = s.bytes.byteAt i := by
  obtain ⟨after, hrun, hafter, hkeeps⟩ :=
    Memory.run_of_edit (h.eight_le_room hs) (by rwa [hs])
  refine ⟨after, hrun, hafter, hkeeps.length_eq, fun i hi => hkeeps.byteAt_eq ?_⟩
  calc after.region.byteAt i
    _ = edited.region.byteAt i := by rw [← hafter, Memory.message]
    _ = m.region.byteAt i := h.byteAt_eq he hi
    _ = s.region.byteAt i := by rw [← hs, Memory.message]

theorem records_run_error {error : EditError} (he : m.edit (.records rs) = .error error) :
    (InPlace.edit .v3Report (.records rs)).run s = .error (.told error) s := by
  rw [InPlace.edit_run (h.eight_le_room hs), hs, he]

end InMemory

end OpenReport

/-- Which lists of records a report takes, what is read of it afterwards, and that neither lists
that were longer nor edits that failed show through. All this is so where the report lies in memory
and is edited write by write. -/
theorem report_reads_last_written (h : m.OpenReport) :
    (∀ rs : List GroupRecord, (∃ edited, m.edit (.records rs) = .ok edited) ↔
      rs.length ≤ 65535 ∧ (∀ r ∈ rs, r.sources.length ≤ 65535 ∧ r.auxiliary.length ≤ 255) ∧
        8 + (rs.map GroupRecord.size).sum ≤ m.region.length) ∧
    (∀ rs edited, m.edit (.records rs) = .ok edited →
      edited.recordCount = rs.length ∧ edited.records.items = rs.map .ok ∧
        edited.size = 8 + (rs.map GroupRecord.size).sum ∧
        edited.region.length = m.region.length ∧
        ∀ i, i < 6 ∨ edited.size ≤ i → edited.region.byteAt i = m.region.byteAt i) ∧
    (∀ es : List Edit, (∀ e ∈ es, e.place = .checksum ∨ e.place = .records) →
      ∀ rs, (m.recordsTaken es).getLast? = some rs →
        (m.applyAll es).records.items = rs.map .ok) ∧
    ∀ s : Memory, s.message .v3Report = m →
      (∀ rs edited, m.edit (.records rs) = .ok edited →
        ∃ after, (InPlace.edit .v3Report (.records rs)).run s = .ok () after ∧
          after.message .v3Report = edited ∧ after.bytes.length = s.bytes.length ∧
          ∀ i, i < 6 ∨ edited.size ≤ i → after.bytes.byteAt i = s.bytes.byteAt i) ∧
      (∀ rs error, m.edit (.records rs) = .error error →
        (InPlace.edit .v3Report (.records rs)).run s = .error (.told error) s) ∧
      ∀ es : List Edit, (∀ e ∈ es, e.place = .checksum ∨ e.place = .records) →
        ∀ rs, (m.recordsTaken es).getLast? = some rs →
          ((s.editAll .v3Report es).message .v3Report).records.items = rs.map .ok := by
  have hlaw : ∀ es : List Edit, (∀ e ∈ es, e.place = .checksum ∨ e.place = .records) →
      ∀ rs, (m.recordsTaken es).getLast? = some rs →
        (m.applyAll es).records.items = rs.map .ok := by
    intro es hes rs hlast
    rw [h.items_applyAll hes, hlast]
    rfl
  refine ⟨fun rs => h.edit_records_ok_iff, ?_, hlaw, fun s hs => ⟨?_, ?_, ?_⟩⟩
  · intro rs edited he
    exact ⟨h.recordCount_eq he, h.items_eq he, h.size_eq he, h.length_eq he,
      fun i hi => h.byteAt_eq he hi⟩
  · exact fun rs edited he => h.records_run hs he
  · exact fun rs error he => h.records_run_error hs he
  · intro es hes rs hlast
    rw [Memory.message_editAll (h.eight_le_room hs), hs]
    exact hlaw es hes rs hlast

/-- A short list after a long one, with lists that do not fit in between and behind. -/
theorem report_reads_last_written_short :
    let m : Message := ⟨.v3Report, .writable, List.replicate 40 0xff⟩
    let long : GroupRecord :=
      ⟨.blockOldSources, ⟨239, 1, 2, 3⟩, [⟨10, 0, 0, 1⟩, ⟨10, 0, 0, 2⟩], [⟨1, 2, 3, 4⟩]⟩
    let short : GroupRecord := ⟨.modeIsInclude, ⟨239, 1, 2, 4⟩, [], []⟩
    let es : List Edit := [.records [long, short], .checksum 0x1234, .records [long, long],
      .records [short], .checksum 0, .records [long, long]]
    let s : Memory := .ofBuffer (List.replicate 40 0xff)
    m.OpenReport ∧ (∃ edited, m.edit (.records [long, short]) = .ok edited) ∧
      m.recordsTaken es = [[long, short], [short]] ∧
      (m.applyAll es).records.items = [.ok short] ∧ s.message .v3Report = m ∧
      ((s.editAll .v3Report es).message .v3Report).records.items = [.ok short] := by
  intro m long short es s
  have hm : m.OpenReport := ⟨rfl, rfl, by decide⟩
  have hs : s.message .v3Report = m := Memory.message_ofBuffer .v3Report _
  obtain ⟨htakes, -, hreads, hmemory⟩ := report_reads_last_written hm
  obtain ⟨-, -, hread⟩ := hmemory s hs
  have htaken : m.recordsTaken es = [[long, short], [short]] := by decide
  have hlast : (m.recordsTaken es).getLast? = some [short] := by
    rw [htaken]
    rfl
  exact ⟨hm, (htakes [long, short]).2 (by decide), htaken, hreads es (by decide) [short] hlast, hs,
    hread es (by decide) [short] hlast⟩

end Message
end Igmp
