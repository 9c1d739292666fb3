import Igmp.Reading
import Igmp.Proofs.ChecksumEdit
import Igmp.Proofs.InPlaceEdit
import Igmp.Proofs.StoredFields

/-! # A message is valid where the calculated checksum is the one stored -/
namespace Igmp

theorem Bytes.byteAt_patch_outside {bs new : Bytes} {offset i : Nat}
    (h : offset + new.length ≤ bs.length) (hi : i < offset ∨ offset + new.length ≤ i) :
    (bs.patch offset new).byteAt i = bs.byteAt i := by
  rcases Nat.lt_or_ge i bs.length with hlt | hge
  · rw [patch_eq_mapIdx h, byteAt_mapIdx _ hlt, overlay_outside _ hi]
  · have hge' : (bs.patch offset new).length ≤ i := by rwa [patch_length bs offset new h]
    rw [byteAt, byteAt, List.getD_eq_default _ _ hge, List.getD_eq_default _ _ hge']

theorem Bytes.patch_patch_self {bs new : Bytes} {offset : Nat}
    (h : offset + new.length ≤ bs.length) :
    (bs.patch offset new).patch offset new = bs.patch offset new := by
  have hslice : (bs.patch offset new).slice offset new.length = new :=
    slice_patch bs offset new (by omega)
  have hfits : offset + new.length ≤ (bs.patch offset new).length := by
    rwa [patch_length bs offset new h]
  calc (bs.patch offset new).patch offset new
    _ = (bs.patch offset new).patch offset ((bs.patch offset new).slice offset new.length) := by
      rw [hslice]
    _ = bs.patch offset new := patch_slice hfits

namespace Message

variable {m : Message} (value : UInt16)

section WithChecksum

variable (h : 8 ≤ m.region.length)

include h

theorem get_withChecksum_before {α : Type} {f : Field α} (hf : f.offset + f.width ≤ 2) :
    f.get (m.withChecksum value).region = f.get m.region := by
  have hroom : 2 + (Bytes.ofWord value).length ≤ m.region.length :=
    Nat.le_trans (by decide : 4 ≤ 8) h
  have hslice : (m.region.patch 2 (Bytes.ofWord value)).slice f.offset f.width =
      m.region.slice f.offset f.width :=
    Bytes.slice_patch_of_disjoint _ _ _ _ _ hroom (.inl hf)
  exact congrArg f.decode hslice

theorem sources_withChecksum : (m.withChecksum value).sources = m.sources := by
  have hcount : (m.withChecksum value).sourceCount = m.sourceCount :=
    congrArg UInt16.toNat (get_withChecksum value h (by decide))
  rw [sources, sources, hcount, Bytes.slice, Bytes.slice, withChecksum,
    Checksum.drop_set value (by omega) (by decide)]

theorem get_withChecksum_of_ne {α : Type} (f : Field α)
    (hf : f.offset + f.width ≤ 2 ∨ 4 ≤ f.offset) :
    f.get (m.withChecksum value).region = f.get m.region := by
  rcases hf with hbefore | hbehind
  · exact get_withChecksum_before value h hbefore
  · exact get_withChecksum value h hbehind

/-- Nothing that is read from a message but its checksum depends on the checksum stored. -/
theorem reading_withChecksum : (m.withChecksum value).reading = m.reading := by
  refine reading_congr rfl ?_ ?_ ?_
  · exact fun f hf _ => get_withChecksum_of_ne value h f hf
  · exact fun _ => sources_withChecksum value h
  · exact fun _ => congrArg RecordCursor.items (records_withChecksum value h)

theorem group?_withChecksum : (m.withChecksum value).group? = m.group? :=
  group?_congr rfl fun f hf _ => get_withChecksum_of_ne value h f hf

theorem checksum_withChecksum : (m.withChecksum value).checksum = value :=
  Field.get_set (Field.word_lawful 2) value m.region (Nat.le_trans (by decide : 4 ≤ 8) h)

end WithChecksum

section Stored

variable (h : m.kind.headerSize ≤ m.region.length)

include h

/-- The sum does not take in the word that is written. -/
theorem calculatedChecksum_withChecksum :
    (m.withChecksum value).calculatedChecksum = m.calculatedChecksum := by
  have h8 := Nat.le_trans m.kind.eight_le_headerSize h
  have hsize := (size_bounds h).1
  have hcontent : 4 ≤ m.content.length := by
    rw [content_length h]
    omega
  rw [calculatedChecksum, content_withChecksum value h8 hsize, Checksum.ofMessage_set value hcontent,
    calculatedChecksum]

theorem hasValidChecksum_withChecksum_iff :
    (m.withChecksum value).hasValidChecksum = true ↔ value = m.calculatedChecksum := by
  have h8 := Nat.le_trans m.kind.eight_le_headerSize h
  rw [hasValidChecksum, decide_eq_true_iff, checksum_withChecksum value h8,
    calculatedChecksum_withChecksum value h]

end Stored

end Message

namespace Memory

variable {s : Memory} {kind : MessageKind}

/-- Of the message at the start of memory the checksum is stored, and nothing else is touched or
reads in another way. -/
structure StoresChecksum (kind : MessageKind) (value : UInt16) (s after : Memory) : Prop where
  length_eq : after.bytes.length = s.bytes.length
  byteAt_eq : ∀ i, i ≠ 2 → i ≠ 3 → after.bytes.byteAt i = s.bytes.byteAt i
  edit_eq : (s.message kind).edit (.checksum value) = .ok (after.message kind)
  checksum_eq : (after.message kind).checksum = value
  size_eq : (after.message kind).size = (s.message kind).size
  calculated_eq :
    (after.message kind).calculatedChecksum = (s.message kind).calculatedChecksum
  group_eq : (after.message kind).group? = (s.message kind).group?
  reading_eq : (after.message kind).reading = (s.message kind).reading
  valid_iff : (after.message kind).hasValidChecksum = true ↔
    value = (s.message kind).calculatedChecksum

section Run

variable (h : kind.headerSize ≤ s.room) (value : UInt16)

include h

theorem checksum_fits : 2 + (Bytes.ofWord value).length ≤ s.room :=
  Nat.le_trans (by decide : 4 ≤ 8) (Nat.le_trans kind.eight_le_headerSize h)

theorem message_write_checksum : (s.write 2 (Bytes.ofWord value)).message kind =
    (s.message kind).withChecksum value := by
  rw [message, region_write (checksum_fits h value)]
  rfl

variable (ha : s.access = .writable)

include ha

theorem stores_write_checksum :
    StoresChecksum kind value s (s.write 2 (Bytes.ofWord value)) := by
  have hmessage := message_write_checksum h value
  have hregion := headerSize_le_message h
  have h8 := Nat.le_trans kind.eight_le_headerSize hregion
  have hroom := Nat.le_trans (checksum_fits h value) s.room_le
  constructor
  case length_eq => exact Bytes.patch_length _ _ _ hroom
  case byteAt_eq =>
    intro i h2 h3
    apply Bytes.byteAt_patch_outside hroom
    rw [Bytes.ofWord_length]
    omega
  case edit_eq => rw [hmessage, Message.edit_checksum ha]
  case checksum_eq => rw [hmessage, Message.checksum_withChecksum value h8]
  case size_eq => rw [hmessage, Message.size_withChecksum value h8]
  case calculated_eq => rw [hmessage, Message.calculatedChecksum_withChecksum value hregion]
  case group_eq => rw [hmessage, Message.group?_withChecksum value h8]
  case reading_eq => rw [hmessage, Message.reading_withChecksum value h8]
  case valid_iff => rw [hmessage, Message.hasValidChecksum_withChecksum_iff value hregion]

theorem edit_checksum_run :
    (InPlace.edit kind (.checksum value)).run s = .ok () (s.write 2 (Bytes.ofWord value)) := by
  rw [InPlace.edit_run h, Message.edit_checksum ha, write_eq (checksum_fits h value)]
  rfl

end Run

/-- Any checksum can be stored, and shows in nothing but itself and whether the message is valid,
which it is where the checksum is the calculated one. To store that one a second time changes
nothing. -/
theorem stored_checksum_valid_iff (h : kind.headerSize ≤ s.room) (ha : s.access = .writable) :
    (∀ value, ∃ after, (InPlace.edit kind (.checksum value)).run s = .ok () after ∧
      StoresChecksum kind value s after) ∧
    ∃ valid, (InPlace.edit kind (s.message kind).checksumEdit).run s = .ok () valid ∧
      (valid.message kind).hasValidChecksum = true ∧
      (InPlace.edit kind (valid.message kind).checksumEdit).run valid = .ok () valid := by
  refine ⟨fun value => ⟨_, edit_checksum_run h value ha, stores_write_checksum h value ha⟩, ?_⟩
  have hstores := stores_write_checksum h (s.message kind).calculatedChecksum ha
  refine ⟨_, edit_checksum_run h _ ha, hstores.valid_iff.2 rfl, ?_⟩
  have hagain := Bytes.patch_patch_self
    (Nat.le_trans (checksum_fits h (s.message kind).calculatedChecksum) s.room_le)
  rw [Message.checksumEdit, hstores.calculated_eq, edit_checksum_run (s := s.write _ _) h _ ha]
  exact congrArg (EStateM.Result.ok ()) (ext_bytes hagain rfl rfl)

/-- A report that declares nine records and holds the start of one, with a byte behind it. -/
theorem stored_checksum_valid_iff_cut :
    let s : Memory :=
      ⟨[0x22, 7, 1, 2, 0, 0, 0, 9, 1, 0, 0, 5, 239, 1, 2, 3, 0xff], 16, .writable, by decide⟩
    MessageKind.v3Report.headerSize ≤ s.room ∧ s.access = .writable ∧
      (s.message .v3Report).records.items = [.error (.truncated 28 8)] ∧
      ∃ valid, (InPlace.edit .v3Report (s.message .v3Report).checksumEdit).run s = .ok () valid ∧
        (valid.message .v3Report).checksum = 0xebe5 ∧
        (valid.message .v3Report).hasValidChecksum = true ∧
        (InPlace.edit .v3Report (valid.message .v3Report).checksumEdit).run valid =
          .ok () valid := by
  intro s
  have hroom : MessageKind.v3Report.headerSize ≤ s.room := by decide
  have hcalculated : (s.message .v3Report).calculatedChecksum = 0xebe5 := by decide +kernel
  obtain ⟨hstores, valid, hrun, hvalid, hagain⟩ := stored_checksum_valid_iff hroom rfl
  obtain ⟨after, hrun', hafter⟩ := hstores (s.message .v3Report).calculatedChecksum
  obtain rfl : after = valid := (EStateM.Result.ok.inj (hrun'.symm.trans hrun)).2
  exact ⟨hroom, rfl, by decide, after, hrun, hafter.checksum_eq.trans hcalculated, hvalid, hagain⟩

end Memory
end Igmp
