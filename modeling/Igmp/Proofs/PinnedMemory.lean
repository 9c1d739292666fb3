import Igmp.Proofs.BuiltInPlace
import Igmp.Proofs.PinnedBytes

/-! # What a fresh message keeps of its bytes, through every run of edits in place -/
namespace Igmp

/-- Bytes that are marked as a message of the kind: what the kind holds constant is as a fresh
message has it. -/
structure MessageKind.Marked (kind : MessageKind) (bytes : Bytes) : Prop where
  type_eq : bytes.byteAt 0 = kind.type.code
  second_eq : kind ≠ .v2Query → kind ≠ .v3Query → bytes.byteAt 1 = 0
  group_eq : kind = .v1Query → ∀ i, 4 ≤ i → i < 8 → bytes.byteAt i = 0
  flags_eq : kind = .v3Query → bytes.byteAt 8 &&& 0xf0 = 0
  reserved_eq : kind = .v3Report → ∀ i, 4 ≤ i → i < 6 → bytes.byteAt i = 0

theorem Bytes.and_f0_of_mod_eq {b : UInt8} (h : b % 16 = b) : b &&& 0xf0 = 0 := by
  rw [← h, ← and_0f, UInt8.and_assoc]
  exact UInt8.and_zero

theorem MessageKind.pin_of_eight_le {kind : MessageKind} (hv : kind.version ≤ 2) {i : Nat}
    (b : UInt8) (hi : 8 ≤ i) : kind.pin i b = b := by
  unfold pin
  split <;> simp_all [version]

/-- Before version 3, nothing behind the first eight bytes can be edited. -/
theorem Edit.stop_le_eight {kind : MessageKind} {e : Edit} (hv : kind.version ≤ 2)
    (ho : e.Offered kind) : e.stop ≤ 8 := by
  have hquery : kind ≠ .v3Query := by
    rintro rfl
    exact absurd hv (by decide)
  have hreport : kind ≠ .v3Report := by
    rintro rfl
    exact absurd hv (by decide)
  cases e with
  | checksum value | group value | responseTime value => simp [stop]
  | records rs => exact absurd ho hreport
  | _ => exact absurd ho hquery

namespace Message.Pinned

variable {kind : MessageKind} {room : Nat} {m : Message}

theorem marked (h : Pinned kind room m) : kind.Marked m.region := by
  have h8 := Nat.le_trans kind.eight_le_headerSize h.headerSize_le
  constructor
  case type_eq => exact (h.pin_eq 0 (by omega)).symm
  case second_eq =>
    intro hv2 hv3
    rw [← h.pin_eq 1 (by omega)]
    cases kind with
    | v2Query => exact absurd rfl hv2
    | v3Query => exact absurd rfl hv3
    | _ => rfl
  case group_eq =>
    rintro rfl i hi hi'
    rw [← h.pin_eq i (by omega)]
    obtain rfl | rfl | rfl | rfl : i = 4 ∨ i = 5 ∨ i = 6 ∨ i = 7 := by omega
    all_goals rfl
  case flags_eq =>
    rintro rfl
    exact Bytes.and_f0_of_mod_eq (h.pin_eq 8 (Nat.lt_of_lt_of_le (by decide) h.headerSize_le))
  case reserved_eq =>
    rintro rfl i hi hi'
    rw [← h.pin_eq i (by omega)]
    obtain rfl | rfl : i = 4 ∨ i = 5 := by omega
    all_goals rfl

theorem view_eq (h : Pinned kind room m) :
    view kind m.region = .ok ⟨kind, .readOnly, m.region⟩ := by
  have hroom : (Container.message kind).require kind.headerSize m.region.length = .ok () := by
    rw [Edit.require_eq_ok_iff, h.length_eq]
    exact h.headerSize_le
  have htype : Field.typeCode.get m.region = kind.type.code :=
    (Bytes.byteAt_slice (by decide)).trans h.marked.type_eq
  simp [view, hroom, htype, bind, Except.bind]

variable (hv : kind.version ≤ 2)

include hv

theorem drop_apply (h : Pinned kind room m) (e : Edit) :
    (m.apply e).region.drop 8 = m.region.drop 8 := by
  rw [Message.apply]
  cases he : m.edit e with
  | error error => rfl
  | ok edited =>
    obtain ⟨hoffered, -, rfl⟩ := (edit_eq_ok_iff h.writable h.headerSize_le_region).1 he
    rw [h.kind_eq] at hoffered
    apply Bytes.drop_mapIdx_of_eq
    intro i b hi
    exact Edit.stamp_outside b (.inr (Nat.le_trans (Edit.stop_le_eight hv hoffered) hi))

/-- What lies behind the header of a message before version 3 is not touched by any run of
edits. -/
theorem drop_applyAll (h : Pinned kind room m) (es : List Edit) :
    (m.applyAll es).region.drop 8 = m.region.drop 8 := by
  induction es generalizing m with
  | nil => rfl
  | cons e es ih => exact (ih (h.apply e)).trans (drop_apply hv h e)

end Message.Pinned

namespace Memory

/-- A message made in a buffer and then edited in any way, well or not, is marked as its kind to
the end, and keeps to the buffer and to what is its own there. -/
theorem created_stays_marked (kind : MessageKind) (buffer : Bytes)
    (h : kind.headerSize ≤ buffer.length) (es : List Edit) :
    ∃ s, (InPlace.create kind).run (ofBuffer buffer) = .ok () s ∧
      (∃ m, Message.create kind buffer = .ok m ∧
        (m.applyAll es).region = (s.editAll kind es).bytes) ∧
      (s.editAll kind es).bytes.length = buffer.length ∧
      kind.Marked (s.editAll kind es).bytes ∧
      (kind.version ≤ 2 → (s.editAll kind es).bytes.drop 8 = buffer.drop 8) ∧
      Message.view kind (s.editAll kind es).bytes =
        .ok ⟨kind, .readOnly, (s.editAll kind es).bytes⟩ := by
  refine ⟨_, create_ofBuffer h, ?_⟩
  have hm := Message.create_eq_ok h
  have hpinned := Message.pinned_of_create hm
  generalize hs : ofBuffer (buffer.mapIdx kind.pin) = s
  have hlen : s.bytes.length = buffer.length := by
    rw [← hs]
    exact List.length_mapIdx
  have hroom : s.room = buffer.length := by
    rw [← hs]
    exact List.length_mapIdx
  have hsize : kind.headerSize ≤ s.room := by rwa [hroom]
  have hkeeps := keeps_editAll hsize es
  have hregion : (Message.applyAll ⟨kind, .writable, buffer.mapIdx kind.pin⟩ es).region =
      (s.editAll kind es).bytes := by
    rw [← message_ofBuffer, hs, ← message_editAll hsize es]
    exact region_of_full (by rw [hkeeps.length_eq, hkeeps.room_eq, hlen, hroom])
  rw [← hregion]
  have hend := hpinned.applyAll es
  refine ⟨⟨_, hm, rfl⟩, hend.length_eq, hend.marked, ?_, hend.view_eq⟩
  intro hv
  rw [Message.Pinned.drop_applyAll hv hpinned es]
  exact Bytes.drop_mapIdx_of_eq fun i b hi => MessageKind.pin_of_eight_le hv b hi

/-- A query of version 1 takes a checksum and no group, and the byte behind it stays. -/
theorem created_stays_marked_query :
    ∃ s, (InPlace.create .v1Query).run (ofBuffer [1, 2, 3, 4, 5, 6, 7, 8, 9]) = .ok () s ∧
      s.editAll .v1Query [.group ⟨0xe0, 0, 0, 1⟩, .checksum 0xeeff] =
        ofBuffer [0x11, 0, 0xee, 0xff, 0, 0, 0, 0, 9] ∧
      MessageKind.v1Query.Marked
        (s.editAll .v1Query [.group ⟨0xe0, 0, 0, 1⟩, .checksum 0xeeff]).bytes := by
  obtain ⟨s, hrun, -, -, hmarked, -⟩ := created_stays_marked .v1Query
    [1, 2, 3, 4, 5, 6, 7, 8, 9] (by decide) [.group ⟨0xe0, 0, 0, 1⟩, .checksum 0xeeff]
  refine ⟨s, hrun, ?_, hmarked⟩
  cases hrun
  rfl

end Memory
end Igmp
