import Igmp.Proofs.EditRun

/-! # What no run of edits changes in a fresh message -/
namespace Igmp

namespace Message

variable {m edited : Message} {e : Edit}

/-- An edit of a writable message is a change of each byte, and fails for want of the field or of
room. -/
theorem edit_eq_ok_iff (hw : m.access = .writable) (hr : m.kind.headerSize ≤ m.region.length) :
    m.edit e = .ok edited ↔
      e.Offered m.kind ∧ e.Fits m.region.length ∧
        edited = { m with region := m.region.mapIdx e.stamp } := by
  rw [← and_assoc, ← Edit.check_eq_ok_iff]
  cases hc : e.check m.kind m.region.length with
  | error cause => simp [edit, hc, bind, Except.bind]
  | ok done =>
    rw [edit_eq_ok hw hr hc, Except.ok.injEq]
    exact ⟨fun h => ⟨rfl, h.symm⟩, fun h => h.2.symm⟩

/-- A writable message of `kind` over `room` bytes whose pinned bits are as a fresh message has
them. -/
structure Pinned (kind : MessageKind) (room : Nat) (m : Message) : Prop where
  kind_eq : m.kind = kind
  writable : m.access = .writable
  length_eq : m.region.length = room
  headerSize_le : kind.headerSize ≤ room
  pin_eq : ∀ i < room, kind.pin i (m.region.byteAt i) = m.region.byteAt i

variable {kind : MessageKind} {room : Nat}

theorem pinned_of_create {buffer : Bytes} (h : create kind buffer = .ok m) :
    Pinned kind buffer.length m := by
  have hr : kind.headerSize ≤ buffer.length := by
    rw [← Edit.require_eq_ok_iff (.message kind)]
    cases hc : (Container.message kind).require kind.headerSize buffer.length with
    | error cause => simp [create, hc, bind, Except.bind] at h
    | ok done => rfl
  rw [create_eq_ok hr, Except.ok.injEq] at h
  subst h
  refine ⟨rfl, rfl, by simp, hr, ?_⟩
  intro i hi
  simp only [Bytes.byteAt_mapIdx _ hi, MessageKind.pin_pin]

namespace Pinned

theorem headerSize_le_region (h : Pinned kind room m) : m.kind.headerSize ≤ m.region.length := by
  rw [h.kind_eq, h.length_eq]
  exact h.headerSize_le

theorem edit (h : Pinned kind room m) (he : m.edit e = .ok edited) : Pinned kind room edited := by
  obtain ⟨hoffered, -, rfl⟩ := (edit_eq_ok_iff h.writable h.headerSize_le_region).1 he
  rw [h.kind_eq] at hoffered
  refine ⟨h.kind_eq, h.writable, by simp [h.length_eq], h.headerSize_le, ?_⟩
  intro i hi
  have hi' : i < m.region.length := by rwa [h.length_eq]
  simp only [Bytes.byteAt_mapIdx _ hi', Edit.pin_stamp hoffered, h.pin_eq i hi]

theorem apply (h : Pinned kind room m) (e : Edit) : Pinned kind room (m.apply e) := by
  rw [Message.apply]
  cases he : m.edit e with
  | error cause => exact h
  | ok edited => exact h.edit he

/-- The bits that a fresh message pins stay as they are, whichever edits are tried. -/
theorem applyAll (h : Pinned kind room m) (es : List Edit) : Pinned kind room (m.applyAll es) := by
  induction es generalizing m with
  | nil => exact h
  | cons e es ih => exact ih (h.apply e)

end Pinned

end Message
end Igmp
