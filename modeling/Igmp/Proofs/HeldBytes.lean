import Igmp.Proofs.DraftReading

/-! # A region is determined by the values it holds -/
namespace Igmp

namespace Edit

variable {e : Edit} {region region' : Bytes}

namespace Stored

theorem byteAt_eq (h : e.Stored region) (h' : e.Stored region') {i : Nat} (hs : e.start ≤ i)
    (ht : i < e.stop) (h8 : e.start ≠ 8) : region.byteAt i = region'.byteAt i := by
  calc region.byteAt i
    _ = e.stamp i (region.byteAt i) :=
      ((stored_iff h.stop_le).1 h i (Nat.lt_of_lt_of_le ht h.stop_le)).symm
    _ = e.stamp i (region'.byteAt i) := stamp_inside _ _ hs ht h8
    _ = region'.byteAt i := (stored_iff h'.stop_le).1 h' i (Nat.lt_of_lt_of_le ht h'.stop_le)

theorem take (h : e.Stored region) {n : Nat} (hn : e.stop ≤ n) : e.Stored (region.take n) := by
  have hstop := h.stop_le
  rw [stored_iff (by rw [List.length_take]; omega)]
  intro i hi
  rw [List.length_take] at hi
  rw [Bytes.byteAt_take (by omega)]
  exact (stored_iff hstop).1 h i (by omega)

theorem pin (h : e.Stored region) {kind : MessageKind} (ho : e.Offered kind) :
    e.Stored (region.mapIdx kind.pin) := by
  rw [stored_iff (by simpa using h.stop_le)]
  intro i hi
  rw [List.length_mapIdx] at hi
  rw [Bytes.byteAt_mapIdx _ hi, ← pin_stamp ho, (stored_iff h.stop_le).1 h i hi]

/-- A field that is set to what was read from it. -/
theorem of_get {α : Type} {f : Field α} (hf : f.Faithful) (hl : e.stop ≤ region.length)
    (hstop : f.offset + f.width = e.stop) (hw : e.write region = f.set (f.get region) region) :
    e.Stored region := by
  refine ⟨hl, ?_⟩
  rw [hw, Field.set_get hf (by rw [hstop]; exact hl)]

end Stored

end Edit

namespace Draft.Holds

variable {d : Draft} {region region' : Bytes}

theorem byteAt_flags {c : MaxResponseCode} {group : Address} {suppress : Bool}
    {robustness : Robustness} {interval : QueryIntervalCode} {sources : List Address}
    (h : (v3Query c group suppress robustness interval sources).Holds region) :
    region.byteAt 8 = QueryFlags.toByte ⟨0, suppress, robustness⟩ := by
  have hslice : (region.slice 8 1).byteAt 0 = region.byteAt 8 := Bytes.byteAt_slice (by decide)
  have hsuppress : (QueryFlags.ofByte (region.byteAt 8)).suppress = suppress := by
    rw [← hslice]
    exact (h.stored (.suppress suppress) (by simp [edits])).suppress_eq
  have hrobustness : (QueryFlags.ofByte (region.byteAt 8)).robustness = robustness := by
    rw [← hslice]
    exact (h.stored (.robustness robustness) (by simp [edits])).robustness_eq
  have hreserved : (QueryFlags.ofByte (region.byteAt 8)).reserved = 0 := by
    have hp : region.byteAt 8 % 16 = region.byteAt 8 := h.pinned 8 (by
      rw [h.length_eq, size]
      omega)
    have hn := congrArg UInt8.toNat hp
    rw [UInt8.toNat_mod] at hn
    apply Fin.ext
    simp only [QueryFlags.ofByte, UInt8.reduceToNat] at hn ⊢
    omega
  rw [← QueryFlags.toByte_ofByte (region.byteAt 8)]
  congr 1
  rw [← hsuppress, ← hrobustness, ← hreserved]

/-- The values and the checksum leave no byte open. -/
theorem unique (h : d.Holds region) (h' : d.Holds region') {value : UInt16}
    (hc : (Edit.checksum value).Stored region) (hc' : (Edit.checksum value).Stored region') :
    region = region' := by
  apply Bytes.ext_byteAt (by rw [h.length_eq, h'.length_eq])
  -- Each byte is pinned or lies in what one edit wrote, but for the flag byte, which a pin and two
  -- edits share.
  intro i hi
  rw [h.length_eq] at hi
  have hedit : ∀ e ∈ d.edits, e.start ≤ i → i < e.stop → e.start ≠ 8 →
      region.byteAt i = region'.byteAt i := by
    intro e he
    exact (h.stored e he).byteAt_eq (h'.stored e he)
  have hpin : ∀ b, i < 8 → (∀ x, d.kind.pin i x = b) → region.byteAt i = region'.byteAt i := by
    intro b hi8 hp
    rw [h.byteAt_eq hi8 hp, h'.byteAt_eq hi8 hp]
  by_cases h0 : i = 0
  · rw [h0, h.byteAt_zero, h'.byteAt_zero]
  by_cases h2 : 2 ≤ i ∧ i < 4
  · exact hc.byteAt_eq hc' h2.1 h2.2 (by simp [Edit.start])
  cases d with
  | v1Query =>
    simp only [size] at hi
    have hcases : i = 1 ∨ i = 4 ∨ i = 5 ∨ i = 6 ∨ i = 7 := by omega
    rcases hcases with rfl | rfl | rfl | rfl | rfl <;> exact hpin 0 (by omega) fun x => rfl
  | v1Report group | v2Report group | v2Leave group =>
    simp only [size] at hi
    by_cases h1 : i = 1
    · subst h1
      exact hpin 0 (by omega) fun x => rfl
    · apply hedit (.group group) <;> simp [edits, Edit.start, Edit.stop] <;> omega
  | v2Query responseTime group =>
    simp only [size] at hi
    by_cases h1 : i = 1
    · apply hedit (.responseTime responseTime) <;> simp [edits, Edit.start, Edit.stop, h1]
    · apply hedit (.group group) <;> simp [edits, Edit.start, Edit.stop] <;> omega
  | v3Query c group suppress robustness interval sources =>
    simp only [size] at hi
    by_cases h1 : i = 1
    · apply hedit (.maxResponseCode c) <;> simp [edits, Edit.start, Edit.stop, h1]
    by_cases h8 : i < 8
    · apply hedit (.group group) <;> simp [edits, Edit.start, Edit.stop] <;> omega
    by_cases hflags : i = 8
    · rw [hflags, h.byteAt_flags, h'.byteAt_flags]
    by_cases h9 : i = 9
    · apply hedit (.queryInterval interval) <;> simp [edits, Edit.start, Edit.stop, h9]
    · apply hedit (.sources sources) <;> simp [edits, Edit.start, Edit.stop] <;> omega
  | v3Report records =>
    simp only [size] at hi
    by_cases hcases : i = 1 ∨ i = 4 ∨ i = 5
    · rcases hcases with rfl | rfl | rfl <;> exact hpin 0 (by omega) fun x => rfl
    · apply hedit (.records records) <;> simp [edits, Edit.start, Edit.stop] <;> omega

end Draft.Holds
end Igmp
