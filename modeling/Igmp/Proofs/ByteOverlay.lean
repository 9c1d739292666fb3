import Igmp.Bytes
import Mathlib.Data.List.GetD

/-! # Writing over a run of bytes, one byte at a time -/
namespace Igmp.Bytes

/-- What becomes of the byte `b` at index `i` when `new` is written from `offset` on. -/
def overlay (offset : Nat) (new : Bytes) (i : Nat) (b : UInt8) : UInt8 :=
  if offset ≤ i then new.getD (i - offset) b else b

theorem overlay_outside {offset i : Nat} {new : Bytes} (b : UInt8)
    (h : i < offset ∨ offset + new.length ≤ i) :
    overlay offset new i b = b := by
  rcases h with h | h
  · exact if_neg (Nat.not_le.2 h)
  · rw [overlay, if_pos (by omega), List.getD_eq_default _ _ (by omega)]

/-- Inside, the old byte is lost. -/
theorem overlay_inside {offset i : Nat} {new : Bytes} (b : UInt8) (h : offset ≤ i)
    (h' : i < offset + new.length) :
    overlay offset new i b = new.byteAt (i - offset) := by
  have hi : i - offset < new.length := by omega
  rw [overlay, if_pos h, byteAt, List.getD_eq_getElem _ _ hi, List.getD_eq_getElem _ _ hi]

theorem overlay_overlay_self (offset : Nat) (new : Bytes) (i : Nat) (b : UInt8) :
    overlay offset new i (overlay offset new i b) = overlay offset new i b := by
  have hcases :
      (i < offset ∨ offset + new.length ≤ i) ∨ offset ≤ i ∧ i < offset + new.length := by omega
  rcases hcases with h | ⟨h, h'⟩
  · rw [overlay_outside b h, overlay_outside b h]
  · rw [overlay_inside _ h h', overlay_inside _ h h']

theorem overlay_comm {offset offset' : Nat} {new new' : Bytes} (i : Nat) (b : UInt8)
    (h : offset + new.length ≤ offset' ∨ offset' + new'.length ≤ offset) :
    overlay offset new i (overlay offset' new' i b) =
      overlay offset' new' i (overlay offset new i b) := by
  have hcases :
      (i < offset ∨ offset + new.length ≤ i) ∨ i < offset' ∨ offset' + new'.length ≤ i := by omega
  rcases hcases with h | h
  · rw [overlay_outside _ h, overlay_outside b h]
  · rw [overlay_outside b h, overlay_outside _ h]

theorem overlay_append (offset : Nat) (new more : Bytes) (i : Nat) (b : UInt8) :
    overlay offset (new ++ more) i b =
      overlay (offset + new.length) more i (overlay offset new i b) := by
  rcases Nat.lt_or_ge i (offset + new.length) with h | h
  · rw [overlay_outside _ (.inl h)]
    rcases Nat.lt_or_ge i offset with h' | h'
    · rw [overlay_outside b (.inl h'), overlay_outside b (.inl h')]
    · have hi : i - offset < new.length := by omega
      rw [overlay_inside b h' (by simp; omega), overlay_inside b h' h, byteAt, byteAt,
        List.getD_append _ _ _ _ hi]
  · have hafter : overlay offset new i b = b := overlay_outside b (.inr h)
    rw [hafter, overlay, overlay, if_pos (by omega), if_pos h,
      List.getD_append_right _ _ _ _ (by omega), Nat.sub_sub]

theorem and_ff (b : UInt8) : b &&& 0xff = b := by
  apply UInt8.toNat_inj.mp
  rw [UInt8.toNat_and]
  have h := Nat.and_two_pow_sub_one_eq_mod b.toNat 8
  have hb := b.toNat_lt
  simp only [Nat.reducePow, Nat.reduceSub, UInt8.reduceToNat] at h ⊢
  omega

theorem and_0f (b : UInt8) : b &&& 0x0f = b % 16 := by
  apply UInt8.toNat_inj.mp
  rw [UInt8.toNat_and, UInt8.toNat_mod]
  exact Nat.and_two_pow_sub_one_eq_mod b.toNat 4

theorem word_toNat (hi lo : UInt8) : (word hi lo).toNat = hi.toNat * 256 + lo.toNat := by
  have h := hi.toNat_lt
  have h' := lo.toNat_lt
  rw [word, UInt16.toNat_ofNat']
  omega

theorem byteAt_eq_getElem {bs : Bytes} {i : Nat} (h : i < bs.length) : bs.byteAt i = bs[i] := by
  rw [byteAt, List.getD_eq_getElem _ _ h]

theorem byteAt_mapIdx {bs : Bytes} {i : Nat} (f : Nat → UInt8 → UInt8) (h : i < bs.length) :
    Bytes.byteAt (bs.mapIdx f) i = f i (bs.byteAt i) := by
  rw [byteAt_eq_getElem (by simpa using h), List.getElem_mapIdx, byteAt_eq_getElem h]

theorem ext_byteAt {xs ys : Bytes} (hl : xs.length = ys.length)
    (h : ∀ i < xs.length, xs.byteAt i = ys.byteAt i) :
    xs = ys := by
  apply List.ext_getElem hl
  intro i hx hy
  rw [← byteAt_eq_getElem hx, ← byteAt_eq_getElem hy]
  exact h i hx

theorem byteAt_take {bs : Bytes} {i n : Nat} (h : i < n) :
    Bytes.byteAt (bs.take n) i = bs.byteAt i := by
  simp [byteAt, List.getD_eq_getElem?_getD, h]

theorem byteAt_drop (bs : Bytes) (n i : Nat) : Bytes.byteAt (bs.drop n) i = bs.byteAt (n + i) := by
  simp [byteAt, List.getD_eq_getElem?_getD]

theorem byteAt_slice {bs : Bytes} {offset width i : Nat} (h : i < width) :
    (bs.slice offset width).byteAt i = bs.byteAt (offset + i) := by
  rw [slice, byteAt_take h, byteAt_drop]

theorem drop_mapIdx_of_eq {f : Nat → UInt8 → UInt8} {n : Nat} {bs : Bytes}
    (h : ∀ i b, n ≤ i → f i b = b) : (bs.mapIdx f).drop n = bs.drop n := by
  apply ext_byteAt
  · rw [List.length_drop, List.length_drop, List.length_mapIdx]
  intro i hi
  rw [List.length_drop, List.length_mapIdx] at hi
  rw [byteAt_drop, byteAt_drop, byteAt_mapIdx f (by omega), h _ _ (Nat.le_add_right n i)]

/-- Writing over a run is a change of each byte by itself. -/
theorem patch_eq_mapIdx {bs : Bytes} {offset : Nat} {new : Bytes}
    (h : offset + new.length ≤ bs.length) :
    bs.patch offset new = bs.mapIdx (overlay offset new) := by
  apply List.ext_getElem
  · rw [patch_length bs offset new h, List.length_mapIdx]
  intro i hi hi'
  rw [List.getElem_mapIdx]
  have hl : (bs.take offset).length = offset := by simp; omega
  simp only [patch]
  rcases Nat.lt_or_ge i offset with hb | hb
  · rw [List.getElem_append_left (by omega), List.getElem_take, overlay_outside _ (.inl hb)]
  · rw [List.getElem_append_right (by omega)]
    rcases Nat.lt_or_ge i (offset + new.length) with ha | ha
    · rw [List.getElem_append_left (by omega), overlay_inside _ hb ha, byteAt_eq_getElem (by omega)]
      simp only [hl]
    · rw [List.getElem_append_right (by omega), overlay_outside _ (.inr ha), List.getElem_drop]
      congr 1
      omega

theorem patch_append {bs new : Bytes} {offset : Nat} (h : offset ≤ bs.length) (more : Bytes) :
    (bs.patch offset new).patch (offset + new.length) more = bs.patch offset (new ++ more) := by
  have hl : (bs.take offset ++ new).length = offset + new.length := by
    rw [List.length_append, List.length_take, Nat.min_eq_left h]
  have hassoc :
      bs.patch offset new = (bs.take offset ++ new) ++ bs.drop (offset + new.length) := by
    rw [patch, List.append_assoc]
  rw [hassoc, patch, List.take_left' hl, ← List.drop_drop, List.drop_left' hl, List.drop_drop,
    patch, List.length_append, Nat.add_assoc]
  simp only [List.append_assoc]

/-- Writing leaves alone what lies before and behind. -/
theorem slice_patch_of_disjoint (bs : Bytes) (offset : Nat) (new : Bytes) (start width : Nat)
    (h : offset + new.length ≤ bs.length)
    (hd : start + width ≤ offset ∨ offset + new.length ≤ start) :
    (bs.patch offset new).slice start width = bs.slice start width := by
  have hl := patch_length bs offset new h
  apply ext_byteAt
  · rw [slice_length, slice_length, hl]
  intro i hi
  rw [slice_length, hl] at hi
  rw [byteAt_slice (by omega), byteAt_slice (by omega), patch_eq_mapIdx h,
    byteAt_mapIdx _ (by omega)]
  apply overlay_outside
  omega

end Igmp.Bytes
