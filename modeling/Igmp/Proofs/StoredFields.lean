import Igmp.Proofs.EditRun

/-! # What a region holds where an edit would change nothing -/
namespace Igmp
open Bytes

theorem Bytes.patch_slice {bs : Bytes} {offset width : Nat} (h : offset + width ≤ bs.length) :
    bs.patch offset (bs.slice offset width) = bs := by
  have hl : (bs.slice offset width).length = width := by
    rw [slice_length]
    omega
  rw [patch, hl, slice, ← List.drop_drop, List.take_append_drop, List.take_append_drop]

namespace Field

variable {α : Type} {f : Field α} {region : Bytes}

/-- A field that writes back the bytes it was read from. -/
def Faithful (f : Field α) : Prop :=
  ∀ old : Bytes, old.length = f.width → f.encode (f.decode old) old = old

theorem set_get (hf : f.Faithful) (h : f.offset + f.width ≤ region.length) :
    f.set (f.get region) region = region := by
  have hl : (region.slice f.offset f.width).length = f.width := by
    rw [slice_length]
    omega
  rw [set, get, hf _ hl, patch_slice h]

theorem get_of_set_eq {value : α} (hf : f.Lawful) (h : f.offset + f.width ≤ region.length)
    (hs : f.set value region = region) : f.get region = value := by
  calc f.get region = f.get (f.set value region) := by rw [hs]
    _ = value := get_set hf value region h

theorem byte_faithful {offset : Nat} {decode : UInt8 → α} {encode : α → UInt8}
    (h : ∀ b, encode (decode b) = b) :
    (byte offset decode encode).Faithful := by
  intro old hl
  match old, hl with
  | [b], _ => exact congrArg (fun b => [b]) (h b)

theorem flags_faithful {decode : QueryFlags → α} {encode : α → QueryFlags → QueryFlags}
    (h : ∀ flags, encode (decode flags) flags = flags) : (flags decode encode).Faithful := by
  intro old hl
  match old, hl with
  | [b], _ =>
    have hb : (encode (decode (.ofByte b)) (.ofByte b)).toByte = b := by
      rw [h, QueryFlags.toByte_ofByte]
    exact congrArg (fun b => [b]) hb

theorem word_faithful (offset : Nat) : (word offset).Faithful := by
  intro old hl
  match old, hl with
  | [hi, lo], _ => exact ofWord_word hi lo

theorem group_faithful : group.Faithful := by
  intro old hl
  match old, hl with
  | [a, b, c, d], _ => rfl

/-- A list with its number before it: nothing changes exactly where both are there. -/
theorem word_set_patch_eq_self_iff (start : Nat) {list : Bytes} {count : UInt16}
    (h : start + 2 + list.length ≤ region.length) :
    (word start).set count (region.patch (start + 2) list) = region ↔
      (word start).get region = count ∧ region.slice (start + 2) list.length = list := by
  have hl := patch_length region (start + 2) list h
  have hword :
      (word start).offset + (word start).width ≤ (region.patch (start + 2) list).length := by
    rw [hl]
    exact Nat.le_trans (Nat.le_add_right _ _) h
  constructor
  · intro hs
    constructor
    · calc (word start).get region
        _ = (word start).get ((word start).set count (region.patch (start + 2) list)) := by rw [hs]
        _ = count := get_set (word_lawful start) count _ hword
    · calc region.slice (start + 2) list.length
        _ = ((word start).set count (region.patch (start + 2) list)).slice (start + 2)
            list.length := by rw [hs]
        _ = (region.patch (start + 2) list).slice (start + 2) list.length :=
          slice_patch_of_disjoint _ _ _ _ _ hword (.inr (Nat.le_refl _))
        _ = list := slice_patch region (start + 2) list (by omega)
  · rintro ⟨rfl, hlist⟩
    have hp : region.patch (start + 2) list = region := by
      conv => lhs; rw [← hlist]
      exact patch_slice h
    rw [hp] at hword ⊢
    exact set_get (word_faithful start) hword

end Field

namespace Edit

theorem stored_sources_iff (addresses : List Address) (region : Bytes) :
    (sources addresses).Stored region ↔
      12 + 4 * addresses.length ≤ region.length ∧
        Field.sourceCount.get region = .ofNat addresses.length ∧
        region.slice 12 (4 * addresses.length) = addresses.flatMap Address.octets := by
  have hl := Address.flatMap_octets_length addresses
  constructor
  · rintro ⟨hstop, hwrite⟩
    have hs := (Field.word_set_patch_eq_self_iff 10 (by rw [hl]; exact hstop)).1 hwrite
    rw [hl] at hs
    exact ⟨hstop, hs⟩
  · rintro ⟨hstop, hs⟩
    rw [← hl] at hs
    exact ⟨hstop, (Field.word_set_patch_eq_self_iff 10 (by rw [hl]; exact hstop)).2 hs⟩

theorem stored_records_iff (rs : List GroupRecord) (region : Bytes) :
    (records rs).Stored region ↔
      8 + GroupRecord.totalSize rs ≤ region.length ∧
        Field.recordCount.get region = .ofNat rs.length ∧
        region.slice 8 (GroupRecord.totalSize rs) = rs.flatMap GroupRecord.layout := by
  have hl := GroupRecord.flatMap_layout_length rs
  constructor
  · rintro ⟨hstop, hwrite⟩
    have hs := (Field.word_set_patch_eq_self_iff 6 (by rw [hl]; exact hstop)).1 hwrite
    rw [hl] at hs
    exact ⟨hstop, hs⟩
  · rintro ⟨hstop, hs⟩
    rw [← hl] at hs
    exact ⟨hstop, (Field.word_set_patch_eq_self_iff 6 (by rw [hl]; exact hstop)).2 hs⟩

namespace Stored

variable {region : Bytes}

theorem sourceCount_toNat {addresses : List Address} (h : (sources addresses).Stored region)
    (hn : addresses.length ≤ 65535) :
    (Field.sourceCount.get region).toNat = addresses.length := by
  obtain ⟨-, hcount, -⟩ := (stored_sources_iff addresses region).1 h
  rw [hcount, UInt16.toNat_ofNat']
  omega

theorem recordCount_toNat {rs : List GroupRecord} (h : (records rs).Stored region)
    (hn : rs.length ≤ 65535) : (Field.recordCount.get region).toNat = rs.length := by
  obtain ⟨-, hcount, -⟩ := (stored_records_iff rs region).1 h
  rw [hcount, UInt16.toNat_ofNat']
  omega

theorem drop_eq {rs : List GroupRecord} (h : (records rs).Stored region) :
    ∃ rest, region.drop 8 = rs.flatMap GroupRecord.layout ++ rest := by
  obtain ⟨-, -, hs⟩ := (stored_records_iff rs region).1 h
  refine ⟨(region.drop 8).drop (GroupRecord.totalSize rs), ?_⟩
  rw [← hs]
  exact (List.take_append_drop _ _).symm

end Stored

end Edit
end Igmp
