import Igmp.MessageEdit
import Igmp.Proofs.OnesComplement
import Igmp.Proofs.ParsedMessage

/-! # Storing a checksum, and what it leaves alone -/
namespace Igmp

namespace Checksum

section Set

variable {bs : Bytes} (value : UInt16) (h : 4 ≤ bs.length)

theorem set_eq (bs : Bytes) (value : UInt16) :
    Field.checksum.set value bs = bs.take 2 ++ (Bytes.ofWord value ++ bs.drop 4) := rfl

include h

theorem length_set : (Field.checksum.set value bs).length = bs.length :=
  Field.set_length (Field.word_lawful 2) value bs h

theorem take_set : (Field.checksum.set value bs).take 2 = bs.take 2 := by
  rw [set_eq, List.take_left']
  rw [List.length_take]
  omega

theorem drop_set {n : Nat} (hn : 4 ≤ n) : (Field.checksum.set value bs).drop n = bs.drop n := by
  have h2 : (bs.take 2).length = 2 := by
    rw [List.length_take]
    omega
  have h4 : (Field.checksum.set value bs).drop 4 = bs.drop 4 := by
    rw [set_eq, ← List.append_assoc]
    apply List.drop_left'
    rw [List.length_append, h2, Bytes.ofWord_length]
  obtain ⟨k, rfl⟩ := Nat.exists_eq_add_of_le hn
  rw [← List.drop_drop, h4, List.drop_drop]

theorem wordAt_set : (Field.checksum.set value bs).wordAt 2 = value := by
  match bs, h with
  | b₀ :: b₁ :: b₂ :: b₃ :: rest, _ => exact Bytes.word_ofWord value

theorem take_set_of_le {n : Nat} (hn : 4 ≤ n) :
    (Field.checksum.set value bs).take n = Field.checksum.set value (bs.take n) := by
  match bs, h with
  | b₀ :: b₁ :: b₂ :: b₃ :: rest, _ =>
    obtain ⟨k, rfl⟩ := Nat.exists_eq_add_of_le' hn
    rfl

/-- A checksum does not depend on the word that holds it. -/
theorem ofMessage_set : ofMessage (Field.checksum.set value bs) = ofMessage bs := by
  have hne : bs ≠ [] := by
    rintro rfl
    simp at h
  have hne' : Field.checksum.set value bs ≠ [] := by
    rw [set_eq]
    simp [Bytes.ofWord]
  simp only [ofMessage, skipping, List.isEmpty_iff, hne, hne', if_false, Nat.reduceMul,
    Nat.reduceAdd, take_set value h, drop_set value h (Nat.le_refl 4)]

theorem restSum_set : restSum (Field.checksum.set value bs) = restSum bs := by
  rw [restSum, restSum, take_set value h, drop_set value h (Nat.le_refl 4)]

end Set

end Checksum

namespace Message

/-- The message with a checksum stored in it. -/
def withChecksum (m : Message) (value : UInt16) : Message :=
  { m with region := Field.checksum.set value m.region }

variable {m : Message}

theorem edit_checksum (hw : m.access = .writable) (value : UInt16) :
    m.edit (.checksum value) = .ok (m.withChecksum value) := by
  simp [edit, Edit.check, hw, bind, Except.bind, Edit.write, withChecksum]

section WithChecksum

variable (value : UInt16) (h : 8 ≤ m.region.length)

include h

private theorem slice_region {start : Nat} (hs : 4 ≤ start) (width : Nat) :
    (m.withChecksum value).region.slice start width = m.region.slice start width := by
  rw [withChecksum, Bytes.slice, Checksum.drop_set value (by omega) hs, Bytes.slice]

theorem get_withChecksum {α : Type} {f : Field α} (hf : 4 ≤ f.offset) :
    f.get (m.withChecksum value).region = f.get m.region := by
  rw [Field.get, slice_region value h hf, Field.get]

theorem records_withChecksum : (m.withChecksum value).records = m.records := by
  have hcount : (m.withChecksum value).recordCount = m.recordCount :=
    congrArg UInt16.toNat (get_withChecksum value h (by decide))
  rw [records, hcount, withChecksum, Checksum.drop_set value (by omega) (by decide), records]

theorem size_withChecksum : (m.withChecksum value).size = m.size := by
  have hlen : (m.withChecksum value).region.length = m.region.length :=
    Checksum.length_set value (by omega)
  have hsources : (m.withChecksum value).sourceCount = m.sourceCount :=
    congrArg UInt16.toNat (get_withChecksum value h (by decide))
  have hrecords : (m.withChecksum value).recordCount = m.recordCount :=
    congrArg UInt16.toNat (get_withChecksum value h (by decide))
  have hdrop : (m.withChecksum value).region.drop 8 = m.region.drop 8 :=
    Checksum.drop_set value (by omega) (by decide)
  rw [size, size, hlen, hsources, hrecords, hdrop]
  rfl

theorem content_withChecksum (hsize : 8 ≤ m.size) :
    (m.withChecksum value).content = Field.checksum.set value m.content := by
  rw [content, size_withChecksum value h, withChecksum,
    Checksum.take_set_of_le value (by omega) (by omega), content]

end WithChecksum

end Message
end Igmp
