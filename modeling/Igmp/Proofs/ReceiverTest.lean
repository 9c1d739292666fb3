import Igmp.Proofs.OnesComplement
import Igmp.Proofs.ParsedMessage

/-! # A stored checksum is valid where all words of the message sum up to ones -/
namespace Igmp

namespace Checksum

/-- Comparing the stored checksum with the calculated one, where the 32 bits of the calculation
hold the sum, against summing up all words. A sum of ones has two remainders of zero to choose
from, and the calculation never yields the word of all ones. -/
theorem stored_eq_ofMessage_iff {bs : Bytes} (h : 4 ≤ bs.length) (h0 : bs.byteAt 0 ≠ 0)
    (hroom : restSum bs < 4294967296) :
    bs.wordAt 2 = ofMessage bs ↔ onesSum bs = 0xffff ∧ bs.wordAt 2 ≠ 0xffff := by
  have hne : bs ≠ [] := by
    rintro rfl
    simp at h
  have hpos : 0 < restSum bs := restSum_pos (by omega) h0
  have hstored := (bs.wordAt 2).toNat_lt
  have hsum : (onesSum bs).toNat = (restSum bs + (bs.wordAt 2).toNat - 1) % 65535 + 1 := by
    rw [onesSum_toNat, wordSum_eq_restSum_add h, fold_eq, if_neg (by omega)]
  have hcalculated : (ofMessage bs).toNat = 65535 - ((restSum bs - 1) % 65535 + 1) := by
    rw [ofMessage_toNat hne, Nat.mod_eq_of_lt hroom, fold_eq, if_neg (by omega)]
  have hones : (0xffff : UInt16).toNat = 65535 := rfl
  rw [ne_eq, ← UInt16.toNat_inj, ← UInt16.toNat_inj, ← UInt16.toNat_inj, hsum, hcalculated, hones]
  omega

end Checksum

namespace Message

variable {m : Message}

theorem hasValidChecksum_iff (h : m.kind.headerSize ≤ m.region.length)
    (h0 : m.region.byteAt 0 ≠ 0) (hroom : Checksum.restSum m.content < 4294967296) :
    m.hasValidChecksum = true ↔ Checksum.onesSum m.content = 0xffff ∧ m.checksum ≠ 0xffff := by
  have hsize := (size_bounds h).1
  have hlen := content_length h
  rw [hasValidChecksum, decide_eq_true_iff, calculatedChecksum, checksum_eq_wordAt h]
  apply Checksum.stored_eq_ofMessage_iff (by omega) _ hroom
  rwa [byteAt_zero_content h]

theorem Placed.byteAt_zero_ne (h : m.Placed) : m.region.byteAt 0 ≠ 0 := by
  rw [((MessageKind.classify_eq_ok_iff _ _).1 h.classified).1]
  cases m.kind <;> decide

end Message

namespace Datagram

/-- A message is no longer than the total length of its datagram can tell. -/
theorem region_length_lt {d : Datagram} {m : Message} (h : d.message = .ok m) :
    m.region.length < 65536 := by
  have htotal : d.totalLength = d.headerSize + m.region.length :=
    (Message.parse_eq_ok_iff.1 (parse_of_message h)).2.1
  have hlt : d.totalLength < 65536 := (d.bytes.wordAt 2).toNat_lt
  omega

/-- The checksum of a message from a datagram is valid where a receiver would find it so, but
that a stored word of all ones is never valid. -/
theorem receiver_accepts_iff {p : Bytes} {m : Message} (h : view p >>= message = .ok m) :
    m.hasValidChecksum = true ↔
      Checksum.onesSum (m.region.take m.size) = 0xffff ∧ m.checksum ≠ 0xffff := by
  cases hview : view p with
  | error e =>
    rw [hview] at h
    nomatch h
  | ok d =>
    rw [hview] at h
    have hmessage : d.message = .ok m := h
    have hplaced := Message.placed_of_message hmessage
    have hheader := hplaced.headerSize_le
    have hlen := Message.content_length hheader
    have hsize := (Message.size_bounds hheader).2
    have hlt := region_length_lt hmessage
    have hroom := Checksum.restSum_le m.content
    exact Message.hasValidChecksum_iff hheader hplaced.byteAt_zero_ne (by omega)

/-- A query that declares fewer sources than there is room for. -/
theorem receiver_accepts_iff_query :
    let message : Bytes :=
      [0x11, 0x64, 0xe9, 0x17, 239, 1, 2, 3, 0x0a, 0x7d, 0, 1, 10, 0, 0, 1, 7, 7, 7, 7]
    let p : Bytes :=
      [0x45, 0, 0, 40, 0, 0, 0, 0, 1, 2, 0, 0, 10, 0, 0, 2, 224, 0, 0, 1] ++ message
    let m : Message := ⟨.v3Query, .readOnly, message⟩
    view p >>= Datagram.message = .ok m ∧ m.size = 16 ∧ m.hasValidChecksum = true ∧
      (m.hasValidChecksum = true ↔
        Checksum.onesSum (m.region.take m.size) = 0xffff ∧ m.checksum ≠ 0xffff) := by
  intro message p m
  have hm : view p >>= Datagram.message = .ok m := by cbv
  have hsize : m.size = 16 := by decide
  have hvalid : m.hasValidChecksum = true := by cbv
  exact ⟨hm, hsize, hvalid, receiver_accepts_iff hm⟩

end Datagram
end Igmp
