import Igmp.Proofs.ChecksumEdit
import Igmp.Proofs.PinnedBytes
import Igmp.Proofs.StoredFields

/-! # Checksums of messages whose words sum up to more than 32 bits hold -/
namespace Igmp

namespace Checksum

/-- How often the sum of a message's words, but for the checksum, passes the 32 bits that the
calculation keeps of it. -/
def lostCarries (bs : Bytes) : Nat := restSum bs / 4294967296

theorem lostCarries_eq_zero {bs : Bytes} (h : bs.length ≤ 131076) : lostCarries bs = 0 := by
  have hsum := restSum_le bs
  rw [lostCarries]
  omega

theorem lostCarries_set {bs : Bytes} (h : 4 ≤ bs.length) (value : UInt16) :
    lostCarries (Field.checksum.set value bs) = lostCarries bs := by
  rw [lostCarries, restSum_set value h, lostCarries]

/-- A sum and the complement of what it folds to have no remainder by 65535. -/
private theorem add_complement_fold (sum : Nat) :
    ∃ q, sum + (65535 - fold sum) = 65535 * (q + 1) := by
  rw [fold_eq]
  split
  · exact ⟨0, by omega⟩
  · exact ⟨(sum - 1) / 65535, by omega⟩

private theorem fold_mul_add_eq_iff (q carries : Nat) :
    fold (65535 * (q + 1) + carries) = 65535 ↔ 65535 ∣ carries := by
  have hpred : 65535 * (q + 1) + carries - 1 = carries + 65534 + 65535 * q := by omega
  rw [fold_eq, if_neg (by omega), hpred, Nat.add_mul_mod_self_left]
  omega

/-- What 32 bits hold of a sum, complemented, leaves one for each time the sum passes them. -/
theorem fold_add_complement_eq_iff (sum : Nat) :
    fold (sum + (65535 - fold (sum % 4294967296))) = 65535 ↔ 65535 ∣ sum / 4294967296 := by
  obtain ⟨q, hq⟩ := add_complement_fold (sum % 4294967296)
  have hsum : sum + (65535 - fold (sum % 4294967296)) =
      65535 * (65537 * (sum / 4294967296) + q + 1) + sum / 4294967296 := by
    calc sum + (65535 - fold (sum % 4294967296))
      _ = 4294967296 * (sum / 4294967296) +
          (sum % 4294967296 + (65535 - fold (sum % 4294967296))) := by
        rw [← Nat.add_assoc, Nat.div_add_mod]
      _ = (65535 * 65537 + 1) * (sum / 4294967296) + 65535 * (q + 1) := by rw [hq]
      _ = 65535 * (65537 * (sum / 4294967296) + q + 1) + sum / 4294967296 := by
        rw [Nat.add_mul, Nat.mul_assoc, Nat.one_mul, Nat.add_assoc (65537 * _), Nat.mul_add 65535]
        omega
  rw [hsum, fold_mul_add_eq_iff]

/-- With the calculated checksum in its place, every carry that the calculation lost adds one to
the sum of all words, which else has no remainder by 65535. -/
theorem fold_wordSum_eq_iff {bs : Bytes} (h : 4 ≤ bs.length)
    (hstored : bs.wordAt 2 = ofMessage bs) : fold (wordSum bs) = 65535 ↔ 65535 ∣ lostCarries bs := by
  have hne : bs ≠ [] := by
    rintro rfl
    simp at h
  rw [wordSum_eq_restSum_add h, hstored, ofMessage_toNat hne, fold_add_complement_eq_iff, lostCarries]

theorem wordSum_octets (x : Address) :
    wordSum x.octets = 256 * (x.a.toNat + x.c.toNat) + x.b.toNat + x.d.toNat := by
  rw [Address.octets, wordSum_cons, wordSum_cons, wordSum_nil]
  omega

theorem wordSum_replicate (n : Nat) (x : Address) :
    wordSum ((List.replicate n x).flatMap Address.octets) = n * wordSum x.octets := by
  induction n with
  | zero => rw [List.replicate_zero, List.flatMap_nil, wordSum_nil, Nat.zero_mul]
  | succ n ih =>
    rw [List.replicate_succ, List.flatMap_cons, wordSum_append (by rw [Address.octets_length]), ih,
      Nat.succ_mul, Nat.add_comm]

theorem wordSum_drop_le (bs : Bytes) : wordSum (bs.drop 12) ≤ restSum bs := by
  have hsplit : wordSum (bs.drop 4) = wordSum ((bs.drop 4).take 8) + wordSum (bs.drop 12) := by
    by_cases h : 12 ≤ bs.length
    · have heven : ((bs.drop 4).take 8).length % 2 = 0 := by
        rw [List.length_take, List.length_drop, Nat.min_eq_left (by omega)]
      rw [← wordSum_append heven]
      congr 1
      have hdrop : bs.drop 12 = (bs.drop 4).drop 8 := by rw [List.drop_drop]
      rw [hdrop, List.take_append_drop]
    · rw [List.drop_of_length_le (by omega : bs.length ≤ 12), wordSum_nil, List.take_of_length_le]
      · rfl
      · rw [List.length_drop]
        omega
  rw [restSum, hsplit]
  omega

end Checksum

namespace Message

open Checksum (fold wordSum lostCarries)

variable {m : Message}

theorem content_sealed (h : m.kind.headerSize ≤ m.region.length) :
    (m.withChecksum m.calculatedChecksum).content =
      Field.checksum.set m.calculatedChecksum m.content := by
  have h8 := Nat.le_trans m.kind.eight_le_headerSize h
  exact content_withChecksum _ h8 (size_bounds h).1

/-- The words of a message with its checksum stored sum up to ones, but for carries that were
lost. -/
theorem fold_content_sealed_iff (h : m.kind.headerSize ≤ m.region.length) :
    fold (wordSum (m.withChecksum m.calculatedChecksum).content) = 65535 ↔
      65535 ∣ lostCarries m.content := by
  have hsize := (size_bounds h).1
  have hlen := content_length h
  have h4 : 4 ≤ m.content.length := by omega
  rw [content_sealed h, Checksum.fold_wordSum_eq_iff, Checksum.lostCarries_set h4]
  · rwa [Checksum.length_set _ h4]
  · rw [Checksum.wordAt_set _ h4, Checksum.ofMessage_set _ h4, calculatedChecksum]

/-- Whichever edits a fresh message has been through, the words of it sum up to ones once the
calculated checksum is stored, but for carries that the calculation lost. A message of up to
131076 bytes loses none. -/
theorem sealed_sum_iff {kind : MessageKind} {buffer : Bytes} {fresh : Message}
    (h : create kind buffer = .ok fresh) (es : List Edit) :
    ∃ written sealed, fresh.applyAll es = written ∧
      written.edit written.checksumEdit = .ok sealed ∧ sealed.size = written.size ∧
      (fold (wordSum (sealed.region.take sealed.size)) = 65535 ↔
        65535 ∣ lostCarries (written.region.take written.size)) ∧
      (written.size ≤ 131076 → fold (wordSum (sealed.region.take sealed.size)) = 65535) := by
  have hpinned := (pinned_of_create h).applyAll es
  let written := fresh.applyAll es
  have hheader : written.kind.headerSize ≤ written.region.length := hpinned.headerSize_le_region
  have h8 := Nat.le_trans written.kind.eight_le_headerSize hheader
  have hiff := fold_content_sealed_iff hheader
  refine ⟨written, written.withChecksum written.calculatedChecksum, rfl,
    edit_checksum hpinned.writable _, size_withChecksum _ h8, hiff, ?_⟩
  intro hsize
  apply hiff.2
  rw [Checksum.lostCarries_eq_zero]
  · exact Nat.dvd_zero _
  · rwa [content_length hheader]

/-- A query with two sources, over a buffer with other bytes in it. -/
theorem sealed_sum_iff_query :
    let fresh : Message :=
      ⟨.v3Query, .writable, (List.replicate 20 0xff).mapIdx MessageKind.v3Query.pin⟩
    ∃ written sealed, create .v3Query (List.replicate 20 0xff) = .ok fresh ∧
      fresh.applyAll [.sources [⟨10, 0, 0, 1⟩, ⟨10, 0, 0, 2⟩]] = written ∧ written.size = 20 ∧
      written.edit written.checksumEdit = .ok sealed ∧
      fold (wordSum (sealed.region.take sealed.size)) = 65535 := by
  intro fresh
  have hfresh : create .v3Query (List.replicate 20 0xff) = .ok fresh := create_eq_ok (by decide)
  obtain ⟨written, sealed, hwritten, hseal, -, -, hsum⟩ :=
    sealed_sum_iff hfresh [.sources [⟨10, 0, 0, 1⟩, ⟨10, 0, 0, 2⟩]]
  have hsize : written.size = 20 := by
    rw [← hwritten]
    cbv
  refine ⟨written, sealed, hfresh, hwritten, hsize, hseal, hsum ?_⟩
  rw [hsize]
  decide

section StoredSources

variable {xs : List Address} {access : Access} {region : Bytes}
  (h : (Edit.sources xs).Stored region) (hn : xs.length ≤ 65535)

include h hn

theorem size_of_stored_sources :
    (⟨.v3Query, access, region⟩ : Message).size = 12 + 4 * xs.length := by
  have hcount := h.sourceCount_toNat hn
  simp only [size, sourceCount, hcount]
  exact Nat.min_eq_left h.stop_le

theorem content_drop_of_stored_sources :
    (⟨.v3Query, access, region⟩ : Message).content.drop 12 = xs.flatMap Address.octets := by
  obtain ⟨-, -, hslice⟩ := (Edit.stored_sources_iff xs region).1 h
  rw [content, size_of_stored_sources h hn, List.drop_take, Nat.add_sub_cancel_left, ← hslice]
  rfl

end StoredSources

/-- Sources that sum up to more than 32 bits hold leave a query with a checksum that is wrong. -/
theorem sum_ne_of_sources {buffer : Bytes} {xs : List Address} (hn : xs.length ≤ 65535)
    (hb : buffer.length = 12 + 4 * xs.length)
    (hsum : 4294967296 ≤ wordSum (xs.flatMap Address.octets)) : ∃ fresh written sealed,
      create .v3Query buffer = .ok fresh ∧ fresh.edit (.sources xs) = .ok written ∧
      written.edit written.checksumEdit = .ok sealed ∧
      fold (wordSum (sealed.region.take sealed.size)) ≠ 65535 := by
  have hfresh : create .v3Query buffer =
      .ok ⟨.v3Query, .writable, buffer.mapIdx MessageKind.v3Query.pin⟩ := by
    apply create_eq_ok
    rw [hb]
    exact Nat.le_add_right _ _
  have hpinned := pinned_of_create hfresh
  let region := (buffer.mapIdx MessageKind.v3Query.pin).mapIdx (Edit.sources xs).stamp
  let written : Message := ⟨.v3Query, .writable, region⟩
  have hfits : (Edit.sources xs).Fits (buffer.mapIdx MessageKind.v3Query.pin).length := by
    rw [List.length_mapIdx, hb]
    exact ⟨hn, Nat.le_refl _⟩
  have hwritten : edit _ (.sources xs) = .ok written :=
    (edit_eq_ok_iff rfl hpinned.headerSize_le_region).2 ⟨rfl, hfits, rfl⟩
  have hstored : (Edit.sources xs).Stored region := Edit.stored_stamp hfits.2
  have hheader : written.kind.headerSize ≤ written.region.length :=
    (hpinned.edit hwritten).headerSize_le_region
  have hlen : written.content.length = 12 + 4 * xs.length := by
    rw [content_length hheader, size_of_stored_sources hstored hn]
  have hsources : wordSum (written.content.drop 12) = wordSum (xs.flatMap Address.octets) := by
    rw [content_drop_of_stored_sources hstored hn]
  refine ⟨_, written, written.withChecksum written.calculatedChecksum, hfresh, hwritten,
    edit_checksum rfl _, ?_⟩
  -- At least one carry is lost, and even the longest query does not lose three.
  have hlow := Checksum.wordSum_drop_le written.content
  have hhigh := Checksum.restSum_le written.content
  have hcarries : 1 ≤ lostCarries written.content ∧ lostCarries written.content ≤ 2 := by
    rw [lostCarries]
    omega
  intro hones
  have hdvd := (fold_content_sealed_iff hheader).1 hones
  omega

/-- As many sources as a query can count, each of which counts for two words of all ones. -/
theorem sealed_sum_of_full_query : ∃ fresh written sealed,
    create .v3Query (List.replicate 262152 0) = .ok fresh ∧
      fresh.edit (.sources (List.replicate 65535 ⟨255, 255, 255, 255⟩)) = .ok written ∧
      written.edit written.checksumEdit = .ok sealed ∧
      fold (wordSum (sealed.region.take sealed.size)) ≠ 65535 := by
  apply sum_ne_of_sources
  · exact Nat.le_of_eq List.length_replicate
  · rw [List.length_replicate, List.length_replicate]
  · rw [Checksum.wordSum_replicate, Checksum.wordSum_octets]
    decide

end Message
end Igmp
