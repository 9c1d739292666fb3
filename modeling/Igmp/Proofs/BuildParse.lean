import Igmp.Proofs.BuiltInPlace
import Igmp.Proofs.ChecksumEdit
import Igmp.Proofs.DraftReading

/-! # Building a message and finding it again in the payload of a datagram -/
namespace Igmp

theorem GroupRecord.totalSize_mod_four (rs : List GroupRecord) : totalSize rs % 4 = 0 := by
  induction rs with
  | nil => rfl
  | cons r rs ih =>
    rw [totalSize_cons, size, headerSize]
    omega

namespace Draft

variable {d : Draft}

theorem kind_reading (d : Draft) :
    d.reading.kind = d.kind ∨
      ∃ group, d = v2Query .zero group ∧ d.reading.kind = .v1Query := by
  cases d with
  | v2Query responseTime group =>
    by_cases hz : responseTime = .zero
    · exact .inr ⟨group, by rw [hz], by simp [reading, hz, Reading.kind]⟩
    · exact .inl (by simp [reading, hz, Reading.kind, kind])
  | _ => exact .inl rfl

theorem size_mod_four (d : Draft) : d.size % 4 = 0 := by
  cases d with
  | v3Query maxResponseCode group suppress robustness queryInterval sources =>
    rw [size]
    omega
  | v3Report records =>
    have h := GroupRecord.totalSize_mod_four records
    rw [size]
    omega
  | _ => simp [size]

theorem Holds.calculatedChecksum_eq {region : Bytes} (hd : d.Allowed) (h : d.Holds region)
    (access : Access) {kind : MessageKind} (hk : kind = d.kind ∨ kind = d.reading.kind) :
    (⟨kind, access, region⟩ : Message).calculatedChecksum = Checksum.ofMessage region := by
  rw [Message.calculatedChecksum, Message.content, h.size_eq hd access hk, List.take_length]

theorem Holds.parse_eq {region : Bytes} (hd : d.Allowed) (h : d.Holds region) (access : Access)
    (header : Nat) :
    Message.parse access region .igmp (header + region.length) header =
      .ok ⟨d.reading.kind, access, region⟩ := by
  apply Message.parse_eq_ok_iff.2
  refine ⟨rfl, rfl, List.prefix_rfl, rfl, ?_, ?_, h.classify_eq hd⟩
  · rw [h.length_eq]
    exact d.eight_le_size
  · rw [h.length_eq]
    exact d.size_mod_four

section Built

variable {buffer : Bytes} {es : List Edit} (hd : d.Allowed) (hb : buffer.length = d.size)
  (hes : d.edits.Perm es)

include hd hb hes

theorem holds_written : d.Holds (d.built buffer es) :=
  holds_built hd ((edits_apart d 0).of_append.perm hes) hes.subset hb

theorem holds_sealed (value : UInt16) : d.Holds (Field.checksum.set value (d.built buffer es)) := by
  have hstop : (Edit.checksum value).stop ≤ buffer.length := by
    rw [hb]
    exact Nat.le_trans (Nat.le_add_right 4 4) d.eight_le_size
  have hset : d.built buffer (es ++ [.checksum value]) =
      Field.checksum.set value (d.built buffer es) :=
    built_append d buffer es hstop
  rw [← hset]
  apply holds_built hd ((edits_apart d value).perm (hes.append_right _)) _ hb
  exact List.subset_append_of_subset_left _ hes.subset

theorem headerSize_le_built : d.kind.headerSize ≤ (d.built buffer es).length := by
  rw [(holds_written hd hb hes).length_eq]
  exact d.headerSize_le_size

theorem four_le_built : 4 ≤ (d.built buffer es).length :=
  Nat.le_trans (Nat.le_trans (by decide) d.kind.eight_le_headerSize)
    (headerSize_le_built hd hb hes)

/-- The checksum is taken before one is stored, and is the same afterwards. -/
theorem calculatedChecksum_sealed (access : Access) (value : UInt16) :
    (⟨d.reading.kind, access, Field.checksum.set value (d.built buffer es)⟩ :
        Message).calculatedChecksum =
      (⟨d.kind, .writable, d.built buffer es⟩ : Message).calculatedChecksum := by
  have hwritten := holds_written hd hb hes
  have hsealed := holds_sealed hd hb hes value
  rw [hsealed.calculatedChecksum_eq hd access (.inr rfl),
    Checksum.ofMessage_set _ (four_le_built hd hb hes),
    hwritten.calculatedChecksum_eq hd .writable (.inl rfl)]

end Built

/-- A message whose fields are all set, in any order, and then its checksum, is read as it was
meant; made write by write, it is left in the buffer. A version 2 query without response time is
read as one of version 1. -/
theorem parse_built (hd : d.Allowed) {buffer : Bytes} (hb : buffer.length = d.size) {es : List Edit}
    (hes : d.edits.Perm es) (access : Access) (header : Nat) :
    ∃ fresh written sealed m, Message.create d.kind buffer = .ok fresh ∧
      es.foldlM Message.edit fresh = .ok written ∧
      written.edit written.checksumEdit = .ok sealed ∧
      (InPlace.build d.kind es).run (.ofBuffer buffer) = .ok () (.ofBuffer written.region) ∧
      (InPlace.storeChecksum d.kind).run (.ofBuffer written.region) =
        .ok () (.ofBuffer sealed.region) ∧
      Message.parse access sealed.region .igmp (header + sealed.region.length) header = .ok m ∧
      m.region = sealed.region ∧ m.access = access ∧
      (m.kind = d.kind ∨ ∃ group, d = .v2Query .zero group ∧ m.kind = .v1Query) ∧
      m.reading = d.reading ∧ m.checksum = written.calculatedChecksum ∧
      m.size = buffer.length ∧ m.hasValidChecksum = true := by
  have hcheck : ∀ e ∈ es, e.check d.kind d.size = .ok () := by
    intro e he
    exact check_edits hd 0 e (List.mem_append_left _ (hes.mem_iff.2 he))
  obtain ⟨fresh, hcreate, hedits⟩ := create_edits hb hcheck
  have hheader : d.kind.headerSize ≤ buffer.length := by
    rw [hb]
    exact d.headerSize_le_size
  let written : Message := ⟨d.kind, .writable, d.built buffer es⟩
  let region := Field.checksum.set written.calculatedChecksum (d.built buffer es)
  have hsealed : d.Holds region := holds_sealed hd hb hes _
  let m : Message := ⟨d.reading.kind, access, region⟩
  have hstored : m.checksum = written.calculatedChecksum :=
    Field.get_set (Field.word_lawful 2) _ _ (four_le_built hd hb hes)
  have hcalculated : m.calculatedChecksum = written.calculatedChecksum :=
    calculatedChecksum_sealed hd hb hes access _
  have hstore : (InPlace.storeChecksum d.kind).run (.ofBuffer written.region) =
      .ok () (.ofBuffer region) :=
    Memory.storeChecksum_ofBuffer (m := written) (headerSize_le_built hd hb hes) rfl rfl
  refine ⟨fresh, written, ⟨d.kind, .writable, region⟩, m, hcreate, hedits, rfl,
    Memory.build_ofBuffer hheader hcreate hedits, hstore, hsealed.parse_eq hd access header,
    rfl, rfl, d.kind_reading, hsealed.reading_eq hd access, hstored, ?_, ?_⟩
  · rw [hsealed.size_eq hd access (.inr rfl), hsealed.length_eq, hb]
  · simp [Message.hasValidChecksum, hstored, hcalculated]

/-- A query with two sources, whose fields are set in another order than they lie in. -/
theorem parse_built_query :
    let buffer := List.replicate 20 (0xff : UInt8)
    let es : List Edit := [.sources [⟨10, 0, 0, 1⟩, ⟨10, 0, 0, 2⟩], .queryInterval ⟨125⟩,
      .robustness ⟨2⟩, .suppress true, .group ⟨239, 1, 2, 3⟩, .maxResponseCode ⟨100⟩]
    ∃ fresh written sealed m, Message.create .v3Query buffer = .ok fresh ∧
      es.foldlM Message.edit fresh = .ok written ∧
      written.edit written.checksumEdit = .ok sealed ∧
      (InPlace.build .v3Query es).run (.ofBuffer buffer) = .ok () (.ofBuffer written.region) ∧
      (InPlace.storeChecksum .v3Query).run (.ofBuffer written.region) =
        .ok () (.ofBuffer sealed.region) ∧
      Message.parse .readOnly sealed.region .igmp (24 + sealed.region.length) 24 = .ok m ∧
      m.reading = .v3Query ⟨100⟩ ⟨239, 1, 2, 3⟩ true ⟨2⟩ ⟨125⟩ 2 [⟨10, 0, 0, 1⟩, ⟨10, 0, 0, 2⟩] ∧
      m.checksum = 0xdf14 ∧ m.size = 20 ∧ m.hasValidChecksum = true := by
  intro buffer es
  let d : Draft := .v3Query ⟨100⟩ ⟨239, 1, 2, 3⟩ true ⟨2⟩ ⟨125⟩ [⟨10, 0, 0, 1⟩, ⟨10, 0, 0, 2⟩]
  have hd : d.Allowed := ⟨.inl ⟨100, rfl⟩, by decide⟩
  have hb : buffer.length = d.size := rfl
  have hes : d.edits.Perm es := d.edits.reverse_perm.symm
  obtain ⟨fresh, written, sealed, m, hcreate, hedits, hseal, hbuild, hstore, hparse, -, -, -,
    hreading, hchecksum, hsize, hvalid⟩ :=
    parse_built hd hb hes .readOnly 24
  have hwritten : es.foldlM Message.edit fresh = .ok ⟨.v3Query, .writable,
      [0x11, 100, 0xff, 0xff, 239, 1, 2, 3, 0x0a, 125, 0, 2, 10, 0, 0, 1, 10, 0, 0, 2]⟩ := by
    cases hcreate
    exact Guarded.eq_ok_of_toOption (by decide)
  have hcalculated : written.calculatedChecksum = 0xdf14 := by
    obtain rfl := Except.ok.inj (hedits.symm.trans hwritten)
    decide +kernel
  exact ⟨fresh, written, sealed, m, hcreate, hedits, hseal, hbuild, hstore, hparse, hreading,
    hchecksum.trans hcalculated, hsize, hvalid⟩

end Draft
end Igmp
