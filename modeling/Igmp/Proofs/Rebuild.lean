import Igmp.Proofs.BuiltInPlace
import Igmp.Proofs.HeldBytes

/-! # Building a parsed message again from what is read of it -/
namespace Igmp

namespace Reading

/-- The values to set for a message that reads the same. Records that cannot be read are left
out. -/
def draft : Reading → Draft
  | v1Query _ => .v1Query
  | v1Report group => .v1Report group
  | v2Query responseTime group => .v2Query responseTime group
  | v2Report _ group => .v2Report group
  | v2Leave _ group => .v2Leave group
  | v3Query c group suppress robustness interval _ sources =>
    .v3Query c group suppress robustness interval sources
  | v3Report _ items => .v3Report (items.filterMap Except.toOption)

theorem kind_draft (r : Reading) : r.draft.kind = r.kind := by cases r <;> rfl

theorem filterMap_map_ok (rs : List GroupRecord) :
    (rs.map (Except.ok (ε := RecordFault))).filterMap Except.toOption = rs := by
  induction rs with
  | nil => rfl
  | cons r rs ih => exact congrArg (r :: ·) ih

end Reading

/-- The mask of the bits at index `i` that may be found set in a fresh message. -/
def MessageKind.freeBits : MessageKind → Nat → UInt8
  | .v1Query, 4 | .v1Query, 5 | .v1Query, 6 | .v1Query, 7 => 0
  | .v1Report, 1 | .v2Report, 1 | .v2Leave, 1 => 0
  | .v3Query, 8 => 0x0f
  | .v3Report, 1 | .v3Report, 4 | .v3Report, 5 => 0
  | _, _ => 0xff

namespace MessageKind

/-- Over a message of its kind, pinning clears bits and changes nothing else. -/
theorem pin_eq_and {region : Bytes} {kind : MessageKind} (h : classify region = .ok kind)
    (i : Nat) :
    kind.pin i (region.byteAt i) = region.byteAt i &&& kind.freeBits i := by
  obtain ⟨h0, hq⟩ := (classify_eq_ok_iff region kind).1 h
  by_cases hi : i = 0
  · subst hi
    have hfree : kind.freeBits 0 = 0xff := by simp [freeBits]
    rw [hfree, Bytes.and_ff, h0]
    simp [pin]
  unfold pin freeBits
  cases kind with
  | v1Query =>
    have h1 : region.byteAt 1 = 0 := (hq rfl).1.2 rfl
    by_cases hi1 : i = 1
    · subst hi1
      simp [h1]
    · split <;> simp_all [Bytes.and_ff]
  | _ => split <;> simp_all [Bytes.and_ff, Bytes.and_0f]

end MessageKind

namespace Message

/-- The lists that the message declares lie in its region and can be read. -/
structure Complete (m : Message) : Prop where
  sources : m.kind = .v3Query → 12 + 4 * m.sourceCount ≤ m.region.length
  records : m.kind = .v3Report → ∀ item ∈ m.records.items, ∃ r, item = .ok r

variable {m : Message}

theorem sources_length (h : 12 + 4 * m.sourceCount ≤ m.region.length) :
    m.sources.length = m.sourceCount := by
  apply Bytes.fours_length
  rw [Bytes.slice_length]
  omega

theorem sources_stored (h : 12 + 4 * m.sourceCount ≤ m.region.length) :
    (Edit.sources m.sources).Stored m.region := by
  have hl := sources_length h
  refine (Edit.stored_sources_iff _ _).2 ⟨by rw [hl]; exact h, ?_, ?_⟩
  · rw [hl, sourceCount, UInt16.ofNat_toNat]
  · have hslice : (m.region.slice 12 (4 * m.sourceCount)).length = 4 * m.sourceCount := by
      rw [Bytes.slice_length]
      omega
    rw [hl]
    exact (Bytes.flatMap_fours (fun _ _ _ _ => rfl) m.sourceCount _ hslice).symm

/-- Records that can all be read fill the region from its eighth byte on. -/
theorem records_stored (h8 : 8 ≤ m.region.length)
    (h : ∀ item ∈ m.records.items, ∃ r, item = .ok r) :
    ∃ rs : List GroupRecord, m.records.items = rs.map .ok ∧ (Draft.v3Report rs).Allowed ∧
      (Edit.records rs).Stored m.region ∧
      min (GroupRecord.runEnd m.recordCount (m.region.drop 8) 8) m.region.length =
        8 + GroupRecord.totalSize rs := by
  obtain ⟨rs, hitems, hcount, hvalid, rest, hrest⟩ :=
    RecordCursor.layouts_of_items (c := m.records) rfl h
  have hunread : m.region.drop 8 = rs.flatMap GroupRecord.layout ++ rest := hrest
  have hcount' : rs.length = m.recordCount := hcount
  have hlayouts := GroupRecord.flatMap_layout_length rs
  have hlen : m.region.length = 8 + GroupRecord.totalSize rs + rest.length := by
    have hd := congrArg List.length hunread
    rw [List.length_drop, List.length_append, hlayouts] at hd
    omega
  refine ⟨rs, hitems, ⟨?_, hvalid⟩, ?_, ?_⟩
  · have hlt := (Field.recordCount.get m.region).toNat_lt
    rw [hcount', recordCount]
    omega
  · refine (Edit.stored_records_iff _ _).2 ⟨by omega, ?_, ?_⟩
    · rw [hcount', recordCount, UInt16.ofNat_toNat]
    · rw [Bytes.slice, hunread, ← hlayouts, List.take_left' rfl]
  · rw [hunread, ← hcount', GroupRecord.runEnd_layouts hvalid, hlen]
    omega

/-- What is read of a parsed message may be set again, is stored in its region, and fills its
size. -/
structure Redraftable (m : Message) : Prop where
  allowed : m.reading.draft.Allowed
  size_eq : m.size = m.reading.draft.size
  stored : ∀ e ∈ m.reading.draft.edits, e.Stored m.region

private theorem redraftable_query {access : Access} {region : Bytes}
    (hp : (⟨.v3Query, access, region⟩ : Message).Placed)
    (hc : (⟨.v3Query, access, region⟩ : Message).Complete) :
    (⟨.v3Query, access, region⟩ : Message).Redraftable := by
  have h12 : 12 ≤ region.length := hp.headerSize_le
  have hfits := hc.sources rfl
  have hlen := sources_length hfits
  refine ⟨⟨?_, ?_⟩, ?_, ?_⟩
  · -- A code of zero would have made it a query of version 1.
    apply (MaxResponseCode.made_iff _).2
    have h1 : region.byteAt 1 ≠ 0 := by
      simpa using (((MessageKind.classify_eq_ok_iff _ _).1 hp.classified).2 rfl).1
    simpa only [maxResponseCode, Field.maxResponseCode_get] using h1
  · have hlt := (Field.sourceCount.get region).toNat_lt
    rw [hlen]
    exact Nat.le_of_lt_succ hlt
  · simp only [reading, Reading.draft, Draft.size, hlen]
    exact Nat.min_eq_left hfits
  · have hcode : (Edit.maxResponseCode (Field.maxResponseCode.get region)).Stored region :=
      .of_get (Field.byte_faithful fun _ => rfl) (Nat.le_trans (Nat.le_add_right 2 10) h12) rfl rfl
    have hgroup : (Edit.group (Field.group.get region)).Stored region :=
      .of_get Field.group_faithful (Nat.le_trans (Nat.le_add_right 8 4) h12) rfl rfl
    have hsuppress : (Edit.suppress (Field.suppress.get region)).Stored region :=
      .of_get (Field.flags_faithful fun _ => rfl) (Nat.le_trans (Nat.le_add_right 9 3) h12) rfl rfl
    have hrobustness : (Edit.robustness (Field.robustness.get region)).Stored region :=
      .of_get (Field.flags_faithful fun _ => rfl) (Nat.le_trans (Nat.le_add_right 9 3) h12) rfl rfl
    have hinterval : (Edit.queryInterval (Field.queryInterval.get region)).Stored region :=
      .of_get (Field.byte_faithful fun _ => rfl) (Nat.le_trans (Nat.le_add_right 10 2) h12) rfl rfl
    have hsources := sources_stored hfits
    simpa [reading, Reading.draft, Draft.edits] using
      ⟨hcode, hgroup, hsuppress, hrobustness, hinterval, hsources⟩

private theorem redraftable_report {access : Access} {region : Bytes} (h8 : 8 ≤ region.length)
    (hc : (⟨.v3Report, access, region⟩ : Message).Complete) :
    (⟨.v3Report, access, region⟩ : Message).Redraftable := by
  obtain ⟨rs, hitems, hallowed, hstored, hsize⟩ := records_stored h8 (hc.records rfl)
  have hdraft : (⟨.v3Report, access, region⟩ : Message).reading.draft = .v3Report rs := by
    simp only [reading, Reading.draft, hitems, Reading.filterMap_map_ok]
  constructor
  · rw [hdraft]
    exact hallowed
  · rw [hdraft]
    exact hsize
  · rw [hdraft]
    simpa [Draft.edits] using hstored

theorem redraftable (hp : m.Placed) (hc : m.Complete) : m.Redraftable := by
  obtain ⟨kind, access, region⟩ := m
  have h8 : 8 ≤ region.length := hp.eight_le
  have hgroup : (Edit.group (Field.group.get region)).Stored region :=
    .of_get Field.group_faithful h8 rfl rfl
  cases kind with
  | v1Query => exact ⟨trivial, rfl, by simp [reading, Reading.draft, Draft.edits]⟩
  | v1Report | v2Report | v2Leave =>
    exact ⟨trivial, rfl, by simpa [reading, Reading.draft, Draft.edits] using hgroup⟩
  | v2Query =>
    have htime : (Edit.responseTime (Field.responseTime.get region)).Stored region :=
      .of_get (Field.byte_faithful fun _ => rfl) (Nat.le_trans (Nat.le_add_right 2 6) h8) rfl rfl
    exact ⟨trivial, rfl, by simpa [reading, Reading.draft, Draft.edits] using ⟨htime, hgroup⟩⟩
  | v3Query => exact redraftable_query hp hc
  | v3Report => exact redraftable_report h8 hc

theorem checksum_stored (h : 8 ≤ m.region.length) : (Edit.checksum m.checksum).Stored m.region :=
  .of_get (Field.word_faithful 2) (Nat.le_trans (Nat.le_add_right 4 4) h) rfl rfl

theorem draft_kind (m : Message) : m.reading.draft.kind = m.kind := by
  rw [Reading.kind_draft, kind_reading]

theorem byteAt_pinned (hp : m.Placed) {i : Nat} (hi : i < m.content.length) :
    Bytes.byteAt (m.content.mapIdx m.kind.pin) i = m.region.byteAt i &&& m.kind.freeBits i := by
  have hi' : i < m.size := by
    rw [content, List.length_take] at hi
    omega
  calc Bytes.byteAt (m.content.mapIdx m.kind.pin) i
    _ = m.kind.pin i (m.content.byteAt i) := Bytes.byteAt_mapIdx _ hi
    _ = m.kind.pin i (m.region.byteAt i) := by rw [content, Bytes.byteAt_take hi']
    _ = m.region.byteAt i &&& m.kind.freeBits i := MessageKind.pin_eq_and hp.classified i

namespace Redraftable

theorem content_length (h : m.Redraftable) (hp : m.Placed) :
    m.content.length = m.reading.draft.size := by
  rw [content, List.length_take, ← h.size_eq, Nat.min_eq_left (size_bounds hp.headerSize_le).2]

/-- The bytes of the message, but for the bits that a fresh message clears, hold what is read of
it. -/
theorem holds_pinned (h : m.Redraftable) (hp : m.Placed) :
    m.reading.draft.Holds (m.content.mapIdx m.kind.pin) := by
  constructor
  · rw [List.length_mapIdx, h.content_length hp]
  · intro i hi
    rw [List.length_mapIdx] at hi
    rw [m.draft_kind, Bytes.byteAt_mapIdx _ hi, MessageKind.pin_pin]
  · intro e he
    have hoffered := (Draft.edits_apart m.reading.draft 0).offered e (List.mem_append_left _ he)
    rw [m.draft_kind] at hoffered
    apply ((h.stored e he).take _).pin hoffered
    rw [h.size_eq]
    exact Draft.stop_le_size h.allowed he

/-- What is built again from what was read is the message, without those bits. -/
theorem built_eq (h : m.Redraftable) (hp : m.Placed) {buffer : Bytes}
    (hb : buffer.length = m.reading.draft.size)
    {es : List Edit} (hes : (m.reading.draft.edits ++ [Edit.checksum m.checksum]).Perm es) :
    m.reading.draft.built buffer es = m.content.mapIdx m.kind.pin := by
  have happart := (Draft.edits_apart m.reading.draft m.checksum).perm hes
  have h4 : (Edit.checksum m.checksum).stop ≤ m.reading.draft.size :=
    Nat.le_trans (Nat.le_add_right 4 4) m.reading.draft.eight_le_size
  have hsubset : m.reading.draft.edits ⊆ es := fun e he => hes.subset (List.mem_append_left _ he)
  have hbuilt := Draft.holds_built h.allowed happart hsubset hb
  have hchecksum : (Edit.checksum m.checksum).Stored (m.reading.draft.built buffer es) := by
    apply Draft.stored_built happart (hes.subset (by simp))
    rw [hb]
    exact h4
  have hchecksum' : (Edit.checksum m.checksum).Stored (m.content.mapIdx m.kind.pin) := by
    apply ((checksum_stored hp.eight_le).take _).pin trivial
    rw [h.size_eq]
    exact h4
  exact hbuilt.unique (h.holds_pinned hp) hchecksum hchecksum'

end Redraftable

/-- A parsed message whose lists are complete, built again in any buffer of its size from what is
read of it, has its bytes, without the bits that are always clear in a fresh message. Made write by
write, it is left in the buffer. -/
theorem rebuild_parsed {access : Access} {payload : Bytes} {protocol : Protocol}
    {total header : Nat}
    (hm : parse access payload protocol total header = .ok m) (hc : m.Complete) {buffer : Bytes}
    (hb : buffer.length = m.size) {es : List Edit}
    (hes : (m.reading.draft.edits ++ [Edit.checksum m.checksum]).Perm es) :
    ∃ fresh rebuilt, create m.kind buffer = .ok fresh ∧ es.foldlM edit fresh = .ok rebuilt ∧
      (InPlace.build m.kind es).run (.ofBuffer buffer) = .ok () (.ofBuffer rebuilt.region) ∧
      rebuilt.kind = m.kind ∧ rebuilt.region.length = m.size ∧ m.size ≤ m.region.length ∧
      ∀ i < m.size, rebuilt.region.byteAt i = m.region.byteAt i &&& m.kind.freeBits i := by
  obtain ⟨-, -, -, -, hp⟩ := parse_eq_ok_iff.1 hm
  have h := redraftable hp hc
  have hlen : m.content.length = m.size := by rw [h.content_length hp, h.size_eq]
  rw [h.size_eq] at hb
  have hcheck : ∀ e ∈ es, e.check m.reading.draft.kind m.reading.draft.size = .ok () := by
    intro e he
    exact Draft.check_edits h.allowed m.checksum e (hes.mem_iff.2 he)
  obtain ⟨fresh, hcreate, hedits⟩ := Draft.create_edits hb hcheck
  rw [h.built_eq hp hb hes] at hedits
  rw [m.draft_kind] at hcreate
  have hheader : m.kind.headerSize ≤ buffer.length := by
    rw [hb, ← m.draft_kind]
    exact m.reading.draft.headerSize_le_size
  refine ⟨fresh, _, hcreate, hedits, Memory.build_ofBuffer hheader hcreate hedits, m.draft_kind, ?_,
    (size_bounds hp.headerSize_le).2, ?_⟩
  · rw [List.length_mapIdx, hlen]
  · intro i hi
    exact byteAt_pinned hp (by rw [hlen]; exact hi)

/-- A query with a source, and a report with a source and an auxiliary word in the first of its two
records. There are bytes behind both, and none of these is built again. -/
theorem rebuild_parsed_lists :
    (let payload : Bytes :=
      [0x11, 0x64, 0x12, 0x34, 239, 1, 2, 3, 0xfa, 0x7d, 0, 1, 10, 0, 0, 1, 9, 9, 9, 9]
    let m : Message := ⟨.v3Query, .readOnly, payload⟩
    let es : List Edit := [.checksum 0x1234, .sources [⟨10, 0, 0, 1⟩], .queryInterval ⟨0x7d⟩,
      .robustness ⟨2⟩, .suppress true, .group ⟨239, 1, 2, 3⟩, .maxResponseCode ⟨0x64⟩]
    parse .readOnly payload .igmp 40 20 = .ok m ∧ m.Complete ∧
      (m.reading.draft.edits ++ [Edit.checksum m.checksum]).Perm es ∧
      ∃ fresh rebuilt, create .v3Query (List.replicate 16 0xff) = .ok fresh ∧
        es.foldlM edit fresh = .ok rebuilt ∧
        (InPlace.build .v3Query es).run (.ofBuffer (List.replicate 16 0xff)) =
          .ok () (.ofBuffer rebuilt.region) ∧
        rebuilt.region.length = 16 ∧
        ∀ i < 16, rebuilt.region.byteAt i = payload.byteAt i &&& m.kind.freeBits i) ∧
    (let payload : Bytes :=
      [0x22, 7, 0x12, 0x34, 9, 9, 0, 2, 1, 1, 0, 1, 239, 1, 2, 3, 10, 0, 0, 1, 0xca, 0xfe, 0xba,
        0xbe, 6, 0, 0, 0, 239, 1, 2, 4, 9, 9, 9, 9]
    let m : Message := ⟨.v3Report, .readOnly, payload⟩
    let rs : List GroupRecord :=
      [⟨.modeIsInclude, ⟨239, 1, 2, 3⟩, [⟨10, 0, 0, 1⟩], [⟨0xca, 0xfe, 0xba, 0xbe⟩]⟩,
        ⟨.blockOldSources, ⟨239, 1, 2, 4⟩, [], []⟩]
    let es : List Edit := [.checksum 0x1234, .records rs]
    parse .readOnly payload .igmp 56 20 = .ok m ∧ m.Complete ∧ m.records.items = rs.map .ok ∧
      (m.reading.draft.edits ++ [Edit.checksum m.checksum]).Perm es ∧
      ∃ fresh rebuilt, create .v3Report (List.replicate 32 0xff) = .ok fresh ∧
        es.foldlM edit fresh = .ok rebuilt ∧
        (InPlace.build .v3Report es).run (.ofBuffer (List.replicate 32 0xff)) =
          .ok () (.ofBuffer rebuilt.region) ∧
        rebuilt.region.length = 32 ∧
        ∀ i < 32, rebuilt.region.byteAt i = payload.byteAt i &&& m.kind.freeBits i) := by
  constructor
  · intro payload m es
    have hm : parse .readOnly payload .igmp 40 20 = .ok m :=
      parse_eq_ok_iff.2 ⟨rfl, rfl, List.prefix_rfl, rfl, by decide, by decide, rfl⟩
    have hc : m.Complete := ⟨fun _ => by decide, fun h => by simp [m] at h⟩
    have hsize : m.size = 16 := by decide
    have hb : (List.replicate 16 (0xff : UInt8)).length = m.size := by
      rw [hsize]
      rfl
    have hes : (m.reading.draft.edits ++ [Edit.checksum m.checksum]).Perm es := by decide
    obtain ⟨fresh, rebuilt, hcreate, hedits, hbuild, -, hlen, -, hbytes⟩ :=
      rebuild_parsed hm hc hb hes
    rw [hsize] at hlen hbytes
    exact ⟨hm, hc, hes, fresh, rebuilt, hcreate, hedits, hbuild, hlen, hbytes⟩
  · intro payload m rs es
    have hm : parse .readOnly payload .igmp 56 20 = .ok m :=
      parse_eq_ok_iff.2 ⟨rfl, rfl, List.prefix_rfl, rfl, by decide, by decide, rfl⟩
    have hitems : m.records.items = rs.map .ok := by decide
    have hc : m.Complete := by
      refine ⟨fun h => by simp [m] at h, fun _ => ?_⟩
      rw [hitems]
      simp
    have hsize : m.size = 32 := by decide
    have hb : (List.replicate 32 (0xff : UInt8)).length = m.size := by
      rw [hsize]
      rfl
    have hes : (m.reading.draft.edits ++ [Edit.checksum m.checksum]).Perm es := by decide
    obtain ⟨fresh, rebuilt, hcreate, hedits, hbuild, -, hlen, -, hbytes⟩ :=
      rebuild_parsed hm hc hb hes
    rw [hsize] at hlen hbytes
    exact ⟨hm, hc, hitems, hes, fresh, rebuilt, hcreate, hedits, hbuild, hlen, hbytes⟩

end Message
end Igmp
