import Igmp.Proofs.Draft
import Igmp.Proofs.ParsedMessage

/-! # What is read from a region that holds the values of a message -/
namespace Igmp

namespace Edit.Stored

variable {region : Bytes}

theorem get_eq {α : Type} {e : Edit} {f : Field α} {value : α} (h : e.Stored region)
    (hf : f.Lawful) (hstop : f.offset + f.width = e.stop)
    (hw : e.write region = f.set value region) :
    f.get region = value := by
  apply Field.get_of_set_eq hf
  · rw [hstop]
    exact h.stop_le
  · rw [← hw, h.write_eq]

theorem group_eq {value : Address} (h : (group value).Stored region) :
    Field.group.get region = value :=
  h.get_eq Field.group_lawful rfl rfl

theorem responseTime_eq {value : ResponseTime} (h : (responseTime value).Stored region) :
    Field.responseTime.get region = value := h.get_eq (Field.byte_lawful fun _ => rfl) rfl rfl

theorem maxResponseCode_eq {value : MaxResponseCode} (h : (maxResponseCode value).Stored region) :
    Field.maxResponseCode.get region = value := h.get_eq (Field.byte_lawful fun _ => rfl) rfl rfl

theorem suppress_eq {value : Bool} (h : (suppress value).Stored region) :
    Field.suppress.get region = value :=
  h.get_eq (Field.flags_lawful fun _ _ => rfl) rfl rfl

theorem robustness_eq {value : Robustness} (h : (robustness value).Stored region) :
    Field.robustness.get region = value := h.get_eq (Field.flags_lawful fun _ _ => rfl) rfl rfl

theorem queryInterval_eq {value : QueryIntervalCode} (h : (queryInterval value).Stored region) :
    Field.queryInterval.get region = value := h.get_eq (Field.byte_lawful fun _ => rfl) rfl rfl

theorem sources_eq {addresses : List Address} (h : (sources addresses).Stored region) :
    (region.slice 12 (4 * addresses.length)).fours Address.mk = addresses := by
  obtain ⟨-, -, hlist⟩ := (stored_sources_iff addresses region).1 h
  rw [hlist]
  simpa using Address.fours_octets addresses [] (by decide)

end Edit.Stored

theorem Field.responseTime_get (region : Bytes) :
    Field.responseTime.get region = ⟨region.byteAt 1⟩ :=
  congrArg ResponseTime.mk (Bytes.byteAt_slice (by decide))

theorem Field.maxResponseCode_get (region : Bytes) :
    Field.maxResponseCode.get region = ⟨region.byteAt 1⟩ :=
  congrArg MaxResponseCode.mk (Bytes.byteAt_slice (by decide))

theorem Field.group_get (region : Bytes) :
    Field.group.get region =
      ⟨region.byteAt 4, region.byteAt 5, region.byteAt 6, region.byteAt 7⟩ := by
  have hget : Field.group.get region = .ofBytes (region.slice 4 4) := rfl
  rw [hget, Address.ofBytes]
  simp [Bytes.byteAt_slice]

namespace Draft.Holds

variable {d : Draft} {region : Bytes}

theorem byteAt_eq (h : d.Holds region) {i : Nat} {b : UInt8} (hi : i < 8)
    (hp : ∀ x, d.kind.pin i x = b) :
    region.byteAt i = b := by
  have h8 := d.eight_le_size
  rw [← h.pinned i (by rw [h.length_eq]; omega)]
  exact hp _

theorem byteAt_zero (h : d.Holds region) : region.byteAt 0 = d.kind.type.code :=
  h.byteAt_eq (by omega) fun x => by simp [MessageKind.pin]

theorem sourceCount_toNat {c : MaxResponseCode} {group : Address} {suppress : Bool}
    {robustness : Robustness} {interval : QueryIntervalCode} {sources : List Address}
    (h : (v3Query c group suppress robustness interval sources).Holds region)
    (hn : sources.length ≤ 65535) :
    (Field.sourceCount.get region).toNat = sources.length :=
  (h.stored (.sources sources) (by simp [edits])).sourceCount_toNat hn

theorem recordCount_toNat {records : List GroupRecord} (h : (v3Report records).Holds region)
    (hn : records.length ≤ 65535) : (Field.recordCount.get region).toNat = records.length :=
  (h.stored (.records records) (by simp [edits])).recordCount_toNat hn

/-- The kind is found again, but for version 2 queries without response time. -/
theorem classify_eq (hd : d.Allowed) (h : d.Holds region) :
    MessageKind.classify region = .ok d.reading.kind := by
  rw [MessageKind.classify_of_type h.byteAt_zero]
  cases d with
  | v1Query =>
    have h1 : region.byteAt 1 = 0 := h.byteAt_eq (by omega) fun x => rfl
    simp [kind, MessageKind.type, MessageKind.ofType, h1, reading, Reading.kind]
  | v2Query responseTime group =>
    have hget := (h.stored (.responseTime responseTime) (by simp [edits])).responseTime_eq
    rw [Field.responseTime_get] at hget
    by_cases h1 : region.byteAt 1 = 0
    · have hzero : responseTime = .zero := by rw [← hget, h1]; rfl
      simp [kind, MessageKind.type, MessageKind.ofType, h1, reading, hzero, Reading.kind]
    · have hne : responseTime ≠ .zero := by
        rintro rfl
        exact h1 (congrArg ResponseTime.value hget)
      simp [kind, MessageKind.type, MessageKind.ofType, h1, h.length_eq, size, reading, hne,
        Reading.kind]
  | v3Query maxResponseCode group suppress robustness queryInterval sources =>
    have hget := (h.stored (.maxResponseCode maxResponseCode) (by simp [edits])).maxResponseCode_eq
    rw [Field.maxResponseCode_get] at hget
    have h1 : region.byteAt 1 ≠ 0 := by
      have hmade := (MaxResponseCode.made_iff maxResponseCode).1 hd.1
      rwa [← hget] at hmade
    have h8 : region.length ≠ 8 := by
      rw [h.length_eq, size]
      omega
    simp [kind, MessageKind.type, MessageKind.ofType, h1, h8, reading, Reading.kind]
  | _ => rfl

/-- The message fills its region. -/
theorem size_eq (hd : d.Allowed) (h : d.Holds region) (access : Access) {kind : MessageKind}
    (hk : kind = d.kind ∨ kind = d.reading.kind) :
    (⟨kind, access, region⟩ : Message).size = region.length := by
  have hl := h.length_eq
  cases d with
  | v3Query maxResponseCode group suppress robustness queryInterval sources =>
    obtain rfl : kind = .v3Query := hk.elim id id
    have hcount := h.sourceCount_toNat hd.2
    simp only [Message.size, Message.sourceCount, hcount]
    rw [hl, size, Nat.min_self]
  | v3Report records =>
    obtain rfl : kind = .v3Report := hk.elim id id
    obtain ⟨rest, hrest⟩ := (h.stored (.records records) (by simp [edits])).drop_eq
    simp only [Message.size, Message.recordCount, h.recordCount_toNat hd.1, hrest,
      GroupRecord.runEnd_layouts hd.2]
    rw [hl, size, Nat.min_self]
  | v2Query responseTime group =>
    have hkind : kind = .v2Query ∨ kind = .v1Query := by
      rcases hk with rfl | rfl
      · exact .inl rfl
      · by_cases hz : responseTime = .zero <;> simp [reading, hz, Reading.kind]
    rcases hkind with rfl | rfl <;> exact hl.symm
  | _ =>
    obtain rfl := hk.elim id id
    exact hl.symm

private theorem v3Query_reading {c : MaxResponseCode} {group : Address} {suppress : Bool}
    {robustness : Robustness} {interval : QueryIntervalCode} {sources : List Address}
    (h : (v3Query c group suppress robustness interval sources).Holds region)
    (hn : sources.length ≤ 65535) (access : Access) :
    (⟨.v3Query, access, region⟩ : Message).reading =
      .v3Query c group suppress robustness interval sources.length sources := by
  have hc := (h.stored (.maxResponseCode c) (by simp [edits])).maxResponseCode_eq
  have hgroup := (h.stored (.group group) (by simp [edits])).group_eq
  have hsuppress := (h.stored (.suppress suppress) (by simp [edits])).suppress_eq
  have hrobustness := (h.stored (.robustness robustness) (by simp [edits])).robustness_eq
  have hinterval := (h.stored (.queryInterval interval) (by simp [edits])).queryInterval_eq
  have hcount := h.sourceCount_toNat hn
  have hsources := (h.stored (.sources sources) (by simp [edits])).sources_eq
  simp only [Message.reading, Message.maxResponseCode, Message.suppress, Message.robustness,
    Message.queryInterval, Message.sources, Message.sourceCount, hc, hgroup, hsuppress, hrobustness,
    hinterval, hcount, hsources]

private theorem v3Report_reading {records : List GroupRecord} (h : (v3Report records).Holds region)
    (hd : (v3Report records).Allowed) (access : Access) :
    (⟨.v3Report, access, region⟩ : Message).reading =
      .v3Report records.length (records.map .ok) := by
  obtain ⟨rest, hrest⟩ := (h.stored (.records records) (by simp [edits])).drop_eq
  simp only [Message.reading, Message.records, Message.recordCount, h.recordCount_toNat hd.1, hrest,
    RecordCursor.items_layouts hd.2]

/-- Every value is found again. -/
theorem reading_eq (hd : d.Allowed) (h : d.Holds region) (access : Access) :
    (⟨d.reading.kind, access, region⟩ : Message).reading = d.reading := by
  cases d with
  | v1Query =>
    have hgroup : Field.group.get region = .zero := by
      rw [Field.group_get, h.byteAt_eq (i := 4) (by omega) fun x => rfl,
        h.byteAt_eq (i := 5) (by omega) fun x => rfl,
        h.byteAt_eq (i := 6) (by omega) fun x => rfl, h.byteAt_eq (i := 7) (by omega) fun x => rfl]
      rfl
    exact congrArg Reading.v1Query hgroup
  | v1Report group =>
    have hgroup := (h.stored (.group group) (by simp [edits])).group_eq
    exact congrArg Reading.v1Report hgroup
  | v2Query responseTime group =>
    have hgroup := (h.stored (.group group) (by simp [edits])).group_eq
    have htime := (h.stored (.responseTime responseTime) (by simp [edits])).responseTime_eq
    by_cases hz : responseTime = .zero
    · simp [reading, hz, Reading.kind, Message.reading, hgroup]
    · simp [reading, hz, Reading.kind, Message.reading, Message.responseTime, hgroup, htime]
  | v2Report group | v2Leave group =>
    have hgroup := (h.stored (.group group) (by simp [edits])).group_eq
    have htime : Field.responseTime.get region = .zero := by
      rw [Field.responseTime_get, h.byteAt_eq (i := 1) (by omega) fun x => rfl]
      rfl
    simp [reading, Reading.kind, Message.reading, Message.responseTime, hgroup, htime]
  | v3Query c group suppress robustness interval sources => exact h.v3Query_reading hd.2 access
  | v3Report records => exact h.v3Report_reading hd access

end Draft.Holds
end Igmp
