import Igmp.Dispatch
import Igmp.Proofs.EditStamp

/-! # What parsing accepts, and what is known of a parsed message -/
namespace Igmp

namespace MessageKind

/-- The kind that the type, the second byte and the size of a message tell. -/
def ofType (second : UInt8) (size : Nat) : MessageType → MessageKind
  | .membershipQuery => if second = 0 then .v1Query else if size = 8 then .v2Query else .v3Query
  | .v1MembershipReport => .v1Report
  | .v2MembershipReport => .v2Report
  | .v3MembershipReport => .v3Report
  | .leaveGroup => .v2Leave

theorem classify_of_type {region : Bytes} {type : MessageType} (h : region.byteAt 0 = type.code) :
    classify region = .ok (ofType (region.byteAt 1) region.length type) := by
  simp only [classify, h, MessageType.ofCode?_code]
  cases type <;> rfl

theorem classify_of_unknown {region : Bytes}
    (h : ∀ type : MessageType, region.byteAt 0 ≠ type.code) :
    classify region = .error (.unknownCode .messageType (region.byteAt 0)) := by
  cases hc : MessageType.ofCode? (region.byteAt 0) with
  | none => simp [classify, hc]
  | some type => exact absurd (MessageType.code_of_ofCode? _ _ hc).symm (h type)

/-- The bytes that tell the kind. -/
theorem classify_eq_ok_iff (region : Bytes) (kind : MessageKind) :
    classify region = .ok kind ↔ region.byteAt 0 = kind.type.code ∧
      (kind.type = .membershipQuery →
        (region.byteAt 1 = 0 ↔ kind = .v1Query) ∧ (kind = .v2Query → region.length = 8) ∧
          (kind = .v3Query → region.length ≠ 8)) := by
  constructor
  · intro h
    cases ht : MessageType.ofCode? (region.byteAt 0) with
    | none => simp [classify, ht] at h
    | some type =>
      have hcode := MessageType.code_of_ofCode? _ _ ht
      rw [classify_of_type hcode.symm] at h
      obtain rfl := Except.ok.inj h
      cases type with
      | membershipQuery =>
        by_cases h1 : region.byteAt 1 = 0
        · simp [ofType, h1, type, hcode]
        · by_cases h8 : region.length = 8
          · simp [ofType, h1, h8, type, hcode]
          · simp [ofType, h1, h8, type, hcode]
      | _ => simp [ofType, type, hcode]
  · rintro ⟨h0, hq⟩
    rw [classify_of_type h0]
    cases kind with
    | v1Query => simp [ofType, type, (hq rfl).1.2 rfl]
    | v2Query =>
      have h1 : region.byteAt 1 ≠ 0 := by simpa using (hq rfl).1
      simp [ofType, type, h1, (hq rfl).2.1 rfl]
    | v3Query =>
      have h1 : region.byteAt 1 ≠ 0 := by simpa using (hq rfl).1
      simp [ofType, type, h1, (hq rfl).2.2 rfl]
    | _ => rfl

end MessageKind

namespace Message

/-- The size of a message is found exactly where the lengths agree. -/
theorem regionSize_eq (available : Nat) (protocol : Protocol) (total header : Nat) :
    regionSize available protocol total header =
      if protocol ≠ .igmp then .error (.protocolMismatch protocol.id)
      else if total < header ∨ total - header < 8 ∨ (total - header) % 4 ≠ 0 then
        .error (.malformedLength total header)
      else if available < total - header then
        .error (.insufficientBuffer .payload (total - header) available)
      else .ok (total - header) := by
  by_cases hp : protocol = .igmp
  · by_cases hl : header ≤ total ∧ 8 ≤ total - header ∧ (total - header) % 4 = 0
    · have hl' : ¬ (total < header ∨ total - header < 8 ∨ (total - header) % 4 ≠ 0) := by omega
      simp only [regionSize, hp, ne_eq, not_true_eq_false, if_false, if_pos hl, if_neg hl',
        Container.require]
      by_cases ha : total - header ≤ available
      · rw [if_pos ha, if_neg (by omega)]
        rfl
      · rw [if_neg ha, if_pos (by omega)]
        rfl
    · have hl' : total < header ∨ total - header < 8 ∨ (total - header) % 4 ≠ 0 := by omega
      simp [regionSize, hp, if_neg hl, if_pos hl']
  · simp [regionSize, hp]

theorem regionSize_bounds {available : Nat} {protocol : Protocol} {total header size : Nat}
    (h : regionSize available protocol total header = .ok size) : 8 ≤ size ∧ size ≤ available := by
  rw [regionSize_eq] at h
  split at h
  · simp at h
  split at h
  · simp at h
  split at h
  · simp at h
  · obtain rfl := Except.ok.inj h
    omega

/-- A message that fills a region of its kind. -/
structure Placed (m : Message) : Prop where
  eight_le : 8 ≤ m.region.length
  mod_four : m.region.length % 4 = 0
  classified : MessageKind.classify m.region = .ok m.kind

theorem parse_eq_ok_iff {access : Access} {payload : Bytes} {protocol : Protocol}
    {total header : Nat} {m : Message} :
    parse access payload protocol total header = .ok m ↔
      protocol = .igmp ∧ total = header + m.region.length ∧ m.region <+: payload ∧
        m.access = access ∧ m.Placed := by
  rw [parse, regionSize_eq]
  constructor
  · intro h
    split at h
    · simp [bind, Except.bind] at h
    rename_i hp
    split at h
    · simp [bind, Except.bind] at h
    rename_i hl
    split at h
    · simp [bind, Except.bind] at h
    rename_i ha
    cases hk : MessageKind.classify (payload.take (total - header)) with
    | error e => simp [bind, Except.bind, hk] at h
    | ok kind =>
      simp only [bind, Except.bind, hk, Except.ok.injEq] at h
      subst h
      have hlen : (payload.take (total - header)).length = total - header := by
        rw [List.length_take]
        omega
      refine ⟨by simpa using hp, ?_, List.take_prefix _ _, rfl, ?_, ?_, hk⟩
      · simp only [hlen]
        omega
      · simp only [hlen]
        omega
      · simp only [hlen]
        omega
  · rintro ⟨rfl, rfl, hpre, rfl, h8, h4, hk⟩
    have hle := hpre.length_le
    rw [if_neg (by simp), if_neg (by omega), if_neg (by omega)]
    have hsub : header + m.region.length - header = m.region.length := by omega
    have htake : payload.take m.region.length = m.region := (List.prefix_iff_eq_take.1 hpre).symm
    simp [bind, Except.bind, hsub, htake, hk]

theorem Placed.headerSize_le {m : Message} (h : m.Placed) :
    m.kind.headerSize ≤ m.region.length := by
  obtain ⟨h8, h4, hk⟩ := h
  cases hkind : m.kind with
  | v3Query =>
    have hquery : m.kind.type = .membershipQuery := by simp [hkind, MessageKind.type]
    have hne := (((MessageKind.classify_eq_ok_iff _ _).1 hk).2 hquery).2.2 hkind
    simp only [MessageKind.headerSize]
    omega
  | _ => exact h8

end Message

/-- A datagram with a message has a header length that it can have. -/
theorem Datagram.parse_of_message {d : Datagram} {m : Message} (h : d.message = .ok m) :
    Message.parse .readOnly d.payload d.protocol d.totalLength d.headerSize = .ok m := by
  unfold message at h
  split at h
  · simp at h
  · exact h

theorem Message.placed_of_message {d : Datagram} {m : Message} (h : d.message = .ok m) :
    m.Placed :=
  (parse_eq_ok_iff.1 (Datagram.parse_of_message h)).2.2.2.2

namespace GroupRecord

theorem le_runEnd (count : Nat) (bs : Bytes) (offset : Nat) : offset ≤ runEnd count bs offset := by
  induction count generalizing bs offset with
  | zero => exact Nat.le_refl _
  | succ count ih =>
    rw [runEnd]
    cases declaredSize? bs with
    | none => exact Nat.le_refl _
    | some size => exact Nat.le_trans (Nat.le_add_right _ _) (ih _ _)

/-- The size of a record with as many sources and auxiliary words as can be declared. -/
def maxSize : Nat := headerSize + 4 * maxSources + 4 * maxAuxiliaryWords

theorem declaredSize_le (bs : Bytes) : declaredSize bs ≤ maxSize := by
  have hw := (bs.wordAt 2).toNat_lt
  have hb := (bs.byteAt 1).toNat_lt
  simp only [declaredSize, maxSize, maxSources, maxAuxiliaryWords, headerSize]
  omega

theorem runEnd_nil (count offset : Nat) : runEnd count [] offset = offset := by cases count <;> rfl

/-- Only the last record of a walk may reach beyond the bytes. -/
theorem runEnd_le (count : Nat) (bs : Bytes) (offset : Nat) :
    runEnd count bs offset + headerSize ≤ offset + bs.length + maxSize := by
  have hmax : headerSize ≤ maxSize := by decide
  induction count generalizing bs offset with
  | zero =>
    rw [runEnd]
    omega
  | succ count ih =>
    rw [runEnd, declaredSize?_eq]
    by_cases h : bs.length < headerSize
    · rw [if_pos h]
      simp only
      omega
    · have hsize := declaredSize_le bs
      rw [if_neg h]
      simp only
      rcases Nat.le_total bs.length (declaredSize bs) with hle | hle
      · rw [List.drop_of_length_le hle, runEnd_nil]
        omega
      · have hrest := ih (bs.drop (declaredSize bs)) (offset + declaredSize bs)
        rw [List.length_drop] at hrest
        omega

end GroupRecord

namespace Message

theorem size_bounds {m : Message} (h : m.kind.headerSize ≤ m.region.length) :
    8 ≤ m.size ∧ m.size ≤ m.region.length := by
  have h8 := Nat.le_trans m.kind.eight_le_headerSize h
  unfold size
  cases hkind : m.kind with
  | v3Query =>
    simp only [hkind, MessageKind.headerSize] at h
    simp only
    omega
  | v3Report =>
    have hend := GroupRecord.le_runEnd m.recordCount (m.region.drop 8) 8
    simp only
    omega
  | _ => exact ⟨Nat.le_refl _, h8⟩

variable {m : Message}

theorem content_length (h : m.kind.headerSize ≤ m.region.length) : m.content.length = m.size := by
  rw [content, List.length_take, Nat.min_eq_left (size_bounds h).2]

theorem checksum_eq_wordAt (h : m.kind.headerSize ≤ m.region.length) :
    m.checksum = m.content.wordAt 2 := by
  have hsize := (size_bounds h).1
  have hget : m.checksum = Bytes.word ((m.region.slice 2 2).byteAt 0)
      ((m.region.slice 2 2).byteAt 1) := rfl
  rw [hget, Bytes.byteAt_slice (by omega), Bytes.byteAt_slice (by omega), Bytes.wordAt, content,
    Bytes.byteAt_take (by omega), Bytes.byteAt_take (by omega)]

theorem byteAt_zero_content (h : m.kind.headerSize ≤ m.region.length) :
    m.content.byteAt 0 = m.region.byteAt 0 := by
  have hsize := (size_bounds h).1
  rw [content, Bytes.byteAt_take (by omega)]

end Message
end Igmp
