import Igmp.Proofs.ParsedMessage

/-! # The message in a datagram, by the bytes of the datagram alone -/
namespace Igmp

namespace MessageKind

/-- The kind that the first two bytes of a message and its size tell. -/
def ofBytes? (code second : UInt8) (size : Nat) : Option MessageKind :=
  if code = 0x11 then
    some (if second = 0 then .v1Query else if size = 8 then .v2Query else .v3Query)
  else if code = 0x12 then some .v1Report
  else if code = 0x16 then some .v2Report
  else if code = 0x17 then some .v2Leave
  else if code = 0x22 then some .v3Report
  else none

theorem ofBytes?_code (type : MessageType) (second : UInt8) (size : Nat) :
    ofBytes? type.code second size = some (ofType second size type) := by cases type <;> rfl

theorem ofBytes?_of_unknown {code : UInt8} (h : ∀ type : MessageType, code ≠ type.code)
    (second : UInt8) (size : Nat) :
    ofBytes? code second size = none := by
  have h11 : code ≠ 0x11 := h .membershipQuery
  have h12 : code ≠ 0x12 := h .v1MembershipReport
  have h16 : code ≠ 0x16 := h .v2MembershipReport
  have h17 : code ≠ 0x17 := h .leaveGroup
  have h22 : code ≠ 0x22 := h .v3MembershipReport
  rw [ofBytes?, if_neg h11, if_neg h12, if_neg h16, if_neg h17, if_neg h22]

theorem classify_eq (region : Bytes) :
    classify region = match ofBytes? (region.byteAt 0) (region.byteAt 1) region.length with
      | some kind => .ok kind
      | none => .error (.unknownCode .messageType (region.byteAt 0)) := by
  by_cases h : ∃ type : MessageType, region.byteAt 0 = type.code
  · obtain ⟨type, htype⟩ := h
    rw [classify_of_type htype, htype, ofBytes?_code]
  · have hne : ∀ type : MessageType, region.byteAt 0 ≠ type.code :=
      fun type htype => h ⟨type, htype⟩
    rw [classify_of_unknown hne, ofBytes?_of_unknown hne]

end MessageKind

namespace Datagram

/-- What becomes of a run of bytes that is taken for a datagram: the first rule that is broken, or
the message. -/
def verdict (p : Bytes) : Except CodecError Message :=
  let header := 4 * (p.byteAt 0 &&& 0x0f).toNat
  let total := (p.byteAt 2).toNat * 256 + (p.byteAt 3).toNat
  if p.length < 20 then .error (.insufficientBuffer .datagram 20 p.length)
  else if header < 20 ∨ p.length < header then .error (.malformedLength total header)
  else if p.byteAt 9 ≠ 2 then .error (.protocolMismatch (p.byteAt 9))
  else if total < header ∨ total - header < 8 ∨ (total - header) % 4 ≠ 0 then
    .error (.malformedLength total header)
  else if p.length < total then
    .error (.insufficientBuffer .payload (total - header) (p.length - header))
  else
    match MessageKind.ofBytes? (p.byteAt header) (p.byteAt (header + 1)) (total - header) with
    | some kind => .ok ⟨kind, .readOnly, (p.drop header).take (total - header)⟩
    | none => .error (.unknownCode .messageType (p.byteAt header))

theorem view_eq (p : Bytes) :
    view p =
      if p.length < 20 then .error (.insufficientBuffer .datagram 20 p.length) else .ok ⟨p⟩ := by
  unfold view Container.require minimumHeader
  by_cases h : p.length < 20
  · rw [if_pos h, if_neg (by omega)]
    rfl
  · rw [if_neg h, if_pos (by omega)]
    rfl

theorem headerSize_eq (d : Datagram) : d.headerSize = 4 * (d.bytes.byteAt 0 &&& 0x0f).toNat := by
  rw [headerSize, headerLength, Bytes.and_0f, UInt8.toNat_mod]
  rfl

theorem totalLength_eq (d : Datagram) :
    d.totalLength = (d.bytes.byteAt 2).toNat * 256 + (d.bytes.byteAt 3).toNat :=
  Bytes.word_toNat _ _

end Datagram

/-- Parsing where the protocol is told by its number, and the kind by the bytes of the payload. -/
theorem Message.parse_eq (access : Access) (payload : Bytes) (id : UInt8) (total header : Nat) :
    parse access payload (.ofId id) total header =
      if id ≠ 2 then .error (.protocolMismatch id)
      else if total < header ∨ total - header < 8 ∨ (total - header) % 4 ≠ 0 then
        .error (.malformedLength total header)
      else if payload.length < total - header then
        .error (.insufficientBuffer .payload (total - header) payload.length)
      else
        match MessageKind.ofBytes? (payload.byteAt 0) (payload.byteAt 1) (total - header) with
        | some kind => .ok ⟨kind, access, payload.take (total - header)⟩
        | none => .error (.unknownCode .messageType (payload.byteAt 0)) := by
  rw [parse, regionSize_eq, Protocol.id_ofId]
  by_cases hid : id = 2
  · have hp : Protocol.ofId id = .igmp := (Protocol.ofId_eq_igmp_iff id).2 hid
    rw [if_neg (not_not_intro hp), if_neg (not_not_intro hid)]
    by_cases hl : total < header ∨ total - header < 8 ∨ (total - header) % 4 ≠ 0
    · rw [if_pos hl, if_pos hl]
      rfl
    rw [if_neg hl, if_neg hl]
    by_cases ha : payload.length < total - header
    · rw [if_pos ha, if_pos ha]
      rfl
    rw [if_neg ha, if_neg ha]
    have hlen : (payload.take (total - header)).length = total - header := by
      rw [List.length_take]
      omega
    simp only [bind, Except.bind]
    rw [MessageKind.classify_eq, hlen, Bytes.byteAt_take (by omega), Bytes.byteAt_take (by omega)]
    cases MessageKind.ofBytes? (payload.byteAt 0) (payload.byteAt 1) (total - header) <;> rfl
  · have hp : Protocol.ofId id ≠ .igmp := fun h => hid ((Protocol.ofId_eq_igmp_iff id).1 h)
    rw [if_pos hp, if_pos hid]
    rfl

namespace Datagram

theorem message_eq (d : Datagram) :
    d.message =
      if d.headerSize < 20 ∨ d.bytes.length < d.headerSize then
        .error (.malformedLength d.totalLength d.headerSize)
      else if d.bytes.byteAt 9 ≠ 2 then .error (.protocolMismatch (d.bytes.byteAt 9))
      else if d.totalLength < d.headerSize ∨ d.totalLength - d.headerSize < 8 ∨
          (d.totalLength - d.headerSize) % 4 ≠ 0 then
        .error (.malformedLength d.totalLength d.headerSize)
      else if d.bytes.length < d.totalLength then
        .error (.insufficientBuffer .payload (d.totalLength - d.headerSize)
          (d.bytes.length - d.headerSize))
      else
        match MessageKind.ofBytes? (d.bytes.byteAt d.headerSize) (d.bytes.byteAt (d.headerSize + 1))
            (d.totalLength - d.headerSize) with
        | some kind =>
          .ok ⟨kind, .readOnly, (d.bytes.drop d.headerSize).take (d.totalLength - d.headerSize)⟩
        | none => .error (.unknownCode .messageType (d.bytes.byteAt d.headerSize)) := by
  rw [message]
  by_cases hh : d.headerSize < 20 ∨ d.bytes.length < d.headerSize
  · rw [if_pos hh]
    exact if_pos hh
  rw [if_neg hh]
  refine (if_neg hh).trans ?_
  have hpayload : d.payload = d.bytes.drop d.headerSize := by
    rw [payload, Nat.max_eq_right (by simp only [minimumHeader]; omega)]
  have hroom : d.bytes.length - d.headerSize < d.totalLength - d.headerSize ↔
      d.bytes.length < d.totalLength := by
    omega
  rw [protocol, Message.parse_eq, hpayload, List.length_drop, Bytes.byteAt_drop, Bytes.byteAt_drop,
    Nat.add_zero]
  simp only [hroom]

/-- The message in a datagram, and which error is told where there are several. -/
theorem message_eq_verdict (p : Bytes) : view p >>= message = verdict p := by
  rw [view_eq, verdict]
  by_cases h20 : p.length < 20
  · rw [if_pos h20, if_pos h20]
    rfl
  · rw [if_neg h20, if_neg h20, ← totalLength_eq ⟨p⟩, ← headerSize_eq ⟨p⟩]
    exact message_eq ⟨p⟩

end Datagram
end Igmp
