import Igmp.FrameReport
import Igmp.Proofs.GuardedMessage

/-! # Reports with checked reads: no read of the decoder is outside of the bytes it is from -/
namespace Igmp

namespace Guarded

def headerSize (d : Datagram) : Guarded Nat := do
  let b ← byteAt d.bytes 0
  .ok (4 * (b.toNat % 16))

/-- The bytes after the header, whose declared size is held between the least size and the
length. -/
def payload (d : Datagram) : Guarded Bytes := do
  let size ← headerSize d
  let offset ← clamp Datagram.minimumHeader d.bytes.length size
  range d.bytes offset d.bytes.length

def headerChecksum (d : Datagram) : Guarded UInt16 := do
  let size ← headerSize d
  let header ← range d.bytes 0 (min size d.bytes.length)
  .ok (Checksum.ofHeader header)

def datagramReading (d : Datagram) : Guarded DatagramReading := do
  let first ← byteAt d.bytes 0
  let totalLength ← word d.bytes 2
  let timeToLive ← byteAt d.bytes 8
  let protocol ← byteAt d.bytes 9
  let checksum ← word d.bytes 10
  let source ← window d.bytes 12 4
  let destination ← window d.bytes 16 4
  let payload ← payload d
  .ok { version := first.toNat / 16
        headerLength := first.toNat % 16
        totalLength := totalLength.toNat
        timeToLive := timeToLive.toNat
        protocol := .ofId protocol
        checksum
        source := .ofBytes source
        destination := .ofBytes destination
        payload }

def message (d : Datagram) : Guarded (Except CodecError Message) := do
  let total ← word d.bytes 2
  let header ← headerSize d
  if header < Datagram.minimumHeader ∨ d.bytes.length < header then
    .ok (.error (.malformedLength total.toNat header))
  else
    let payload ← payload d
    let protocol ← byteAt d.bytes 9
    parse .readOnly payload (.ofId protocol) total.toNat header

def checkChecksum (m : Message) : ChecksumMode → Guarded (Except FrameError ChecksumStatus)
  | .ignore => .ok (.ok .unchecked)
  | .warn => do
    let valid ← hasValidChecksum m
    let calculated ← calculatedChecksum m
    .ok (.ok (if valid then .valid else .invalid calculated))
  | .strict => do
    let valid ← hasValidChecksum m
    let stored ← field Field.checksum m.region
    let calculated ← calculatedChecksum m
    .ok (if valid then .ok .valid else .error (.checksum stored calculated))

def report (d : Datagram) (m : Message) (status : ChecksumStatus) : Guarded FrameReport := do
  let header ← datagramReading d
  let reading ← reading m
  let checksum ← field Field.checksum m.region
  let size ← size m
  let content ← content m
  .ok { source := header.source
        destination := header.destination
        reading, checksum, size, content, status }

/-- The text of a report. All that the log may show of the datagram is read first. -/
def describeFrame (options : ReportOptions) (frame : Bytes) : Guarded (Except FrameError String) :=
  if frame.length < options.linkHeader then
    .ok (.error (.shorterThanLinkHeader frame.length options.linkHeader))
  else
    match Datagram.view (frame.drop options.linkHeader) with
    | .error e => .ok (.error (.header e))
    | .ok d => do
      let header ← datagramReading d
      if header.version ≠ 4 then .ok (.error (.version header.version))
      else
        match ← message d with
        | .error e => .ok (.error (.message e))
        | .ok m =>
          match ← checkChecksum m options.checksumMode with
          | .error e => .ok (.error e)
          | .ok status =>
            let report ← report d m status
            .ok (.ok (report.text options.showBytes options.detail))

section Datagram

variable {d : Datagram} (h : Datagram.minimumHeader ≤ d.bytes.length)

include h

theorem headerSize_eq : headerSize d = .ok d.headerSize := by
  rw [Datagram.minimumHeader] at h
  rw [headerSize, byteAt_eq (by omega), ok_bind]
  rfl

theorem payload_eq : payload d = .ok d.payload := by
  rw [payload, headerSize_eq h, ok_bind, clamp_eq h, ok_bind, range_from (Nat.min_le_left _ _),
    Datagram.payload]
  rcases Nat.le_total (max Datagram.minimumHeader d.headerSize) d.bytes.length with hle | hle
  · rw [Nat.min_eq_right hle]
  · rw [Nat.min_eq_left hle, List.drop_length, List.drop_of_length_le hle]

theorem headerChecksum_eq : headerChecksum d = .ok d.calculatedChecksum := by
  rw [headerChecksum, headerSize_eq h, ok_bind, range_to (Nat.min_le_right _ _), ok_bind,
    Datagram.calculatedChecksum]
  rcases Nat.le_total d.headerSize d.bytes.length with hle | hle
  · rw [Nat.min_eq_left hle]
  · rw [Nat.min_eq_right hle, List.take_length, List.take_of_length_le hle]

theorem datagramReading_eq : datagramReading d = .ok d.reading := by
  have hpayload := payload_eq h
  rw [Datagram.minimumHeader] at h
  rw [datagramReading, byteAt_eq (by omega), ok_bind, word_eq (by omega), ok_bind,
    byteAt_eq (by omega), ok_bind, byteAt_eq (by omega), ok_bind, word_eq (by omega), ok_bind,
    window_eq (by omega), ok_bind, window_eq (by omega), ok_bind, hpayload, ok_bind]
  rfl

theorem message_eq : message d = .ok d.message := by
  have hsize := headerSize_eq h
  have hpayload := payload_eq h
  rw [message, word_eq (by rw [Datagram.minimumHeader] at h; omega), ok_bind, hsize, ok_bind,
    Datagram.message]
  split
  · rfl
  · rw [hpayload, ok_bind, byteAt_eq (by rw [Datagram.minimumHeader] at h; omega), ok_bind,
      parse_eq]
    rfl

end Datagram

theorem checkChecksum_eq {m : Message} (h : m.kind.headerSize ≤ m.region.length)
    (mode : ChecksumMode) :
    checkChecksum m mode = .ok (m.checkChecksum mode) := by
  cases mode with
  | ignore => rfl
  | warn =>
    rw [checkChecksum, hasValidChecksum_eq h, ok_bind, calculatedChecksum_eq h, ok_bind]
    rfl
  | strict =>
    rw [checkChecksum, hasValidChecksum_eq h, ok_bind, checksum_eq h, ok_bind,
      calculatedChecksum_eq h, ok_bind]
    rfl

theorem report_eq {d : Datagram} {m : Message} (hd : Datagram.minimumHeader ≤ d.bytes.length)
    (hm : m.kind.headerSize ≤ m.region.length) (status : ChecksumStatus) :
    report d m status = .ok (.ofMessage d m status) := by
  rw [report, datagramReading_eq hd, ok_bind, reading_eq hm, ok_bind, checksum_eq hm, ok_bind,
    size_eq hm, ok_bind, content_eq hm, ok_bind]
  rfl

end Guarded

/-- A message that a reader has got: from a view, from a payload or from a datagram. -/
inductive Message.Obtained : Message → Prop where
  | view {kind : MessageKind} {bs : Bytes} {m : Message} (h : Message.view kind bs = .ok m) :
      Obtained m
  | parse {access : Access} {payload : Bytes} {protocol : Protocol} {total header : Nat}
      {m : Message} (h : Message.parse access payload protocol total header = .ok m) : Obtained m
  | datagram {bs : Bytes} {d : Datagram} {m : Message} (hd : Datagram.view bs = .ok d)
      (h : d.message = .ok m) : Obtained m

theorem Datagram.view_eq_ok_iff {bs : Bytes} {d : Datagram} :
    view bs = .ok d ↔ minimumHeader ≤ bs.length ∧ d = ⟨bs⟩ := by
  rw [view, Guarded.bind_eq_ok_iff]
  constructor
  · rintro ⟨done, hroom, hd⟩
    exact ⟨(Edit.require_eq_ok_iff _ _ _).1 hroom, (Except.ok.inj hd).symm⟩
  · rintro ⟨hmin, rfl⟩
    exact ⟨(), (Edit.require_eq_ok_iff _ _ _).2 hmin, rfl⟩

theorem Datagram.minimumHeader_le_of_view {bs : Bytes} {d : Datagram} (h : view bs = .ok d) :
    minimumHeader ≤ d.bytes.length := by
  obtain ⟨hmin, rfl⟩ := view_eq_ok_iff.1 h
  exact hmin

namespace Message

theorem headerSize_le_of_view {kind : MessageKind} {bs : Bytes} {m : Message}
    (h : view kind bs = .ok m) :
    m.kind.headerSize ≤ m.region.length := by
  unfold view at h
  cases hr : Container.require (.message kind) kind.headerSize bs.length with
  | error e => simp [hr, bind, Except.bind] at h
  | ok u =>
    simp only [hr, Guarded.ok_bind] at h
    split at h
    · obtain rfl := Except.ok.inj h
      exact (Edit.require_eq_ok_iff _ _ _).1 hr
    · simp at h

theorem Obtained.headerSize_le {m : Message} (h : m.Obtained) :
    m.kind.headerSize ≤ m.region.length := by
  cases h with
  | view h => exact headerSize_le_of_view h
  | parse h => exact (parse_eq_ok_iff.1 h).2.2.2.2.headerSize_le
  | datagram hd h => exact (placed_of_message h).headerSize_le

end Message

namespace Guarded

/-- The sizes of a message lie within its region, and so does everything that is read of it. The
walk over its records passes the end by less than one record. -/
structure Inside (m : Message) : Prop where
  headerSize_le : m.kind.headerSize ≤ m.region.length
  twelve_le : m.kind = .v3Query → 12 ≤ m.region.length
  eight_le_size : 8 ≤ m.size
  size_le : m.size ≤ m.region.length
  walk_lt : GroupRecord.runEnd m.recordCount (m.region.drop 8) 8 <
    m.region.length + GroupRecord.maxSize
  reading_eq : reading m = .ok m.reading
  checksum_eq : field Field.checksum m.region = .ok m.checksum
  size_eq : size m = .ok m.size
  content_eq : content m = .ok m.content
  calculatedChecksum_eq : calculatedChecksum m = .ok m.calculatedChecksum
  hasValidChecksum_eq : hasValidChecksum m = .ok m.hasValidChecksum

theorem inside {m : Message} (h : m.kind.headerSize ≤ m.region.length) : Inside m where
  headerSize_le := h
  twelve_le := by
    intro hk
    rw [hk] at h
    exact h
  eight_le_size := (Message.size_bounds h).1
  size_le := (Message.size_bounds h).2
  walk_lt := by
    have hend := GroupRecord.runEnd_le m.recordCount (m.region.drop 8) 8
    have h8 := Nat.le_trans m.kind.eight_le_headerSize h
    rw [List.length_drop, GroupRecord.headerSize] at hend
    omega
  reading_eq := reading_eq h
  checksum_eq := checksum_eq h
  size_eq := size_eq h
  content_eq := content_eq h
  calculatedChecksum_eq := calculatedChecksum_eq h
  hasValidChecksum_eq := hasValidChecksum_eq h

theorem describeFrame_eq (options : ReportOptions) (frame : Bytes) :
    describeFrame options frame = .ok (Igmp.describeFrame options frame) := by
  rw [describeFrame, Igmp.describeFrame, FrameReport.ofFrame, FrameReport.locate]
  by_cases hl : frame.length < options.linkHeader
  · rw [if_pos hl, if_pos hl]
    rfl
  rw [if_neg hl, if_neg hl]
  cases hview : Datagram.view (frame.drop options.linkHeader) with
  | error e => rfl
  | ok d =>
    have hd := Datagram.minimumHeader_le_of_view hview
    simp only [datagramReading_eq hd, mapError_ok, ok_bind]
    have hversion : d.reading.version = d.version := rfl
    rw [hversion]
    by_cases hv : d.version ≠ 4
    · rw [if_pos hv, if_pos hv]
      rfl
    rw [if_neg hv, if_neg hv, message_eq hd, ok_bind]
    cases hm : d.message with
    | error e => rfl
    | ok m =>
      have hsize := (Message.placed_of_message hm).headerSize_le
      simp only [checkChecksum_eq hsize, mapError_ok, ok_bind]
      cases hc : m.checkChecksum options.checksumMode with
      | error e => rfl
      | ok status =>
        simp only [report_eq hd hsize, ok_bind]
        rfl

/-- No read of the decoder is outside of the bytes it is from: with every read checked there is
still a message or an error for all bytes, and a report or an error for every frame. -/
theorem reads_inside :
    (∀ kind bs, view kind bs = .ok (Message.view kind bs)) ∧
    (∀ access bs protocol total header,
      parse access bs protocol total header = .ok (Message.parse access bs protocol total header)) ∧
    (∀ bs d, Datagram.view bs = .ok d →
      message d = .ok d.message ∧ datagramReading d = .ok d.reading ∧ payload d = .ok d.payload ∧
        headerChecksum d = .ok d.calculatedChecksum) ∧
    (∀ m : Message, m.Obtained → Inside m) ∧
    ∀ options frame, describeFrame options frame = .ok (Igmp.describeFrame options frame) := by
  refine ⟨view_eq, parse_eq, ?_, ?_, describeFrame_eq⟩
  · intro bs d hview
    have hd := Datagram.minimumHeader_le_of_view hview
    exact ⟨message_eq hd, datagramReading_eq hd, payload_eq hd, headerChecksum_eq hd⟩
  · intro m hm
    exact inside hm.headerSize_le

/-- A report of more records than there are, the first of which declares more than there is. -/
theorem reads_inside_overrun :
    let region : Bytes := [0x22, 0, 0, 0, 0, 0, 0xff, 0xff, 1, 0xff, 0xff, 0xff, 224, 0, 0, 1]
    let header : Bytes := [0x45, 0, 0, 36, 0, 0, 0, 0, 1, 2, 0, 0, 10, 0, 0, 1, 224, 0, 0, 22]
    let m : Message := ⟨.v3Report, .readOnly, region⟩
    let bs := header ++ region
    Datagram.view bs = .ok ⟨bs⟩ ∧ (⟨bs⟩ : Datagram).message = .ok m ∧ message ⟨bs⟩ = .ok (.ok m) ∧
      Inside m ∧ m.size = 16 := by
  intro region header m bs
  have hview : Datagram.view bs = .ok ⟨bs⟩ := rfl
  have hmessage : (⟨bs⟩ : Datagram).message = .ok m := by
    rw [Datagram.message, if_neg (by decide)]
    exact Message.parse_eq_ok_iff.2 ⟨rfl, by decide, by decide, rfl, by decide, by decide, rfl⟩
  have hguarded := (reads_inside.2.2.1 bs ⟨bs⟩ hview).1
  rw [hmessage] at hguarded
  exact ⟨hview, hmessage, hguarded, reads_inside.2.2.2.1 m (.datagram hview hmessage), by decide⟩

end Guarded
end Igmp
