import Igmp.Proofs.GuardedReport

/-! # Reports on one frame in all modes, and on the frame with more bytes behind it -/
namespace Igmp

namespace Bytes

theorem byteAt_append_left {bs : Bytes} {i : Nat} (h : i < bs.length) (more : Bytes) :
    Bytes.byteAt (bs ++ more) i = bs.byteAt i := by
  rw [byteAt, byteAt, List.getD_append _ _ _ _ h]

theorem slice_append_left {bs : Bytes} {offset width : Nat} (h : offset + width ≤ bs.length)
    (more : Bytes) : Bytes.slice (bs ++ more) offset width = bs.slice offset width := by
  rw [slice, slice, List.drop_append_of_le_length (by omega),
    List.take_append_of_le_length (by rw [List.length_drop]; omega)]

end Bytes

/-- What follows a message in a payload does not matter to it. -/
theorem Message.parse_append {access : Access} {payload : Bytes} {protocol : Protocol}
    {total header : Nat} {m : Message} (h : parse access payload protocol total header = .ok m)
    (more : Bytes) : parse access (payload ++ more) protocol total header = .ok m := by
  obtain ⟨hprotocol, htotal, hprefix, haccess, hplaced⟩ := parse_eq_ok_iff.1 h
  exact parse_eq_ok_iff.2
    ⟨hprotocol, htotal, hprefix.trans (List.prefix_append _ _), haccess, hplaced⟩

namespace Datagram

theorem message_eq_ok_iff {d : Datagram} {m : Message} :
    d.message = .ok m ↔
      minimumHeader ≤ d.headerSize ∧ d.headerSize ≤ d.bytes.length ∧
        Message.parse .readOnly (d.bytes.drop d.headerSize) d.protocol d.totalLength
          d.headerSize = .ok m := by
  unfold message
  by_cases h : d.headerSize < minimumHeader ∨ d.bytes.length < d.headerSize
  · rw [if_pos h]
    exact iff_of_false (by simp) (by omega)
  · have hpayload : d.payload = d.bytes.drop d.headerSize := by
      rw [payload, Nat.max_eq_right (by omega)]
    rw [if_neg h, hpayload]
    exact ⟨fun hm => ⟨by omega, by omega, hm⟩, fun hm => hm.2.2⟩

/-- The datagram with more bytes behind it. -/
def padded (d : Datagram) (more : Bytes) : Datagram := ⟨d.bytes ++ more⟩

section Padded

variable {d : Datagram} (h : minimumHeader ≤ d.bytes.length) (more : Bytes)

include h

theorem byteAt_padded {i : Nat} (hi : i < 20) :
    (d.padded more).bytes.byteAt i = d.bytes.byteAt i :=
  Bytes.byteAt_append_left (Nat.lt_of_lt_of_le hi h) more

theorem version_padded : (d.padded more).version = d.version := by
  rw [version, version, byteAt_padded h more (by decide)]

theorem headerSize_padded : (d.padded more).headerSize = d.headerSize := by
  rw [headerSize, headerSize, headerLength, headerLength, byteAt_padded h more (by decide)]

theorem totalLength_padded : (d.padded more).totalLength = d.totalLength := by
  rw [totalLength, totalLength, Bytes.wordAt, Bytes.wordAt, byteAt_padded h more (by decide),
    byteAt_padded h more (by decide)]

theorem protocol_padded : (d.padded more).protocol = d.protocol := by
  rw [protocol, protocol, byteAt_padded h more (by decide)]

theorem source_padded : (d.padded more).source = d.source := by
  rw [source, source, padded, Bytes.slice_append_left (Nat.le_trans (by decide) h)]

theorem destination_padded : (d.padded more).destination = d.destination := by
  rw [destination, destination, padded, Bytes.slice_append_left (Nat.le_trans (by decide) h)]

theorem message_padded {m : Message} (hm : d.message = .ok m) :
    (d.padded more).message = .ok m := by
  obtain ⟨hmin, hle, hparse⟩ := message_eq_ok_iff.1 hm
  have hlen : d.bytes.length ≤ (d.padded more).bytes.length := by
    rw [padded, List.length_append]
    exact Nat.le_add_right _ _
  have hdrop : (d.padded more).bytes.drop d.headerSize = d.bytes.drop d.headerSize ++ more :=
    List.drop_append_of_le_length hle
  rw [message_eq_ok_iff, headerSize_padded h, protocol_padded h, totalLength_padded h, hdrop]
  exact ⟨hmin, Nat.le_trans hle hlen, Message.parse_append hparse more⟩

end Padded

end Datagram

namespace FrameReport

variable {linkHeader : Nat} {frame : Bytes} {d : Datagram} {m : Message}

theorem locate_eq_ok_iff :
    locate linkHeader frame = .ok (d, m) ↔
      linkHeader ≤ frame.length ∧ d = ⟨frame.drop linkHeader⟩ ∧
        Datagram.minimumHeader ≤ d.bytes.length ∧ d.version = 4 ∧ d.message = .ok m := by
  unfold locate
  by_cases hlink : frame.length < linkHeader
  · rw [if_pos hlink]
    exact iff_of_false (by simp) (by omega)
  rw [if_neg hlink, Guarded.bind_eq_ok_iff]
  constructor
  · rintro ⟨d', hview, h⟩
    obtain ⟨hmin, rfl⟩ := Datagram.view_eq_ok_iff.1 (Guarded.mapError_eq_ok_iff.1 hview)
    split at h
    · cases h
    · rename_i hversion
      obtain ⟨m', hm, hfound⟩ := Guarded.bind_eq_ok_iff.1 h
      cases hfound
      exact ⟨by omega, rfl, hmin, not_not.1 hversion, Guarded.mapError_eq_ok_iff.1 hm⟩
  · rintro ⟨-, rfl, hmin, hversion, hm⟩
    refine ⟨_, Guarded.mapError_eq_ok_iff.2 (Datagram.view_eq_ok_iff.2 ⟨hmin, rfl⟩), ?_⟩
    rw [if_neg (not_not_intro hversion), Guarded.bind_eq_ok_iff]
    exact ⟨m, Guarded.mapError_eq_ok_iff.2 hm, rfl⟩

theorem locate_append (h : locate linkHeader frame = .ok (d, m)) (more : Bytes) :
    locate linkHeader (frame ++ more) = .ok (d.padded more, m) := by
  obtain ⟨hlink, rfl, hmin, hversion, hm⟩ := locate_eq_ok_iff.1 h
  rw [locate_eq_ok_iff, List.length_append, List.drop_append_of_le_length hlink,
    Datagram.version_padded hmin]
  refine ⟨by omega, rfl, ?_, hversion, Datagram.message_padded hmin more hm⟩
  rw [Datagram.padded, List.length_append]
  omega

/-- The message in a frame lies behind both headers and ends where the datagram does. -/
theorem region_of_locate (h : locate linkHeader frame = .ok (d, m)) :
    m.region = (frame.drop (linkHeader + d.headerSize)).take (d.totalLength - d.headerSize) ∧
      m.size ≤ m.region.length := by
  obtain ⟨hlink, rfl, hmin, hversion, hm⟩ := locate_eq_ok_iff.1 h
  obtain ⟨-, -, hparse⟩ := Datagram.message_eq_ok_iff.1 hm
  obtain ⟨-, htotal, hprefix, -, hplaced⟩ := Message.parse_eq_ok_iff.1 hparse
  have hsize := (Message.size_bounds hplaced.headerSize_le).2
  rw [List.drop_drop] at hprefix
  rw [htotal, Nat.add_sub_cancel_left]
  exact ⟨List.prefix_iff_eq_take.1 hprefix, hsize⟩

/-- Lines as they stand under a headline. -/
def indented : List String → String
  | [] => ""
  | line :: lines => "\n  " ++ line ++ indented lines

theorem indented_append (lines more : List String) :
    indented (lines ++ more) = indented lines ++ indented more := by
  induction lines with
  | nil => simp [indented]
  | cons line lines ih =>
    simp only [List.cons_append, indented, ih, String.append_assoc]

theorem foldl_indented (lines : List String) (start : String) :
    lines.foldl (fun done line => done ++ "\n  " ++ line) start = start ++ indented lines := by
  induction lines generalizing start with
  | nil => simp [indented]
  | cons line lines ih =>
    rw [List.foldl_cons, ih, indented]
    simp only [String.append_assoc]

/-- The headline up to the status. -/
def lead (r : FrameReport) : String :=
  r.source.text ++ " -> " ++ r.destination.text ++ " IGMPv" ++
    DetailText.number r.reading.kind.version ++ " " ++ r.reading.kind.type.text ++ " (" ++
    DetailText.number r.size ++ " bytes) checksum " ++ HexText.number 4 r.checksum.toNat ++ " "

theorem headline_eq (r : FrameReport) : r.headline = r.lead ++ r.status.text := rfl

/-- The lines that are there only where they are asked for. -/
def bytesLine (r : FrameReport) (showBytes : Bool) : List String :=
  if showBytes then ["bytes: " ++ HexText.spaced r.content] else []

def detailLine (r : FrameReport) (detail : Bool) : List String :=
  if detail then [r.reading.detail r.checksum] else []

theorem text_eq (r : FrameReport) (showBytes detail : Bool) :
    r.text showBytes detail =
      r.lead ++ r.status.text ++ indented r.reading.summary?.toList ++
        indented (r.bytesLine showBytes) ++ indented (r.detailLine detail) := by
  rw [text, foldl_indented, headline_eq, lines, indented_append, indented_append]
  simp only [String.append_assoc]
  rfl

@[simp]
theorem indented_bytesLine_false (r : FrameReport) : indented (r.bytesLine false) = "" := rfl

@[simp]
theorem indented_detailLine_false (r : FrameReport) : indented (r.detailLine false) = "" := rfl

theorem indented_bytesLine_true (r : FrameReport) :
    indented (r.bytesLine true) = "\n  bytes: " ++ HexText.spaced r.content := by
  have hline : r.bytesLine true = ["bytes: " ++ HexText.spaced r.content] := rfl
  have hname : "\n  bytes: " = "\n  " ++ "bytes: " := rfl
  rw [hline, indented, indented, String.append_empty, hname, String.append_assoc]

/-- What is asked for is told behind the rest. -/
theorem text_eq_append (r : FrameReport) (showBytes detail : Bool) :
    r.text showBytes detail =
      r.text false false ++ (indented (r.bytesLine showBytes) ++
        indented (r.detailLine detail)) := by
  rw [text_eq, text_eq r false false, indented_bytesLine_false, indented_detailLine_false,
    String.append_empty, String.append_empty, String.append_assoc]

theorem ofMessage_padded (h : Datagram.minimumHeader ≤ d.bytes.length) (more : Bytes)
    (status : ChecksumStatus) : ofMessage (d.padded more) m status = ofMessage d m status := by
  rw [ofMessage, ofMessage, Datagram.source_padded h, Datagram.destination_padded h]

section Report

variable {mode : ChecksumMode} {showBytes detail : Bool} {t : String}

theorem describeFrame_eq_ok_iff :
    describeFrame ⟨linkHeader, mode, showBytes, detail⟩ frame = .ok t ↔
      ∃ d m status, locate linkHeader frame = .ok (d, m) ∧ m.checkChecksum mode = .ok status ∧
        (ofMessage d m status).text showBytes detail = t := by
  rw [describeFrame, Guarded.map_eq_ok_iff]
  constructor
  · rintro ⟨r, h, ht⟩
    obtain ⟨⟨d, m⟩, hl, h⟩ := Guarded.bind_eq_ok_iff.1 h
    obtain ⟨status, hs, hr⟩ := Guarded.bind_eq_ok_iff.1 h
    cases hr
    exact ⟨d, m, status, hl, hs, ht⟩
  · rintro ⟨d, m, status, hl, hs, ht⟩
    refine ⟨_, Guarded.bind_eq_ok_iff.2 ⟨(d, m), hl, ?_⟩, ht⟩
    exact Guarded.bind_eq_ok_iff.2 ⟨status, hs, rfl⟩

/-- Whether there is a report does not depend on what is to be shown in it. -/
theorem exists_describeFrame_eq_ok_iff :
    (∃ t, describeFrame ⟨linkHeader, mode, showBytes, detail⟩ frame = .ok t) ↔
      ∃ d m status, locate linkHeader frame = .ok (d, m) ∧ m.checkChecksum mode = .ok status := by
  constructor
  · rintro ⟨t, h⟩
    obtain ⟨d, m, status, hl, hs, -⟩ := describeFrame_eq_ok_iff.1 h
    exact ⟨d, m, status, hl, hs⟩
  · rintro ⟨d, m, status, hl, hs⟩
    exact ⟨_, describeFrame_eq_ok_iff.2 ⟨d, m, status, hl, hs, rfl⟩⟩

/-- Where no checksum is a failure, there is a report on each message. -/
theorem exists_describeFrame_of_total
    (hmode : ∀ m : Message, ∃ status, m.checkChecksum mode = .ok status) :
    (∃ t, describeFrame ⟨linkHeader, mode, showBytes, detail⟩ frame = .ok t) ↔
      ∃ d m, locate linkHeader frame = .ok (d, m) := by
  rw [exists_describeFrame_eq_ok_iff]
  constructor
  · rintro ⟨d, m, -, hl, -⟩
    exact ⟨d, m, hl⟩
  · rintro ⟨d, m, hl⟩
    obtain ⟨status, hs⟩ := hmode m
    exact ⟨d, m, status, hl, hs⟩

theorem describeFrame_of_locate_error {e : FrameError} (h : locate linkHeader frame = .error e) :
    describeFrame ⟨linkHeader, mode, showBytes, detail⟩ frame = .error e := by
  simp [describeFrame, ofFrame, h, bind, Except.bind, Except.map]

/-- A checksum that is only warned of is no failure. -/
theorem locate_of_warn_error {e : FrameError}
    (h : describeFrame ⟨linkHeader, .warn, showBytes, detail⟩ frame = .error e) :
    locate linkHeader frame = .error e := by
  cases hl : locate linkHeader frame with
  | error e' =>
    rw [describeFrame_of_locate_error hl, Except.error.injEq] at h
    rw [h]
  | ok found =>
    have hok : ∃ t, describeFrame ⟨linkHeader, .warn, showBytes, detail⟩ frame = .ok t :=
      (exists_describeFrame_of_total fun m => ⟨_, rfl⟩).2 ⟨found.1, found.2, hl⟩
    obtain ⟨t, ht⟩ := hok
    rw [ht] at h
    cases h

end Report

theorem checkChecksum_strict_eq_ok_iff (m : Message) (status : ChecksumStatus) :
    m.checkChecksum .strict = .ok status ↔
      m.checkChecksum .warn = .ok status ∧ m.checksum = m.calculatedChecksum := by
  rw [Message.checkChecksum, Message.checkChecksum]
  by_cases hv : m.hasValidChecksum
  · have heq : m.checksum = m.calculatedChecksum := of_decide_eq_true hv
    rw [if_pos hv, if_pos hv]
    exact ⟨fun h => ⟨h, heq⟩, fun h => h.1⟩
  · rw [if_neg hv]
    exact iff_of_false (by simp) fun h => hv (decide_eq_true h.2)

theorem checkChecksum_warn {m : Message} {status : ChecksumStatus}
    (h : m.checkChecksum .warn = .ok status) :
    status = if m.checksum = m.calculatedChecksum then .valid
      else .invalid m.calculatedChecksum := by
  rw [Message.checkChecksum, Except.ok.injEq] at h
  rw [← h, Message.hasValidChecksum]
  simp only [decide_eq_true_eq]

/-- The texts of two reports on a message differ where they tell what became of its checksum. -/
theorem exists_text_eq (d : Datagram) (m : Message) (showBytes detail : Bool) :
    ∃ before after, ∀ status, (ofMessage d m status).text showBytes detail =
      before ++ status.text ++ after := by
  -- Of all that a report is made of, nothing but the status depends on the status.
  let r := ofMessage d m .unchecked
  refine ⟨r.lead, indented r.reading.summary?.toList ++
    (indented (r.bytesLine showBytes) ++ indented (r.detailLine detail)), fun status => ?_⟩
  rw [text_eq]
  simp only [String.append_assoc]
  rfl

section Report

variable {mode : ChecksumMode} {showBytes detail : Bool} {t t' : String}

theorem describeFrame_strict_eq_ok_iff :
    describeFrame ⟨linkHeader, .strict, showBytes, detail⟩ frame = .ok t ↔
      describeFrame ⟨linkHeader, .warn, showBytes, detail⟩ frame = .ok t ∧
        ∃ d m, locate linkHeader frame = .ok (d, m) ∧ m.checksum = m.calculatedChecksum := by
  constructor
  · intro h
    obtain ⟨d, m, status, hl, hs, ht⟩ := describeFrame_eq_ok_iff.1 h
    obtain ⟨hwarn, hvalid⟩ := (checkChecksum_strict_eq_ok_iff m status).1 hs
    exact ⟨describeFrame_eq_ok_iff.2 ⟨d, m, status, hl, hwarn, ht⟩, d, m, hl, hvalid⟩
  · rintro ⟨h, d, m, hl, hvalid⟩
    obtain ⟨d', m', status, hl', hs, ht⟩ := describeFrame_eq_ok_iff.1 h
    cases hl.symm.trans hl'
    have hstrict := (checkChecksum_strict_eq_ok_iff m status).2 ⟨hs, hvalid⟩
    exact describeFrame_eq_ok_iff.2 ⟨d, m, status, hl, hstrict, ht⟩

theorem describeFrame_eq_append
    (h : describeFrame ⟨linkHeader, mode, false, false⟩ frame = .ok t)
    (h' : describeFrame ⟨linkHeader, mode, showBytes, detail⟩ frame = .ok t') :
    ∃ more, t' = t ++ more := by
  obtain ⟨d, m, status, hl, hs, rfl⟩ := describeFrame_eq_ok_iff.1 h
  obtain ⟨d', m', status', hl', hs', rfl⟩ := describeFrame_eq_ok_iff.1 h'
  cases hl.symm.trans hl'
  cases hs.symm.trans hs'
  exact ⟨_, text_eq_append _ showBytes detail⟩

/-- The line with the bytes tells those of the message, and stands in a report that is else as it
is without them. -/
theorem describeFrame_bytes
    (h : describeFrame ⟨linkHeader, mode, true, detail⟩ frame = .ok t) :
    ∃ d m before after, locate linkHeader frame = .ok (d, m) ∧
      describeFrame ⟨linkHeader, mode, false, false⟩ frame = .ok before ∧
      describeFrame ⟨linkHeader, mode, false, detail⟩ frame = .ok (before ++ after) ∧
      t = before ++ "\n  bytes: " ++ HexText.spaced (m.region.take m.size) ++ after := by
  obtain ⟨d, m, status, hl, hs, rfl⟩ := describeFrame_eq_ok_iff.1 h
  have hshown : ∀ showBytes detail,
      describeFrame ⟨linkHeader, mode, showBytes, detail⟩ frame =
        .ok ((ofMessage d m status).text showBytes detail) :=
    fun showBytes detail => describeFrame_eq_ok_iff.2 ⟨d, m, status, hl, hs, rfl⟩
  refine ⟨d, m, _, indented ((ofMessage d m status).detailLine detail), hl, hshown false false,
    ?_, ?_⟩
  · rw [hshown, text_eq_append _ false detail, indented_bytesLine_false, String.empty_append]
  · rw [text_eq_append _ true detail, indented_bytesLine_true]
    simp only [String.append_assoc]
    rfl

theorem describeFrame_append
    (h : describeFrame ⟨linkHeader, mode, showBytes, detail⟩ frame = .ok t) (more : Bytes) :
    describeFrame ⟨linkHeader, mode, showBytes, detail⟩ (frame ++ more) = .ok t := by
  obtain ⟨d, m, status, hl, hs, rfl⟩ := describeFrame_eq_ok_iff.1 h
  have hmin := (locate_eq_ok_iff.1 hl).2.2.1
  rw [← ofMessage_padded hmin more]
  exact describeFrame_eq_ok_iff.2 ⟨d.padded more, m, status, locate_append hl more, hs, rfl⟩

end Report

/-- How the reports on a frame in different modes and with different flags go together. -/
structure Agree (linkHeader : Nat) (frame : Bytes) : Prop where
  warn_ok_iff : ∀ showBytes detail,
    (∃ t, describeFrame ⟨linkHeader, .warn, showBytes, detail⟩ frame = .ok t) ↔
      ∃ d m, locate linkHeader frame = .ok (d, m)
  ignore_ok_iff : ∀ showBytes detail,
    (∃ t, describeFrame ⟨linkHeader, .ignore, showBytes, detail⟩ frame = .ok t) ↔
      ∃ t, describeFrame ⟨linkHeader, .warn, showBytes, detail⟩ frame = .ok t
  ignore_text : ∀ showBytes detail t t',
    describeFrame ⟨linkHeader, .ignore, showBytes, detail⟩ frame = .ok t →
    describeFrame ⟨linkHeader, .warn, showBytes, detail⟩ frame = .ok t' →
    ∃ d m before after, ∃ status ≠ ChecksumStatus.unchecked,
      locate linkHeader frame = .ok (d, m) ∧
      (status = if m.checksum = m.calculatedChecksum then .valid
        else .invalid m.calculatedChecksum) ∧
      t = before ++ ChecksumStatus.unchecked.text ++ after ∧ t' = before ++ status.text ++ after
  strict_ok_iff : ∀ showBytes detail t,
    describeFrame ⟨linkHeader, .strict, showBytes, detail⟩ frame = .ok t ↔
      describeFrame ⟨linkHeader, .warn, showBytes, detail⟩ frame = .ok t ∧
        ∃ d m, locate linkHeader frame = .ok (d, m) ∧ m.checksum = m.calculatedChecksum
  error : ∀ showBytes detail e,
    describeFrame ⟨linkHeader, .warn, showBytes, detail⟩ frame = .error e →
    ∀ mode showBytes' detail',
      describeFrame ⟨linkHeader, mode, showBytes', detail'⟩ frame = .error e
  flags_ok_iff : ∀ mode showBytes detail,
    (∃ t, describeFrame ⟨linkHeader, mode, showBytes, detail⟩ frame = .ok t) ↔
      ∃ t, describeFrame ⟨linkHeader, mode, false, false⟩ frame = .ok t
  flags_text : ∀ mode showBytes detail t t',
    describeFrame ⟨linkHeader, mode, false, false⟩ frame = .ok t →
    describeFrame ⟨linkHeader, mode, showBytes, detail⟩ frame = .ok t' →
    ∃ more, t' = t ++ more
  bytes_text : ∀ mode detail t,
    describeFrame ⟨linkHeader, mode, true, detail⟩ frame = .ok t →
    ∃ d m before after, locate linkHeader frame = .ok (d, m) ∧
      m.region =
        (frame.drop (linkHeader + d.headerSize)).take (d.totalLength - d.headerSize) ∧
      m.size ≤ m.region.length ∧
      describeFrame ⟨linkHeader, mode, false, false⟩ frame = .ok before ∧
      describeFrame ⟨linkHeader, mode, false, detail⟩ frame = .ok (before ++ after) ∧
      t = before ++ "\n  bytes: " ++ HexText.spaced (m.region.take m.size) ++ after
  padding : ∀ mode showBytes detail t,
    describeFrame ⟨linkHeader, mode, showBytes, detail⟩ frame = .ok t →
    ∀ more, describeFrame ⟨linkHeader, mode, showBytes, detail⟩ (frame ++ more) = .ok t

/-- In every mode and with every flag, the reports on a frame tell the same of its message, and
nothing of what lies behind the datagram. -/
theorem describeFrame_agree (linkHeader : Nat) (frame : Bytes) : Agree linkHeader frame := by
  constructor
  case warn_ok_iff =>
    intro showBytes detail
    exact exists_describeFrame_of_total fun m => ⟨_, rfl⟩
  case ignore_ok_iff =>
    intro showBytes detail
    exact (exists_describeFrame_of_total fun m => ⟨_, rfl⟩).trans
      (exists_describeFrame_of_total fun m => ⟨_, rfl⟩).symm
  case ignore_text =>
    intro showBytes detail t t' h h'
    obtain ⟨d, m, status, hl, hs, rfl⟩ := describeFrame_eq_ok_iff.1 h
    obtain ⟨d', m', status', hl', hs', rfl⟩ := describeFrame_eq_ok_iff.1 h'
    cases hl.symm.trans hl'
    cases hs
    obtain ⟨before, after, htext⟩ := exists_text_eq d m showBytes detail
    have hstatus := checkChecksum_warn hs'
    have hne : status' ≠ .unchecked := by
      rw [hstatus]
      split <;> simp
    exact ⟨d, m, before, after, status', hne, hl, hstatus, htext .unchecked, htext status'⟩
  case strict_ok_iff =>
    intro showBytes detail t
    exact describeFrame_strict_eq_ok_iff
  case error =>
    intro showBytes detail e h mode showBytes' detail'
    exact describeFrame_of_locate_error (locate_of_warn_error h)
  case flags_ok_iff =>
    intro mode showBytes detail
    rw [exists_describeFrame_eq_ok_iff, exists_describeFrame_eq_ok_iff]
  case flags_text =>
    intro mode showBytes detail t t' h h'
    exact describeFrame_eq_append h h'
  case bytes_text =>
    intro mode detail t h
    obtain ⟨d, m, before, after, hl, hbefore, hafter, ht⟩ := describeFrame_bytes h
    obtain ⟨hregion, hsize⟩ := region_of_locate hl
    exact ⟨d, m, before, after, hl, hregion, hsize, hbefore, hafter, ht⟩
  case padding =>
    intro mode showBytes detail t h more
    exact describeFrame_append h more

/-- A message that is left with a checksum one too great, shown with its bytes and its fields. -/
theorem describeFrame_agree_invalid :
    let frame : Bytes := [9, 9, 0x45, 0, 0, 28, 0, 0, 0, 0, 1, 2, 0, 0, 10, 0, 0, 1, 224, 0, 0, 2,
      0x17, 0, 0xf9, 5, 0xef, 0xff, 0xff, 0xfa]
    let text := "10.0.0.1 -> 224.0.0.2 IGMPv2 leave group (8 bytes) checksum 0xf905 " ++
      "[invalid, expected 0xf904]\n  group 239.255.255.250\n  bytes: 17 00 f9 05 ef ff ff fa\n" ++
      "  V2LeaveGroup(V2LeaveGroup \x7b checksum: 63749, group_address: 239.255.255.250 \x7d)"
    describeFrame ⟨2, .warn, true, true⟩ frame = .ok text ∧
      (∃ before after,
        describeFrame ⟨2, .ignore, true, true⟩ frame = .ok (before ++ "[unchecked]" ++ after) ∧
        text = before ++ "[invalid, expected 0xf904]" ++ after) ∧
      ¬ ∃ t, describeFrame ⟨2, .strict, true, true⟩ frame = .ok t := by
  intro frame text
  have hagree := describeFrame_agree 2 frame
  have hwarn : describeFrame ⟨2, .warn, true, true⟩ frame = .ok text :=
    Guarded.eq_ok_of_toOption (by decide +kernel)
  have hsums : (locate 2 frame).toOption.map
      (fun found => (found.2.checksum, found.2.calculatedChecksum)) = some (0xf905, 0xf904) := by
    decide +kernel
  obtain ⟨t', hignore⟩ := (hagree.ignore_ok_iff true true).2 ⟨text, hwarn⟩
  obtain ⟨d, m, before, after, status, -, hl, hstatus, rfl, ht⟩ :=
    hagree.ignore_text true true t' text hignore hwarn
  rw [hl] at hsums
  obtain ⟨hstored, hcalculated⟩ := Prod.mk.inj (Option.some.inj hsums)
  rw [hstored, hcalculated, if_neg (by decide)] at hstatus
  have hinvalid : (ChecksumStatus.invalid 0xf904).text = "[invalid, expected 0xf904]" := by
    decide +kernel
  refine ⟨hwarn, ⟨before, after, hignore, ?_⟩, ?_⟩
  · rwa [hstatus, hinvalid] at ht
  · rintro ⟨t'', hstrict⟩
    obtain ⟨-, d', m', hl', hvalid⟩ := (hagree.strict_ok_iff true true t'').1 hstrict
    cases hl.symm.trans hl'
    rw [hstored, hcalculated] at hvalid
    cases hvalid

/-- The padding byte behind a query is not told of. -/
example :
    (describeFrame ⟨0, .strict, false, false⟩
      [0x45, 0, 0, 28, 0, 0, 0, 0, 1, 2, 0, 0, 10, 0, 0, 1, 224, 0, 0, 1,
        0x11, 0, 0xee, 0xff, 0, 0, 0, 0, 9]).toOption =
      some "10.0.0.1 -> 224.0.0.1 IGMPv1 membership query (8 bytes) checksum 0xeeff [valid]" := by
  decide +kernel

end FrameReport
end Igmp
