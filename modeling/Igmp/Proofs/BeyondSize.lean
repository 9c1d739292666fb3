import Igmp.Reading
import Igmp.Proofs.MalformedReport
import Igmp.Proofs.RecordCodec
import Igmp.Proofs.ReportModes

/-! # Bytes beyond the size of a message are not read -/
namespace Igmp

namespace GroupRecord

/-- A run of bytes holds so many records, each header and each body, whatever their types. -/
def RecordsFit : Nat → Bytes → Prop
  | 0, _ => True
  | count + 1, bs =>
    headerSize ≤ bs.length ∧ declaredSize bs ≤ bs.length ∧
      RecordsFit count (bs.drop (declaredSize bs))

instance RecordsFit.instDecidable : (count : Nat) → (bs : Bytes) → Decidable (RecordsFit count bs)
  | 0, _ => isTrue trivial
  | count + 1, bs =>
    have := instDecidable count (bs.drop (declaredSize bs))
    inferInstanceAs (Decidable (_ ∧ _ ∧ _))

section Append

variable {bs : Bytes} (more : Bytes)

theorem declaredSize_append_left (h : headerSize ≤ bs.length) :
    declaredSize (bs ++ more) = declaredSize bs := by
  have hroom : 8 ≤ bs.length := h
  rw [declaredSize, declaredSize, Bytes.wordAt, Bytes.wordAt,
    Bytes.byteAt_append_left (by omega), Bytes.byteAt_append_left (by omega),
    Bytes.byteAt_append_left (by omega)]

theorem read_append_left {type : RecordType} (h : headerSize ≤ bs.length)
    (hsize : declaredSize bs ≤ bs.length) : read type (bs ++ more) = read type bs := by
  have hroom : 8 ≤ bs.length := h
  have hcount : Bytes.wordAt (bs ++ more) 2 = bs.wordAt 2 := by
    rw [Bytes.wordAt, Bytes.wordAt, Bytes.byteAt_append_left (by omega),
      Bytes.byteAt_append_left (by omega)]
  have hwords : Bytes.byteAt (bs ++ more) 1 = bs.byteAt 1 :=
    Bytes.byteAt_append_left (by omega) more
  rw [declaredSize] at hsize
  rw [read, read, hcount, hwords, Bytes.slice_append_left (by omega),
    Bytes.slice_append_left (by omega), Bytes.slice_append_left (by omega)]

/-- A record that lies in the bytes is read, or refused for its type, whatever follows them. -/
theorem decode_append_left (h : headerSize ≤ bs.length) (hsize : declaredSize bs ≤ bs.length) :
    decode (bs ++ more) = decode bs := by
  have hlen : bs.length ≤ (bs ++ more).length := by
    rw [List.length_append]
    omega
  have hcode : Bytes.byteAt (bs ++ more) 0 = bs.byteAt 0 :=
    Bytes.byteAt_append_left (Nat.lt_of_lt_of_le (by decide) h) more
  rw [decode_eq, decode_eq, declaredSize_append_left more h, hcode, if_neg (by omega),
    if_neg (by omega), if_neg (by omega), if_neg (by omega)]
  cases RecordType.ofCode? (bs.byteAt 0) with
  | none => rfl
  | some type => exact congrArg Except.ok (read_append_left more h hsize)

theorem RecordsFit.runEnd_append {count : Nat} (h : RecordsFit count bs) (offset : Nat) :
    runEnd count (bs ++ more) offset = runEnd count bs offset := by
  induction count generalizing bs offset with
  | zero => rfl
  | succ count ih =>
    obtain ⟨hheader, hsize, hrest⟩ := h
    have hheader' : headerSize ≤ (bs ++ more).length := by
      rw [List.length_append]
      omega
    rw [runEnd_succ hheader, runEnd_succ hheader', declaredSize_append_left more hheader,
      List.drop_append_of_le_length hsize, ih hrest]

theorem RecordsFit.items_append {count : Nat} (h : RecordsFit count bs) :
    (RecordCursor.start (bs ++ more) count).items = (RecordCursor.start bs count).items := by
  induction count generalizing bs with
  | zero => rw [RecordCursor.items_of_remaining_zero rfl, RecordCursor.items_of_remaining_zero rfl]
  | succ count ih =>
    obtain ⟨hheader, hsize, hrest⟩ := h
    have hdecode := decode_append_left more hheader hsize
    cases hd : decode bs with
    | error fault =>
      have hstop := RecordCursor.stopsAt_of_error (c := .start bs (count + 1))
        (Nat.succ_ne_zero count) rfl hd
      have hstop' := RecordCursor.stopsAt_of_error (c := .start (bs ++ more) (count + 1))
        (Nat.succ_ne_zero count) rfl (hdecode.trans hd)
      rw [hstop.items_eq, hstop'.items_eq]
    | ok r =>
      have hnext := RecordCursor.next_of_decode_ok (c := .start bs (count + 1))
        (Nat.succ_ne_zero count) rfl hd
      have hnext' := RecordCursor.next_of_decode_ok (c := .start (bs ++ more) (count + 1))
        (Nat.succ_ne_zero count) rfl (hdecode.trans hd)
      rw [declaredSize_of_decode hd] at hsize hrest
      rw [RecordCursor.items_of_next_some _ _ _ hnext, RecordCursor.items_of_next_some _ _ _ hnext']
      simp only [RecordCursor.start, List.drop_append_of_le_length hsize]
      exact congrArg _ (ih hrest)

end Append

section Take

variable {count : Nat} {bs : Bytes}

theorem RecordsFit.runEnd_le (h : RecordsFit count bs) (offset : Nat) :
    runEnd count bs offset ≤ offset + bs.length := by
  induction count generalizing bs offset with
  | zero => exact Nat.le_add_right _ _
  | succ count ih =>
    obtain ⟨hheader, hsize, hrest⟩ := h
    have hend := ih hrest (offset + declaredSize bs)
    rw [List.length_drop] at hend
    rw [runEnd_succ hheader]
    omega

/-- The bytes up to the end of the walk hold the records. -/
theorem RecordsFit.take (h : RecordsFit count bs) {offset n : Nat}
    (hend : runEnd count bs offset ≤ offset + n) : RecordsFit count (bs.take n) := by
  induction count generalizing bs offset n with
  | zero => trivial
  | succ count ih =>
    obtain ⟨hheader, hsize, hrest⟩ := h
    rw [runEnd_succ hheader] at hend
    have hn : declaredSize bs ≤ n := by
      have hle := le_runEnd count (bs.drop (declaredSize bs)) (offset + declaredSize bs)
      omega
    have hlen : declaredSize bs ≤ (bs.take n).length := by
      rw [List.length_take]
      omega
    have hheader' : headerSize ≤ (bs.take n).length := by
      have hmin : headerSize ≤ declaredSize bs := by
        rw [declaredSize]
        omega
      omega
    have hdeclared : declaredSize (bs.take n) = declaredSize bs := by
      rw [← declaredSize_append_left (bs.drop n) hheader', List.take_append_drop]
    have hend' : runEnd count (bs.drop (declaredSize bs)) (offset + declaredSize bs) ≤
        offset + declaredSize bs + (n - declaredSize bs) := by omega
    rw [RecordsFit, hdeclared, List.drop_take]
    exact ⟨hheader', hlen, ih hrest hend'⟩

end Take

end GroupRecord

theorem Field.get_append_left {α : Type} (f : Field α) {bs : Bytes}
    (h : f.offset + f.width ≤ bs.length) (more : Bytes) : f.get (bs ++ more) = f.get bs :=
  congrArg f.decode (Bytes.slice_append_left h more)

namespace Message

/-- What a message declares lies within its region: the sources of a version 3 query, and the
records of a version 3 report. -/
structure Fits (m : Message) : Prop where
  sources_fit : m.kind = .v3Query → 12 + 4 * m.sourceCount ≤ m.region.length
  records_fit : m.kind = .v3Report → GroupRecord.RecordsFit m.recordCount (m.region.drop 8)

/-- Two messages have the same size and checksums, and nothing that is read of them differs. -/
structure ReadAlike (m m' : Message) : Prop where
  size_eq : m'.size = m.size
  checksum_eq : m'.checksum = m.checksum
  calculatedChecksum_eq : m'.calculatedChecksum = m.calculatedChecksum
  hasValidChecksum_eq : m'.hasValidChecksum = m.hasValidChecksum
  group?_eq : m'.group? = m.group?
  reading_eq : m'.reading = m.reading

namespace ReadAlike

variable {a b c : Message}

theorem symm (h : ReadAlike a b) : ReadAlike b a where
  size_eq := h.size_eq.symm
  checksum_eq := h.checksum_eq.symm
  calculatedChecksum_eq := h.calculatedChecksum_eq.symm
  hasValidChecksum_eq := h.hasValidChecksum_eq.symm
  group?_eq := h.group?_eq.symm
  reading_eq := h.reading_eq.symm

theorem trans (h : ReadAlike a b) (h' : ReadAlike b c) : ReadAlike a c where
  size_eq := h'.size_eq.trans h.size_eq
  checksum_eq := h'.checksum_eq.trans h.checksum_eq
  calculatedChecksum_eq := h'.calculatedChecksum_eq.trans h.calculatedChecksum_eq
  hasValidChecksum_eq := h'.hasValidChecksum_eq.trans h.hasValidChecksum_eq
  group?_eq := h'.group?_eq.trans h.group?_eq
  reading_eq := h'.reading_eq.trans h.reading_eq

end ReadAlike

section Append

variable {kind : MessageKind} {access : Access} {bs : Bytes} (h : kind.headerSize ≤ bs.length)
  (hm : Fits ⟨kind, access, bs⟩) (more : Bytes)

include h hm

theorem Fits.size_append : size ⟨kind, access, bs ++ more⟩ = size ⟨kind, access, bs⟩ := by
  have hlen : bs.length ≤ (bs ++ more).length := by
    rw [List.length_append]
    omega
  unfold size
  cases kind with
  | v3Query =>
    have hcount : sourceCount ⟨.v3Query, access, bs ++ more⟩ = sourceCount ⟨.v3Query, access, bs⟩ :=
      congrArg UInt16.toNat (Field.sourceCount.get_append_left h more)
    have hfit : 12 + 4 * sourceCount ⟨.v3Query, access, bs⟩ ≤ bs.length := hm.sources_fit rfl
    simp only [hcount]
    omega
  | v3Report =>
    have hcount : recordCount ⟨.v3Report, access, bs ++ more⟩ =
        recordCount ⟨.v3Report, access, bs⟩ :=
      congrArg UInt16.toNat (Field.recordCount.get_append_left h more)
    have hfit : GroupRecord.RecordsFit (recordCount ⟨.v3Report, access, bs⟩) (bs.drop 8) :=
      hm.records_fit rfl
    have hend := hfit.runEnd_le 8
    rw [List.length_drop] at hend
    have hroom : 8 ≤ bs.length := h
    simp only [hcount, List.drop_append_of_le_length hroom, hfit.runEnd_append]
    omega
  | _ => rfl

theorem Fits.reading_append :
    reading ⟨kind, access, bs ++ more⟩ = reading ⟨kind, access, bs⟩ := by
  refine reading_congr rfl ?_ ?_ ?_
  · exact fun f _ hf => f.get_append_left (Nat.le_trans hf h) more
  · rintro rfl
    have hcount : Field.sourceCount.get (bs ++ more) = Field.sourceCount.get bs :=
      Field.sourceCount.get_append_left h more
    have hfit : 12 + 4 * (Field.sourceCount.get bs).toNat ≤ bs.length := hm.sources_fit rfl
    simp only [sources, sourceCount, hcount, Bytes.slice_append_left hfit]
  · rintro rfl
    have h8 : 8 ≤ bs.length := h
    have hcount : Field.recordCount.get (bs ++ more) = Field.recordCount.get bs :=
      Field.recordCount.get_append_left h more
    have hfit : GroupRecord.RecordsFit (Field.recordCount.get bs).toNat (bs.drop 8) :=
      hm.records_fit rfl
    simp only [recordCount, records, hcount, List.drop_append_of_le_length h8, hfit.items_append]

/-- A message that fits its region reads the same with more bytes behind it. -/
theorem Fits.readAlike_append :
    ReadAlike ⟨kind, access, bs⟩ ⟨kind, access, bs ++ more⟩ := by
  have h8 := Nat.le_trans kind.eight_le_headerSize h
  have hsize := hm.size_append h more
  have hchecksum : checksum ⟨kind, access, bs ++ more⟩ = checksum ⟨kind, access, bs⟩ :=
    Field.checksum.get_append_left (Nat.le_trans (by decide : 4 ≤ 8) h8) more
  have hcontent : content ⟨kind, access, bs ++ more⟩ = content ⟨kind, access, bs⟩ := by
    have hle := (size_bounds (m := ⟨kind, access, bs⟩) h).2
    rw [content, content, hsize, List.take_append_of_le_length hle]
  have hcalculated : calculatedChecksum ⟨kind, access, bs ++ more⟩ =
      calculatedChecksum ⟨kind, access, bs⟩ := congrArg Checksum.ofMessage hcontent
  constructor
  case size_eq => exact hsize
  case checksum_eq => exact hchecksum
  case calculatedChecksum_eq => exact hcalculated
  case hasValidChecksum_eq => rw [hasValidChecksum, hasValidChecksum, hchecksum, hcalculated]
  case group?_eq =>
    exact group?_congr rfl fun f _ hf => f.get_append_left (Nat.le_trans hf h) more
  case reading_eq => exact hm.reading_append h more

end Append

section Content

variable {m : Message} (h : m.kind.headerSize ≤ m.region.length)

include h

theorem headerSize_le_size : m.kind.headerSize ≤ m.size := by
  have h8 := (size_bounds h).1
  cases hkind : m.kind with
  | v3Query =>
    rw [hkind] at h
    simp only [size, hkind]
    exact Nat.le_min.2 ⟨Nat.le_add_right _ _, h⟩
  | _ => exact h8

/-- A message that fits its region fits its own bytes. -/
theorem Fits.content (hm : m.Fits) : Fits { m with region := m.content } := by
  have hlen := content_length h
  have hheader := headerSize_le_size h
  have happend : m.content ++ m.region.drop m.size = m.region := List.take_append_drop _ _
  constructor
  · intro (hkind : m.kind = .v3Query)
    have h12 : 12 ≤ m.content.length := by
      rw [hkind] at hheader
      rw [hlen]
      exact hheader
    have hcount : Field.sourceCount.get m.content = Field.sourceCount.get m.region := by
      rw [← Field.sourceCount.get_append_left h12 (m.region.drop m.size), happend]
    have hfit : 12 + 4 * (Field.sourceCount.get m.region).toNat ≤ m.region.length :=
      hm.sources_fit hkind
    show 12 + 4 * (Field.sourceCount.get m.content).toNat ≤ m.content.length
    rw [hcount, hlen]
    simp only [size, hkind]
    exact Nat.le_min.2 ⟨Nat.le_refl _, hfit⟩
  · intro (hkind : m.kind = .v3Report)
    have h8 : 8 ≤ m.content.length := by
      rw [hlen]
      exact (size_bounds h).1
    have hcount : Field.recordCount.get m.content = Field.recordCount.get m.region := by
      rw [← Field.recordCount.get_append_left h8 (m.region.drop m.size), happend]
    have hfit : GroupRecord.RecordsFit m.recordCount (m.region.drop 8) := hm.records_fit hkind
    have hend : GroupRecord.runEnd m.recordCount (m.region.drop 8) 8 ≤ 8 + (m.size - 8) := by
      have hle := hfit.runEnd_le 8
      rw [List.length_drop] at hle
      simp only [size, hkind]
      omega
    show GroupRecord.RecordsFit (Field.recordCount.get m.content).toNat (m.content.drop 8)
    rw [hcount, Message.content, List.drop_take]
    exact hfit.take hend

end Content

theorem eq_of_view {kind : MessageKind} {bs : Bytes} {m : Message} (h : view kind bs = .ok m) :
    m = ⟨kind, .readOnly, bs⟩ := by
  rw [view, Guarded.bind_eq_ok_iff] at h
  obtain ⟨-, -, h⟩ := h
  simp only at h
  split at h
  · exact (Except.ok.inj h).symm
  · simp at h

/-- Where what a message declares fits its region, nothing beyond its size is read: a region that
holds the same bytes up to there, and any others behind them, reads alike. -/
theorem readAlike_of_take_eq {kind : MessageKind} {p q : Bytes} {m m' : Message}
    (hp : view kind p = .ok m) (hq : view kind q = .ok m') (hm : m.Fits)
    (hagree : q.take m.size = p.take m.size) : m.ReadAlike m' := by
  obtain rfl := eq_of_view hp
  obtain rfl := eq_of_view hq
  have hroom := headerSize_le_of_view hp
  have hcontent := hm.content hroom
  have hheader : kind.headerSize ≤ (content ⟨kind, .readOnly, p⟩).length := by
    rw [content_length hroom]
    exact headerSize_le_size hroom
  -- Both regions are the bytes of the message with more behind them.
  have hsplit : content ⟨kind, .readOnly, p⟩ ++ p.drop (size ⟨kind, .readOnly, p⟩) = p :=
    List.take_append_drop _ _
  have hsplit' : content ⟨kind, .readOnly, p⟩ ++ q.drop (size ⟨kind, .readOnly, p⟩) = q := by
    rw [content, ← hagree, List.take_append_drop]
  have halike := hcontent.readAlike_append hheader (p.drop (size ⟨kind, .readOnly, p⟩))
  have halike' := hcontent.readAlike_append hheader (q.drop (size ⟨kind, .readOnly, p⟩))
  rw [hsplit] at halike
  rw [hsplit'] at halike'
  exact halike.symm.trans halike'

/-- A report of two records, the second one of no known type, with two bytes behind it in one
region and three other ones in another. -/
theorem readAlike_unknown_record :
    let report : Bytes := [0x22, 0, 0, 0, 0, 0, 0, 2, 1, 0, 0, 0, 224, 0, 0, 9,
      9, 0, 0, 1, 224, 0, 0, 10, 10, 0, 0, 1]
    let p : Bytes := report ++ [7, 7]
    let q : Bytes := report ++ [1, 2, 3]
    view .v3Report p = .ok ⟨.v3Report, .readOnly, p⟩ ∧
      view .v3Report q = .ok ⟨.v3Report, .readOnly, q⟩ ∧
      Fits ⟨.v3Report, .readOnly, p⟩ ∧
      ReadAlike ⟨.v3Report, .readOnly, p⟩ ⟨.v3Report, .readOnly, q⟩ := by
  intro report p q
  have hp : view .v3Report p = .ok ⟨.v3Report, .readOnly, p⟩ := rfl
  have hq : view .v3Report q = .ok ⟨.v3Report, .readOnly, q⟩ := rfl
  have hfits : Fits ⟨.v3Report, .readOnly, p⟩ := ⟨nofun, fun _ => by decide⟩
  have hagree : q.take (size ⟨.v3Report, .readOnly, p⟩) =
      p.take (size ⟨.v3Report, .readOnly, p⟩) := by decide
  exact ⟨hp, hq, hfits, readAlike_of_take_eq hp hq hfits hagree⟩

/-- The sources of a query that is cut short are read on in the bytes behind it. -/
example :
    let query : Bytes := [0x11, 9, 0, 0, 0, 0, 0, 0, 0, 0, 0, 1]
    sources ⟨.v3Query, .readOnly, query⟩ = [] ∧
      sources ⟨.v3Query, .readOnly, query ++ [10, 0, 0, 1]⟩ = [⟨10, 0, 0, 1⟩] := by
  decide +kernel

end Message
end Igmp
