import Igmp.Proofs.InPlaceEdit
import Igmp.Proofs.ReportHistory

/-! # Edits that are refused, and what they leave behind -/
namespace Igmp

/-- The first of a record's counts that is over its limit. -/
inductive GroupRecord.Overfull (r : GroupRecord) : RangeFault → Prop
  | sources (h : 65535 < r.sources.length) : Overfull r (.recordSources r.sources.length)
  | auxiliary (hs : r.sources.length ≤ 65535) (h : 255 < r.auxiliary.length) :
    Overfull r (.recordAuxiliaryWords r.auxiliary.length)

theorem GroupRecord.fault?_eq_some_iff (r : GroupRecord) (fault : RangeFault) :
    r.fault? = some fault ↔ r.Overfull fault := by
  unfold fault? maxSources maxAuxiliaryWords
  constructor
  · intro h
    split at h
    · cases h
      exact .sources ‹_›
    · split at h
      · cases h
        exact .auxiliary (by omega) ‹_›
      · cases h
  · intro h
    cases h with
    | sources h => rw [if_pos h]
    | auxiliary hs h => rw [if_neg (by omega), if_pos h]

namespace Edit

/-- The edits that there are for a kind of message, those among them that it always refuses
included. -/
def Provided (kind : MessageKind) : Edit → Prop
  | checksum _ | group _ | responseTime _ => True
  | maxResponseCode _ | suppress _ | robustness _ | queryInterval _ | sources _ => kind = .v3Query
  | records _ => kind = .v3Report

/-- The edits that a message in a region of `room` bytes refuses, and why. Of several reasons it
tells the first: the number of a list, the records one by one, the size. -/
inductive Refusal (room : Nat) : MessageKind → Edit → CodecError → Prop
  | v1QueryGroup {value} : Refusal room .v1Query (group value) (.fixedField .v1QueryGroup)
  | v3ReportGroup {value} : Refusal room .v3Report (group value) (.fixedField .v3ReportGroup)
  | v1QueryTime {value} :
    Refusal room .v1Query (responseTime value) (.fixedField .v1ResponseTime)
  | v1ReportTime {value} :
    Refusal room .v1Report (responseTime value) (.fixedField .v1ResponseTime)
  | v2ReportTime {value} :
    Refusal room .v2Report (responseTime value) (.fixedField .v2ReportResponseTime)
  | v2LeaveTime {value} :
    Refusal room .v2Leave (responseTime value) (.fixedField .v2LeaveResponseTime)
  | v3QueryTime {value} :
    Refusal room .v3Query (responseTime value) (.fixedField .v3QueryResponseTime)
  | v3ReportTime {value} :
    Refusal room .v3Report (responseTime value) (.fixedField .v3ReportResponseTime)
  | manySources {addresses} (h : 65535 < addresses.length) :
    Refusal room .v3Query (sources addresses) (.outOfRange (.querySources addresses.length))
  | longSources {addresses} (hn : addresses.length ≤ 65535)
    (h : room < 12 + 4 * addresses.length) :
    Refusal room .v3Query (sources addresses)
      (.insufficientBuffer (.message .v3Query) (12 + 4 * addresses.length) room)
  | manyRecords {rs} (h : 65535 < rs.length) :
    Refusal room .v3Report (records rs) (.outOfRange (.reportRecords rs.length))
  | overfullRecord {before r after fault} (hn : (before ++ r :: after).length ≤ 65535)
    (hbefore : ∀ r' ∈ before, r'.sources.length ≤ 65535 ∧ r'.auxiliary.length ≤ 255)
    (hr : r.Overfull fault) :
    Refusal room .v3Report (records (before ++ r :: after)) (.outOfRange fault)
  | longRecords {rs} (hn : rs.length ≤ 65535)
    (hv : ∀ r ∈ rs, r.sources.length ≤ 65535 ∧ r.auxiliary.length ≤ 255)
    (h : room < 8 + (rs.map GroupRecord.size).sum) :
    Refusal room .v3Report (records rs)
      (.insufficientBuffer (.message .v3Report) (8 + (rs.map GroupRecord.size).sum) room)

theorem require_eq_error_iff (c : Container) (minimum provided : Nat) (cause : CodecError) :
    c.require minimum provided = .error cause ↔
      provided < minimum ∧ cause = .insufficientBuffer c minimum provided := by
  unfold Container.require
  by_cases h : minimum ≤ provided
  · rw [if_pos h]
    exact iff_of_false (by simp) fun hc => absurd h (by omega)
  · rw [if_neg h, Except.error.injEq]
    exact ⟨fun hc => ⟨by omega, hc.symm⟩, fun hc => hc.2.symm⟩

section Check

variable {kind : MessageKind} {room : Nat} {cause : CodecError}

theorem checkSources_eq_error_iff (addresses : List Address) :
    checkSources addresses.length room = .error cause ↔
      Refusal room .v3Query (sources addresses) cause := by
  unfold checkSources
  by_cases hn : addresses.length > 65535
  · rw [if_pos hn, Except.error.injEq]
    constructor
    · rintro rfl
      exact .manySources hn
    · intro h
      cases h with
      | manySources h => rfl
      | longSources hn' h => omega
  · rw [if_neg hn, require_eq_error_iff]
    constructor
    · rintro ⟨h, rfl⟩
      exact .longSources (by omega) h
    · intro h
      cases h with
      | manySources h => omega
      | longSources hn' h => exact ⟨h, rfl⟩

theorem checkRecords_eq_error_iff (rs : List GroupRecord) :
    checkRecords rs room = .error cause ↔ Refusal room .v3Report (records rs) cause := by
  have hvalid : ∀ {rs : List GroupRecord}, (∀ r ∈ rs, r.fault? = none) ↔
      ∀ r ∈ rs, r.sources.length ≤ 65535 ∧ r.auxiliary.length ≤ 255 := by
    intro rs
    simp only [GroupRecord.fault?_eq_none_iff]
  constructor
  · intro h
    unfold checkRecords at h
    by_cases hn : rs.length > 65535
    · rw [if_pos hn] at h
      cases h
      exact .manyRecords hn
    rw [if_neg hn] at h
    cases hf : rs.findSome? GroupRecord.fault? with
    | some fault =>
      rw [hf] at h
      cases h
      obtain ⟨before, r, after, rfl, hr, hbefore⟩ := List.findSome?_eq_some_iff.1 hf
      exact .overfullRecord (by omega) (hvalid.1 hbefore) ((r.fault?_eq_some_iff _).1 hr)
    | none =>
      rw [hf, require_eq_error_iff, GroupRecord.totalSize_eq_sum] at h
      obtain ⟨hlt, rfl⟩ := h
      exact .longRecords (by omega) (hvalid.1 (List.findSome?_eq_none_iff.1 hf)) hlt
  · intro h
    unfold checkRecords
    cases h with
    | manyRecords h => rw [if_pos h]
    | @overfullRecord before r after fault hn hbefore hr =>
      have hf : (before ++ r :: after).findSome? GroupRecord.fault? = some fault :=
        List.findSome?_eq_some_iff.2
          ⟨before, r, after, rfl, (r.fault?_eq_some_iff _).2 hr, hvalid.2 hbefore⟩
      rw [if_neg (by omega), hf]
    | longRecords hn hv h =>
      have hf := List.findSome?_eq_none_iff.2 (hvalid.2 hv)
      rw [if_neg (by omega), hf, require_eq_error_iff, GroupRecord.totalSize_eq_sum]
      exact ⟨h, rfl⟩

private theorem mapError_eq_refused_iff (result : Except CodecError Unit) :
    result.mapError EditError.refused = .error (.refused cause) ↔ result = .error cause := by
  constructor
  · intro h
    cases result with
    | ok done => cases h
    | error cause' =>
      cases h
      rfl
  · rintro rfl
    rfl

/-- What a message refuses is what `Refusal` lists. -/
theorem check_eq_refused_iff (e : Edit) :
    e.check kind room = .error (.refused cause) ↔ e.Refusal room kind cause := by
  cases e with
  | checksum value =>
    constructor <;> intro h <;> cases h
  | group value | responseTime value =>
    -- For each kind, both sides tell of the same field or of none.
    cases kind <;> constructor <;> intro h <;> cases h <;> first | rfl | constructor
  | sources addresses =>
    rw [check, onlyFor_bind_eq_iff (.error (.refused cause)) (by simp), mapError_eq_refused_iff,
      checkSources_eq_error_iff]
    constructor
    · rintro ⟨rfl, h⟩
      exact h
    · intro h
      obtain rfl : kind = .v3Query := by cases h <;> rfl
      exact ⟨rfl, h⟩
  | records rs =>
    rw [check, onlyFor_bind_eq_iff (.error (.refused cause)) (by simp), mapError_eq_refused_iff,
      checkRecords_eq_error_iff]
    constructor
    · rintro ⟨rfl, h⟩
      exact h
    · intro h
      obtain rfl : kind = .v3Report := by cases h <;> rfl
      exact ⟨rfl, h⟩
  | _ =>
    constructor
    · intro h
      simp only [check, onlyFor] at h
      split at h <;> cases h
    · intro h
      cases h

theorem exists_check_eq_mapError {e : Edit} (hp : e.Provided kind) (room : Nat) :
    ∃ result : Except CodecError Unit, e.check kind room = result.mapError .refused := by
  cases e with
  | checksum value => exact ⟨.ok (), rfl⟩
  | group value =>
    cases hf : fixedGroup? kind with
    | none => exact ⟨.ok (), by rw [check, hf]; rfl⟩
    | some field => exact ⟨.error (.fixedField field), by rw [check, hf]; rfl⟩
  | responseTime value =>
    cases hf : fixedResponseTime? kind with
    | none => exact ⟨.ok (), by rw [check, hf]; rfl⟩
    | some field => exact ⟨.error (.fixedField field), by rw [check, hf]; rfl⟩
  | sources addresses =>
    obtain rfl : kind = .v3Query := hp
    exact ⟨checkSources addresses.length room, rfl⟩
  | records rs =>
    obtain rfl : kind = .v3Report := hp
    exact ⟨checkRecords rs room, rfl⟩
  | _ =>
    obtain rfl : kind = .v3Query := hp
    exact ⟨.ok (), rfl⟩

/-- An edit that there is for the kind is refused, or it is taken. -/
theorem check_of_not_refusal {e : Edit} (hp : e.Provided kind)
    (hr : ∀ cause, ¬ e.Refusal room kind cause) : e.check kind room = .ok () := by
  obtain ⟨result, hresult⟩ := exists_check_eq_mapError hp room
  cases result with
  | ok done => exact hresult
  | error cause => exact absurd ((check_eq_refused_iff e).1 hresult) (hr cause)

end Check
end Edit

/-- All of an edit is made, or none of it. Whatever does not end it well leaves memory as it was,
and on memory that may not be written, nothing ends it well. -/
structure Edit.AllOrNothing (kind : MessageKind) (s : Memory) (e : Edit) : Prop where
  error_iff : ∀ error, (InPlace.edit kind e).run s = .error (.told error) s ↔
    (s.message kind).edit e = .error error
  refused_iff : ∀ cause, (InPlace.edit kind e).run s = .error (.told (.refused cause)) s ↔
    e.Refusal s.room kind cause
  taken : e.Provided kind → (∀ cause, ¬ e.Refusal s.room kind cause) → s.access = .writable →
    ∃ after, (InPlace.edit kind e).run s = .ok () after
  readOnly : e.Provided kind → (∀ cause, ¬ e.Refusal s.room kind cause) → s.access = .readOnly →
    (InPlace.edit kind e).run s = .error (.told .readOnly) s
  not_taken : s.access = .readOnly → ∀ after, (InPlace.edit kind e).run s ≠ .ok () after
  unchanged : ∀ fault after, (InPlace.edit kind e).run s = .error fault after → after = s

namespace Memory

variable {s : Memory} {kind : MessageKind}

theorem message_edit_eq_refused_iff (e : Edit) (cause : CodecError) :
    (s.message kind).edit e = .error (.refused cause) ↔ e.Refusal s.room kind cause := by
  have hcheck := s.check_message kind e
  rw [← Edit.check_eq_refused_iff]
  cases hc : e.check kind s.room with
  | error error =>
    rw [Message.edit_eq_error (hcheck.trans hc)]
    simp
  | ok done =>
    cases ha : s.access with
    | readOnly => simp [Message.edit_of_readOnly (hcheck.trans hc) ha]
    | writable => simp [Message.edit_of_writable (hcheck.trans hc) ha]

section Run

variable (h : kind.headerSize ≤ s.room)

include h

theorem edit_run_eq_error_iff (e : Edit) (error : EditError) :
    (InPlace.edit kind e).run s = .error (.told error) s ↔
      (s.message kind).edit e = .error error := by
  rw [InPlace.edit_run h]
  cases (s.message kind).edit e with
  | ok edited => exact iff_of_false (by simp) (by simp)
  | error error' => simp

theorem eq_of_edit_run_eq_error {e : Edit} {fault : WriteFault} {after : Memory}
    (he : (InPlace.edit kind e).run s = .error fault after) : after = s := by
  rw [InPlace.edit_run h] at he
  cases hm : (s.message kind).edit e with
  | ok edited =>
    rw [hm] at he
    cases he
  | error error =>
    rw [hm] at he
    cases he
    rfl

theorem edit_run_ne_ok (ha : s.access = .readOnly) (e : Edit) (after : Memory) :
    (InPlace.edit kind e).run s ≠ .ok () after := by
  have hcheck := s.check_message kind e
  rw [InPlace.edit_run h]
  cases hc : e.check kind s.room with
  | error error => simp [Message.edit_eq_error (hcheck.trans hc)]
  | ok done => simp [Message.edit_of_readOnly (hcheck.trans hc) ha]

theorem edit_allOrNothing (e : Edit) : e.AllOrNothing kind s := by
  have hcheck := s.check_message kind e
  constructor
  case error_iff => exact edit_run_eq_error_iff h e
  case refused_iff =>
    intro cause
    rw [edit_run_eq_error_iff h, message_edit_eq_refused_iff]
  case taken =>
    intro hp hr ha
    have hc := Edit.check_of_not_refusal hp hr
    rw [InPlace.edit_run h, Message.edit_of_writable (hcheck.trans hc) ha]
    exact ⟨_, rfl⟩
  case readOnly =>
    intro hp hr ha
    have hc := Edit.check_of_not_refusal hp hr
    rw [edit_run_eq_error_iff h, Message.edit_of_readOnly (hcheck.trans hc) ha]
  case not_taken =>
    intro ha after
    exact edit_run_ne_ok h ha e after
  case unchanged =>
    intro fault after he
    exact eq_of_edit_run_eq_error h he

end Run

theorem create_eq_error_iff (kind : MessageKind) (buffer : Bytes) (cause : CodecError) :
    Message.create kind buffer = .error cause ↔
      buffer.length < kind.headerSize ∧
        cause = .insufficientBuffer (.message kind) kind.headerSize buffer.length := by
  rw [← Edit.require_eq_error_iff, Message.create]
  cases (Container.message kind).require kind.headerSize buffer.length with
  | error cause' => simp [bind, Except.bind]
  | ok done => simp [bind, Except.bind]

theorem create_run_eq_error_iff (ha : s.access = .writable) (fault : WriteFault)
    (after : Memory) :
    (InPlace.create kind).run s = .error fault after ↔
      after = s ∧ ∃ cause, fault = .told (.refused cause) ∧
        Message.create kind s.region = .error cause := by
  rw [InPlace.create_run ha]
  cases Message.create kind s.region with
  | ok m =>
    exact iff_of_false (by simp) (by simp)
  | error cause =>
    constructor
    · intro h
      cases h
      exact ⟨rfl, cause, rfl, rfl⟩
    · rintro ⟨rfl, cause', rfl, hc⟩
      cases hc
      rfl

/-- A write that fails leaves every byte as it was, whether it was to make a message or to edit
one. -/
theorem failed_write_keeps_bytes (s : Memory) (kind : MessageKind) :
    (∀ cause, Message.create kind s.region = .error cause ↔
      s.room < kind.headerSize ∧
        cause = .insufficientBuffer (.message kind) kind.headerSize s.room) ∧
    (s.access = .writable → ∀ fault after,
      (InPlace.create kind).run s = .error fault after ↔
        after = s ∧ ∃ cause, fault = .told (.refused cause) ∧
          Message.create kind s.region = .error cause) ∧
    (kind.headerSize ≤ s.room → ∀ e : Edit, e.AllOrNothing kind s) := by
  refine ⟨?_, create_run_eq_error_iff, edit_allOrNothing⟩
  intro cause
  rw [create_eq_error_iff, region_length]

/-- A report with room for one record refuses two of them, though the first one would fit. A
report that may not be written does not take an empty list either. -/
theorem failed_write_keeps_report :
    let report : Bytes := [0x22, 0, 0xee, 0x9b, 0, 0, 0, 1, 4, 0, 0, 0, 0xef, 1, 2, 3]
    let r : GroupRecord := ⟨.modeIsInclude, ⟨0xe0, 0, 0, 1⟩, [], []⟩
    let s : Memory := ⟨report, 16, .writable, by decide⟩
    let view : Memory := ⟨report, 16, .readOnly, by decide⟩
    let short : Memory := ⟨report.take 7, 7, .writable, by decide⟩
    (InPlace.edit .v3Report (.records [r, r])).run s =
        .error (.told (.refused (.insufficientBuffer (.message .v3Report) 24 16))) s ∧
      (InPlace.edit .v3Report (.records [])).run view = .error (.told .readOnly) view ∧
      (InPlace.create .v3Report).run short =
        .error (.told (.refused (.insufficientBuffer (.message .v3Report) 8 7))) short := by
  intro report r s view short
  obtain ⟨-, -, hs⟩ := failed_write_keeps_bytes s .v3Report
  obtain ⟨-, -, hview⟩ := failed_write_keeps_bytes view .v3Report
  obtain ⟨hcause, hshort, -⟩ := failed_write_keeps_bytes short .v3Report
  refine ⟨?_, ?_, ?_⟩
  · apply ((hs (by decide) (.records [r, r])).refused_iff _).2
    exact .longRecords (by decide) (by decide) (by decide)
  · have hnone : ∀ cause, ¬ (Edit.records []).Refusal view.room .v3Report cause := by
      intro cause hc
      cases (Edit.check_eq_refused_iff _).2 hc
    exact (hview (by decide) (.records [])).readOnly rfl hnone rfl
  · exact (hshort rfl _ _).2 ⟨rfl, _, rfl, (hcause _).2 ⟨by decide, rfl⟩⟩

end Memory
end Igmp
