import Igmp.Reading
import Igmp.Proofs.RecordWalk
import Igmp.Proofs.StoredFields

/-! # Messages given by the values of their fields -/
namespace Igmp

/-- A code that one of its makers yields. -/
def MaxResponseCode.Made (c : MaxResponseCode) : Prop :=
  (∃ code, ofCode code = .ok c) ∨ (∃ mantissa exponent, ofParts mantissa exponent = .ok c) ∨
    ∃ time, ofDuration time = .ok c

theorem TimeCode.ofParts_ne_zero {mantissa exponent code : UInt8}
    (h : ofParts mantissa exponent = .ok code) :
    code ≠ 0 := by
  rintro rfl
  have hv := TimeCode.value_ofParts mantissa exponent 0 h
  have hpos : 0 < (16 + mantissa.toNat) <<< (exponent.toNat + 3) := by
    rw [Nat.shiftLeft_eq]
    exact Nat.mul_pos (by omega) (Nat.two_pow_pos _)
  rw [← hv] at hpos
  exact absurd hpos (by decide)

theorem MaxResponseCode.made_iff (c : MaxResponseCode) : c.Made ↔ c.code ≠ 0 := by
  constructor
  · rintro (⟨code, h⟩ | ⟨mantissa, exponent, h⟩ | ⟨time, h⟩)
    · unfold ofCode at h
      split at h
      · simp at h
      · simp only [Except.ok.injEq] at h
        rw [← h]
        assumption
    · rw [ofParts] at h
      cases hp : TimeCode.ofParts mantissa exponent with
      | error e => simp [hp, Except.map] at h
      | ok code =>
        simp only [hp, Except.map, Except.ok.injEq] at h
        rw [← h]
        exact TimeCode.ofParts_ne_zero hp
    · unfold ofDuration at h
      split at h
      · simp at h
      split at h
      · simp only [Except.ok.injEq] at h
        rw [← h]
        intro h0
        have h0' := congrArg UInt8.toNat h0
        rw [UInt8.toNat_ofNat'] at h0'
        simp only [UInt8.reduceToNat] at h0'
        omega
      · simp at h
  · intro h
    exact .inl ⟨c.code, by rw [ofCode, if_neg h]⟩

/-- The values of all fields of a message that may be set. -/
inductive Draft where
  | v1Query
  | v1Report (group : Address)
  | v2Query (responseTime : ResponseTime) (group : Address)
  | v2Report (group : Address)
  | v2Leave (group : Address)
  | v3Query (maxResponseCode : MaxResponseCode) (group : Address) (suppress : Bool)
      (robustness : Robustness) (queryInterval : QueryIntervalCode) (sources : List Address)
  | v3Report (records : List GroupRecord)
  deriving DecidableEq, Repr

namespace Draft

def kind : Draft → MessageKind
  | v1Query => .v1Query
  | v1Report _ => .v1Report
  | v2Query .. => .v2Query
  | v2Report _ => .v2Report
  | v2Leave _ => .v2Leave
  | v3Query .. => .v3Query
  | v3Report _ => .v3Report

def size : Draft → Nat
  | v3Query _ _ _ _ _ sources => 12 + 4 * sources.length
  | v3Report records => 8 + GroupRecord.totalSize records
  | _ => 8

/-- Values that callers can make, in lists that are short enough. -/
def Allowed : Draft → Prop
  | v3Query maxResponseCode _ _ _ _ sources => maxResponseCode.Made ∧ sources.length ≤ 65535
  | v3Report records => records.length ≤ 65535 ∧ ∀ r ∈ records, r.fault? = none
  | _ => True

/-- The edits that set every field. -/
def edits : Draft → List Edit
  | v1Query => []
  | v1Report group | v2Report group | v2Leave group => [.group group]
  | v2Query responseTime group => [.responseTime responseTime, .group group]
  | v3Query maxResponseCode group suppress robustness queryInterval sources =>
    [.maxResponseCode maxResponseCode, .group group, .suppress suppress, .robustness robustness,
      .queryInterval queryInterval, .sources sources]
  | v3Report records => [.records records]

/-- What is to be read from a message with these values. A version 2 query without response time is
read as one of version 1. -/
def reading : Draft → Reading
  | v1Query => .v1Query .zero
  | v1Report group => .v1Report group
  | v2Query responseTime group =>
    if responseTime = .zero then .v1Query group else .v2Query responseTime group
  | v2Report group => .v2Report .zero group
  | v2Leave group => .v2Leave .zero group
  | v3Query maxResponseCode group suppress robustness queryInterval sources =>
    .v3Query maxResponseCode group suppress robustness queryInterval sources.length sources
  | v3Report records => .v3Report records.length (records.map .ok)

variable {d : Draft}

theorem headerSize_le_size (d : Draft) : d.kind.headerSize ≤ d.size := by
  cases d <;> simp [kind, size, MessageKind.headerSize]

theorem eight_le_size (d : Draft) : 8 ≤ d.size :=
  Nat.le_trans d.kind.eight_le_headerSize d.headerSize_le_size

theorem edits_apart (d : Draft) (value : UInt16) :
    Edit.Apart d.kind (d.edits ++ [.checksum value]) := by
  constructor
  · cases d <;> simp [edits, kind, Edit.Offered, Edit.fixedGroup?, Edit.fixedResponseTime?]
  · cases d <;> simp [edits, Edit.place]

theorem fits_edits (hd : d.Allowed) : ∀ e ∈ d.edits, e.Fits d.size := by
  cases d with
  | v3Query maxResponseCode group suppress robustness queryInterval sources =>
    simpa [edits, size, Edit.Fits] using hd.2
  | v3Report records =>
    obtain ⟨hcount, hvalid⟩ := hd
    simpa [edits, size, Edit.Fits, hcount] using hvalid
  | _ => simp [edits, Edit.Fits]

/-- A region of the message's size takes every edit of an allowed message. -/
theorem check_edits (hd : d.Allowed) (value : UInt16) :
    ∀ e ∈ d.edits ++ [.checksum value], e.check d.kind d.size = .ok () := by
  intro e he
  rw [Edit.check_eq_ok_iff]
  refine ⟨(edits_apart d value).offered e he, ?_⟩
  rcases List.mem_append.1 he with he | he
  · exact fits_edits hd e he
  · rw [List.mem_singleton.1 he]
    trivial

theorem stop_le_size (hd : d.Allowed) {e : Edit} (he : e ∈ d.edits) : e.stop ≤ d.size :=
  Edit.stop_le (check_edits hd 0 e (List.mem_append_left _ he)) d.headerSize_le_size

/-- The region of a message with these values: its pinned bits are set, and no edit would change
it. -/
structure Holds (d : Draft) (region : Bytes) : Prop where
  length_eq : region.length = d.size
  pinned : ∀ i < region.length, d.kind.pin i (region.byteAt i) = region.byteAt i
  stored : ∀ e ∈ d.edits, e.Stored region

/-- The bytes of a message built in `buffer` by some edits. -/
def built (d : Draft) (buffer : Bytes) (es : List Edit) : Bytes :=
  (buffer.mapIdx d.kind.pin).mapIdx (Edit.stampAll es)

theorem create_edits {buffer : Bytes} (hb : buffer.length = d.size) {es : List Edit}
    (hc : ∀ e ∈ es, e.check d.kind d.size = .ok ()) :
    ∃ fresh, Message.create d.kind buffer = .ok fresh ∧
      es.foldlM Message.edit fresh = .ok ⟨d.kind, .writable, d.built buffer es⟩ := by
  have hr : d.kind.headerSize ≤ buffer.length := by
    rw [hb]
    exact d.headerSize_le_size
  refine ⟨_, Message.create_eq_ok hr, ?_⟩
  apply Message.foldlM_edit rfl
  · simpa using hr
  · simpa [hb] using hc

theorem built_append (d : Draft) (buffer : Bytes) (es : List Edit) {e : Edit}
    (h : e.stop ≤ buffer.length) :
    d.built buffer (es ++ [e]) = e.write (d.built buffer es) := by
  have hstop : e.stop ≤ (d.built buffer es).length := by simpa [built] using h
  have hcomp : Edit.stampAll (es ++ [e]) = fun i => e.stamp i ∘ Edit.stampAll es i := by
    funext i b
    simp [Edit.stampAll]
  rw [Edit.write_eq_mapIdx hstop, built, built, List.mapIdx_mapIdx (l := buffer.mapIdx d.kind.pin),
    hcomp]

theorem stored_built {es : List Edit} (h : Edit.Apart d.kind es) {e : Edit} (he : e ∈ es)
    {buffer : Bytes} (hs : e.stop ≤ buffer.length) : e.Stored (d.built buffer es) :=
  Edit.stored_stampAll h he (by simpa using hs)

/-- Whatever the buffer holds at first, and in whatever order the fields are set. -/
theorem holds_built (hd : d.Allowed) {es : List Edit} (h : Edit.Apart d.kind es)
    (hes : d.edits ⊆ es) {buffer : Bytes} (hb : buffer.length = d.size) :
    d.Holds (d.built buffer es) := by
  constructor
  · simpa [built] using hb
  · intro i hi
    simp only [built, List.length_mapIdx] at hi
    rw [built, Bytes.byteAt_mapIdx _ (by simpa using hi), Bytes.byteAt_mapIdx _ hi,
      Edit.pin_stampAll h.offered, MessageKind.pin_pin]
  · intro e he
    apply stored_built h (hes he)
    rw [hb]
    exact stop_le_size hd he

end Draft
end Igmp
