import Igmp.Message

/-! What can be read from a message: the values that each kind gives a meaning. -/
namespace Igmp

inductive Reading where
  | v1Query (group : Address)
  | v1Report (group : Address)
  | v2Query (responseTime : ResponseTime) (group : Address)
  | v2Report (responseTime : ResponseTime) (group : Address)
  | v2Leave (responseTime : ResponseTime) (group : Address)
  | v3Query (maxResponseCode : MaxResponseCode) (group : Address) (suppress : Bool) (robustness : Robustness)
      (queryInterval : QueryIntervalCode) (sourceCount : Nat) (sources : List Address)
  | v3Report (recordCount : Nat) (items : List (Except RecordFault GroupRecord))
  deriving Repr

def Reading.kind : Reading → MessageKind
  | v1Query .. => .v1Query
  | v1Report .. => .v1Report
  | v2Query .. => .v2Query
  | v2Report .. => .v2Report
  | v2Leave .. => .v2Leave
  | v3Query .. => .v3Query
  | v3Report .. => .v3Report

namespace Message

def reading (m : Message) : Reading :=
  let group := Field.group.get m.region
  match m.kind with
  | .v1Query => .v1Query group
  | .v1Report => .v1Report group
  | .v2Query => .v2Query m.responseTime group
  | .v2Report => .v2Report m.responseTime group
  | .v2Leave => .v2Leave m.responseTime group
  | .v3Query =>
    .v3Query m.maxResponseCode group m.suppress m.robustness m.queryInterval m.sourceCount m.sources
  | .v3Report => .v3Report m.recordCount m.records.items

theorem kind_reading (m : Message) : m.reading.kind = m.kind := by
  obtain ⟨kind, access, region⟩ := m
  cases kind <;> rfl

section Congr

variable {m m' : Message} (hkind : m'.kind = m.kind)
  (hfield : ∀ {α : Type} (f : Field α), f.offset + f.width ≤ 2 ∨ 4 ≤ f.offset →
    f.offset + f.width ≤ m.kind.headerSize → f.get m'.region = f.get m.region)

include hkind hfield

/-- A reading is made of the fields of the header but the checksum, and of the sources or the
records behind it. -/
theorem reading_congr (hsources : m.kind = .v3Query → m'.sources = m.sources)
    (hitems : m.kind = .v3Report → m'.records.items = m.records.items) :
    m'.reading = m.reading := by
  have h8 := m.kind.eight_le_headerSize
  have hgroup := hfield Field.group (.inr (by decide)) h8
  have htime := hfield Field.responseTime (.inl (by decide)) (Nat.le_trans (by decide : 2 ≤ 8) h8)
  unfold reading
  cases hk : m.kind with
  | v3Query =>
    rw [hk] at hfield
    have hcode := hfield Field.maxResponseCode (.inl (by decide)) (by decide)
    have hsuppress := hfield Field.suppress (.inr (by decide)) (by decide)
    have hrobustness := hfield Field.robustness (.inr (by decide)) (by decide)
    have hinterval := hfield Field.queryInterval (.inr (by decide)) (by decide)
    have hcount := hfield Field.sourceCount (.inr (by decide)) (by decide)
    simp only [hkind, hk, maxResponseCode, suppress, robustness, queryInterval, sourceCount, hgroup,
      hcode, hsuppress, hrobustness, hinterval, hcount, hsources hk]
  | v3Report =>
    have hcount := hfield Field.recordCount (.inr (by decide)) h8
    simp only [hkind, hk, recordCount, hcount, hitems hk]
  | _ => simp only [hkind, hk, responseTime, hgroup, htime]

theorem group?_congr : m'.group? = m.group? := by
  have hgroup := hfield Field.group (.inr (by decide)) m.kind.eight_le_headerSize
  simp only [group?, hkind, hgroup]

end Congr

end Message
end Igmp
