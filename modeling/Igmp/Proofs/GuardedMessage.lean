import Igmp.Reading
import Igmp.Proofs.GuardedRecords
import Igmp.Proofs.ParsedMessage

/-! # Messages and datagrams with checked reads -/
namespace Igmp

theorem Bytes.fours_take {α : Type} (f : UInt8 → UInt8 → UInt8 → UInt8 → α) (n : Nat)
    (bs : Bytes) :
    fours f (bs.take (4 * n)) = (fours f bs).take n := by
  induction n generalizing bs with
  | zero => exact fours_short f [] (by decide)
  | succ n ih =>
    match bs with
    | a :: b :: c :: d :: rest =>
      have htake : (a :: b :: c :: d :: rest).take (4 * (n + 1)) =
          a :: b :: c :: d :: rest.take (4 * n) := rfl
      rw [htake, fours_cons, fours_cons, ih, List.take_succ_cons]
    | [] | [_] | [_, _] | [_, _, _] =>
      have hle : ∀ k ≤ 3, k ≤ 4 * (n + 1) := by omega
      rw [List.take_of_length_le (hle _ (by simp)), fours_short f _ (by simp), List.take_nil]

namespace Guarded

/-- All addresses that the region holds, cut to their declared number. -/
def sources (region : Bytes) : Guarded (List Address) := do
  let count ← field Field.sourceCount region
  let rest ← range region 12 region.length
  .ok ((rest.fours Address.mk).take count.toNat)

def records (region : Bytes) : Guarded RecordCursor := do
  let count ← field Field.recordCount region
  let rest ← range region 8 region.length
  .ok (.start rest count.toNat)

def size (m : Message) : Guarded Nat :=
  match m.kind with
  | .v3Query => do
    let count ← field Field.sourceCount m.region
    .ok (min (12 + 4 * count.toNat) m.region.length)
  | .v3Report => do
    let count ← field Field.recordCount m.region
    let stop ← runEnd m.region count.toNat 8
    .ok (min stop m.region.length)
  | _ => .ok 8

def content (m : Message) : Guarded Bytes := do
  let size ← size m
  range m.region 0 size

def calculatedChecksum (m : Message) : Guarded UInt16 := do
  let content ← content m
  .ok (Checksum.ofMessage content)

def hasValidChecksum (m : Message) : Guarded Bool := do
  let stored ← field Field.checksum m.region
  let calculated ← calculatedChecksum m
  .ok (stored = calculated)

def reading (m : Message) : Guarded Reading :=
  match m.kind with
  | .v1Query => do
    let group ← field Field.group m.region
    .ok (.v1Query group)
  | .v1Report => do
    let group ← field Field.group m.region
    .ok (.v1Report group)
  | .v2Query => do
    let responseTime ← field Field.responseTime m.region
    let group ← field Field.group m.region
    .ok (.v2Query responseTime group)
  | .v2Report => do
    let responseTime ← field Field.responseTime m.region
    let group ← field Field.group m.region
    .ok (.v2Report responseTime group)
  | .v2Leave => do
    let responseTime ← field Field.responseTime m.region
    let group ← field Field.group m.region
    .ok (.v2Leave responseTime group)
  | .v3Query => do
    let maxResponseCode ← field Field.maxResponseCode m.region
    let group ← field Field.group m.region
    let suppress ← field Field.suppress m.region
    let robustness ← field Field.robustness m.region
    let queryInterval ← field Field.queryInterval m.region
    let count ← field Field.sourceCount m.region
    let sources ← sources m.region
    .ok (.v3Query maxResponseCode group suppress robustness queryInterval count.toNat sources)
  | .v3Report => do
    let count ← field Field.recordCount m.region
    let cursor ← records m.region
    let items ← items cursor.remaining cursor
    .ok (.v3Report count.toNat items)

section Message

variable {m : Message} (h : m.kind.headerSize ≤ m.region.length)

include h

theorem checksum_eq : field Field.checksum m.region = .ok m.checksum :=
  field_eq (Nat.le_trans (Nat.le_add_right 4 4) (Nat.le_trans m.kind.eight_le_headerSize h))

theorem size_eq : size m = .ok m.size := by
  have h8 := Nat.le_trans m.kind.eight_le_headerSize h
  unfold size Message.size
  cases hk : m.kind with
  | v3Query =>
    simp only [hk, MessageKind.headerSize] at h
    have hcount : field Field.sourceCount m.region = .ok (Field.sourceCount.get m.region) :=
      field_eq h
    simp only [hcount, ok_bind]
    rfl
  | v3Report =>
    have hcount : field Field.recordCount m.region = .ok (Field.recordCount.get m.region) :=
      field_eq h8
    simp only [hcount, ok_bind, runEnd_eq]
    rfl
  | _ => rfl

theorem content_eq : content m = .ok m.content := by
  rw [content, size_eq h, ok_bind, range_to (Message.size_bounds h).2]
  rfl

theorem calculatedChecksum_eq : calculatedChecksum m = .ok m.calculatedChecksum := by
  rw [calculatedChecksum, content_eq h, ok_bind]
  rfl

theorem hasValidChecksum_eq : hasValidChecksum m = .ok m.hasValidChecksum := by
  rw [hasValidChecksum, checksum_eq h, ok_bind, calculatedChecksum_eq h, ok_bind]
  rfl

end Message

theorem sources_eq {region : Bytes} (h : 12 ≤ region.length) :
    sources region =
      .ok ((region.slice 12 (4 * (Field.sourceCount.get region).toNat)).fours Address.mk) := by
  have hcount : field Field.sourceCount region = .ok (Field.sourceCount.get region) := field_eq h
  rw [sources, hcount, ok_bind, range_from h, ok_bind, Bytes.slice, Bytes.fours_take]

theorem records_eq {region : Bytes} (h : 8 ≤ region.length) :
    records region = .ok (.start (region.drop 8) (Field.recordCount.get region).toNat) := by
  have hcount : field Field.recordCount region = .ok (Field.recordCount.get region) := field_eq h
  rw [records, hcount, ok_bind, range_from h, ok_bind]

theorem reading_eq {m : Message} (h : m.kind.headerSize ≤ m.region.length) :
    reading m = .ok m.reading := by
  have h8 := Nat.le_trans m.kind.eight_le_headerSize h
  have hgroup : field Field.group m.region = .ok (Field.group.get m.region) := field_eq h8
  have htime : field Field.responseTime m.region = .ok m.responseTime :=
    field_eq (Nat.le_trans (Nat.le_add_right 2 6) h8)
  unfold reading Message.reading
  cases hk : m.kind with
  | v3Query =>
    have hquery : 12 ≤ m.region.length := by
      rw [hk] at h
      exact h
    have hcode : field Field.maxResponseCode m.region = .ok m.maxResponseCode :=
      field_eq (Nat.le_trans (Nat.le_add_right 2 6) h8)
    have hsuppress : field Field.suppress m.region = .ok m.suppress :=
      field_eq (Nat.le_trans (Nat.le_add_right 9 3) hquery)
    have hrobustness : field Field.robustness m.region = .ok m.robustness :=
      field_eq (Nat.le_trans (Nat.le_add_right 9 3) hquery)
    have hinterval : field Field.queryInterval m.region = .ok m.queryInterval :=
      field_eq (Nat.le_trans (Nat.le_add_right 10 2) hquery)
    have hcount : field Field.sourceCount m.region = .ok (Field.sourceCount.get m.region) :=
      field_eq hquery
    simp only [hcode, hgroup, hsuppress, hrobustness, hinterval, hcount, sources_eq hquery, ok_bind]
    rfl
  | v3Report =>
    have hcount : field Field.recordCount m.region = .ok (Field.recordCount.get m.region) :=
      field_eq h8
    simp only [hcount, records_eq h8, items_eq, ok_bind]
    rfl
  | _ => simp only [hgroup, htime, ok_bind]

/-- A view of bytes as a message of a kind. -/
def view (kind : MessageKind) (bs : Bytes) : Guarded (Except CodecError Message) :=
  match Container.require (.message kind) kind.headerSize bs.length with
  | .error e => .ok (.error e)
  | .ok () => do
    let found ← byteAt bs 0
    .ok (if found = kind.type.code then .ok ⟨kind, .readOnly, bs⟩
      else .error (.typeMismatch kind.type found))

def classify (region : Bytes) : Guarded (Except CodecError MessageKind) := do
  let code ← byteAt region 0
  match MessageType.ofCode? code with
  | none => .ok (.error (.unknownCode .messageType code))
  | some .membershipQuery =>
    let second ← byteAt region 1
    .ok (.ok (if second = 0 then .v1Query else if region.length = 8 then .v2Query else .v3Query))
  | some .v1MembershipReport => .ok (.ok .v1Report)
  | some .v2MembershipReport => .ok (.ok .v2Report)
  | some .v3MembershipReport => .ok (.ok .v3Report)
  | some .leaveGroup => .ok (.ok .v2Leave)

def parse (access : Access) (payload : Bytes) (protocol : Protocol) (totalLength headerSize : Nat) :
    Guarded (Except CodecError Message) :=
  match Message.regionSize payload.length protocol totalLength headerSize with
  | .error e => .ok (.error e)
  | .ok size => do
    let region ← range payload 0 size
    let kind ← classify region
    .ok (kind.map fun kind => ⟨kind, access, region⟩)

theorem view_eq (kind : MessageKind) (bs : Bytes) : view kind bs = .ok (Message.view kind bs) := by
  unfold view Message.view
  cases hr : Container.require (.message kind) kind.headerSize bs.length with
  | error e => rfl
  | ok u =>
    have hle := (Edit.require_eq_ok_iff _ _ _).1 hr
    have h8 := kind.eight_le_headerSize
    have hbyte : Field.typeCode.get bs = bs.byteAt 0 := Bytes.byteAt_slice (by decide)
    have hread : byteAt bs 0 = .ok (bs.byteAt 0) := byteAt_eq (by omega)
    simp only [hread, ok_bind, hbyte]

theorem classify_eq {region : Bytes} (h : 8 ≤ region.length) :
    classify region = .ok (MessageKind.classify region) := by
  rw [classify, byteAt_eq (by omega), ok_bind, MessageKind.classify]
  cases MessageType.ofCode? (region.byteAt 0) with
  | none => rfl
  | some type =>
    cases type with
    | membershipQuery =>
      simp only
      rw [byteAt_eq (by omega), ok_bind]
    | _ => rfl

theorem parse_eq (access : Access) (payload : Bytes) (protocol : Protocol) (total header : Nat) :
    parse access payload protocol total header =
      .ok (Message.parse access payload protocol total header) := by
  rw [parse, Message.parse]
  cases hsize : Message.regionSize payload.length protocol total header with
  | error e => rfl
  | ok size =>
    obtain ⟨h8, hle⟩ := Message.regionSize_bounds hsize
    have hlen : (payload.take size).length = size := by
      rw [List.length_take]
      omega
    have hrange := range_to hle
    have hkind : classify (payload.take size) = .ok (MessageKind.classify (payload.take size)) :=
      classify_eq (by omega)
    simp only [hrange, hkind, ok_bind]
    cases MessageKind.classify (payload.take size) <;> rfl

end Guarded
end Igmp
