import Igmp.Checksum
import Igmp.Field
import Igmp.RecordCursor

/-! Messages of the seven kinds laid over a run of bytes, and what can be read from them. -/
namespace Igmp

inductive Access where
  | readOnly
  | writable
  deriving DecidableEq, Repr

/-- A kind of message, the bytes it is laid over, and whether they may be written. -/
structure Message where
  kind : MessageKind
  access : Access
  region : Bytes
  deriving DecidableEq, Repr

/-- What a fresh message makes of the byte `b` found at index `i`: the type is set and constant
fields are cleared. -/
def MessageKind.pin (k : MessageKind) (i : Nat) (b : UInt8) : UInt8 :=
  match k, i with
  | k, 0 => k.type.code
  | .v1Query, 1 | .v1Query, 4 | .v1Query, 5 | .v1Query, 6 | .v1Query, 7 => 0
  | .v1Report, 1 | .v2Report, 1 | .v2Leave, 1 => 0
  | .v3Query, 8 => b % 16
  | .v3Report, 1 | .v3Report, 4 | .v3Report, 5 => 0
  | _, _ => b

theorem MessageKind.pin_pin (k : MessageKind) (i : Nat) (b : UInt8) : k.pin i (k.pin i b) = k.pin i b := by
  have h : ∀ b : UInt8, b % 16 % 16 = b % 16 := fun b => by
    apply UInt8.toNat_inj.mp
    simp
  unfold pin
  split <;> simp_all

namespace Message

/-- A fresh message over the bytes of a buffer, which stay as they are where the kind does not pin
them. -/
def create (kind : MessageKind) (buffer : Bytes) : Except CodecError Message := do
  Container.require (.message kind) kind.headerSize buffer.length
  .ok ⟨kind, .writable, buffer.mapIdx kind.pin⟩

/-- A message that is read where it lies. -/
def view (kind : MessageKind) (bs : Bytes) : Except CodecError Message := do
  Container.require (.message kind) kind.headerSize bs.length
  let found := Field.typeCode.get bs
  if found = kind.type.code then .ok ⟨kind, .readOnly, bs⟩ else .error (.typeMismatch kind.type found)

def checksum (m : Message) : UInt16 := Field.checksum.get m.region

/-- The group address, which a version 3 report lacks. -/
def group? (m : Message) : Option Address :=
  match m.kind with
  | .v3Report => none
  | _ => some (Field.group.get m.region)

def responseTime (m : Message) : ResponseTime := Field.responseTime.get m.region

def maxResponseCode (m : Message) : MaxResponseCode := Field.maxResponseCode.get m.region

def suppress (m : Message) : Bool := Field.suppress.get m.region

def robustness (m : Message) : Robustness := Field.robustness.get m.region

def queryInterval (m : Message) : QueryIntervalCode := Field.queryInterval.get m.region

def sourceCount (m : Message) : Nat := (Field.sourceCount.get m.region).toNat

/-- The source addresses: as many as are declared, or as the region holds. -/
def sources (m : Message) : List Address := (m.region.slice 12 (4 * m.sourceCount)).fours Address.mk

def recordCount (m : Message) : Nat := (Field.recordCount.get m.region).toNat

def records (m : Message) : RecordCursor := .start (m.region.drop 8) m.recordCount

/-- The size that the message declares, within the region. -/
def size (m : Message) : Nat :=
  match m.kind with
  | .v3Query => min (12 + 4 * m.sourceCount) m.region.length
  | .v3Report => min (GroupRecord.runEnd m.recordCount (m.region.drop 8) 8) m.region.length
  | _ => 8

/-- The bytes of the message, without what follows it in the region. -/
def content (m : Message) : Bytes := m.region.take m.size

def calculatedChecksum (m : Message) : UInt16 := Checksum.ofMessage m.content

def hasValidChecksum (m : Message) : Bool := m.checksum = m.calculatedChecksum

end Message
end Igmp
