import Igmp.Datagram
import Igmp.Message

/-! Telling which kind of message the payload of a datagram is. -/
namespace Igmp

namespace MessageKind

/-- The kind of the message that fills `region`. A query is of version 1 where its second byte is
zero, else of version 2 where it is as short as a header. -/
def classify (region : Bytes) : Except CodecError MessageKind :=
  let code := region.byteAt 0
  match MessageType.ofCode? code with
  | none => .error (.unknownCode .messageType code)
  | some .membershipQuery =>
    .ok (if region.byteAt 1 = 0 then .v1Query else if region.length = 8 then .v2Query else .v3Query)
  | some .v1MembershipReport => .ok .v1Report
  | some .v2MembershipReport => .ok .v2Report
  | some .v3MembershipReport => .ok .v3Report
  | some .leaveGroup => .ok .v2Leave

end MessageKind

namespace Message

/-- The size of the message in a payload of `available` bytes, from the lengths in the datagram's
header. -/
def regionSize (available : Nat) (protocol : Protocol) (totalLength headerSize : Nat) :
    Except CodecError Nat := do
  if protocol ≠ .igmp then .error (.protocolMismatch protocol.id)
  else
    let size := totalLength - headerSize
    if headerSize ≤ totalLength ∧ 8 ≤ size ∧ size % 4 = 0 then
      Container.require .payload size available
      .ok size
    else .error (.malformedLength totalLength headerSize)

/-- The message at the start of a payload; padding after it is left out. -/
def parse (access : Access) (payload : Bytes) (protocol : Protocol) (totalLength headerSize : Nat) :
    Except CodecError Message := do
  let size ← regionSize payload.length protocol totalLength headerSize
  let region := payload.take size
  let kind ← MessageKind.classify region
  .ok ⟨kind, access, region⟩

end Message

/-- The message in a datagram. A header length that the datagram cannot have is told first. -/
def Datagram.message (d : Datagram) : Except CodecError Message :=
  if d.headerSize < minimumHeader ∨ d.bytes.length < d.headerSize then
    .error (.malformedLength d.totalLength d.headerSize)
  else Message.parse .readOnly d.payload d.protocol d.totalLength d.headerSize

end Igmp
