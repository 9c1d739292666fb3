import Igmp.Duration
import Igmp.HexText
import Igmp.MessageKind

/-! Why bytes cannot be read as a message, or a value cannot be written into one. -/
namespace Igmp

/-- What a run of bytes was to hold when it turned out too short. -/
inductive Container where
  | datagram
  | payload
  | groupRecord
  | message (kind : MessageKind)
  deriving DecidableEq, Repr

def Container.name : Container → String
  | datagram => "Ipv4Packet"
  | payload => "IgmpMessage"
  | groupRecord => "GroupRecord"
  | message .v1Query => "V1MembershipQueryPacket"
  | message .v1Report => "V1MembershipReportPacket"
  | message .v2Query => "V2MembershipQueryPacket"
  | message .v2Report => "V2MembershipReportPacket"
  | message .v2Leave => "LeaveGroupPacket"
  | message .v3Query => "V3MembershipQueryPacket"
  | message .v3Report => "V3MembershipReportPacket"

/-- A byte that numbers one of a fixed list of alternatives. -/
inductive CodeTable where
  | messageType
  | recordType
  deriving DecidableEq, Repr

def CodeTable.name : CodeTable → String
  | messageType => "IgmpType"
  | recordType => "RecordType"

/-- A value outside the interval its place allows. -/
inductive RangeFault where
  | mantissa (value : UInt8)
  | exponent (value : UInt8)
  | zeroMaxResponseCode
  | maxResponsePrecision (time : Duration)
  | maxResponseInterval (time : Duration)
  | queryIntervalPrecision (time : Duration)
  | queryIntervalInterval (time : Duration)
  | responseTimePrecision (time : Duration)
  | responseTimeInterval (time : Duration)
  | robustness (value : UInt8)
  | auxiliaryWordSize (size : Nat)
  | auxiliaryDataSize (size : Nat)
  | recordSources (count : Nat)
  | recordAuxiliaryWords (count : Nat)
  | querySources (count : Nat)
  | reportRecords (count : Nat)
  deriving DecidableEq, Repr

def RangeFault.text : RangeFault → String
  | mantissa value => s!"mant must be in the interval [0, 15]: {value}"
  | exponent value => s!"exp must be in the interval [0, 7]: {value}"
  | zeroMaxResponseCode => "max response code cannot be 0, allowed interval: (0, 12.7] seconds"
  | maxResponsePrecision time =>
    "max response time must have at most tenths of a second precision: " ++ time.text
  | maxResponseInterval time => "max response time must be in the interval (0, 12.7] seconds: " ++ time.text
  | queryIntervalPrecision time => "query interval must be a whole number of seconds: " ++ time.text
  | queryIntervalInterval time => "query interval must be in the interval [0, 127] seconds: " ++ time.text
  | responseTimePrecision time =>
    "response time must have at most tenths of a second precision: " ++ time.text
  | responseTimeInterval time => "response time must be in the interval [0, 25.5] seconds: " ++ time.text
  | robustness value => s!"robustness variable must be in the interval [0, 7]: {value}"
  | auxiliaryWordSize size => s!"auxiliary word must contain exactly 4 bytes: {size}"
  | auxiliaryDataSize size => s!"auxiliary data length must be a multiple of 4: {size}"
  | recordSources count => s!"group record cannot hold more than 65535 sources: {count}"
  | recordAuxiliaryWords count => s!"group record cannot hold more than 255 auxiliary words: {count}"
  | querySources count => s!"membership query cannot hold more than 65535 sources: {count}"
  | reportRecords count => s!"membership report cannot hold more than 65535 group records: {count}"

/-- A field that a kind of message lacks or holds constant. -/
inductive FixedField where
  | v1QueryGroup
  | v3ReportGroup
  | v1ResponseTime
  | v2ReportResponseTime
  | v2LeaveResponseTime
  | v3QueryResponseTime
  | v3ReportResponseTime
  deriving DecidableEq, Repr

def FixedField.text : FixedField → String
  | v1QueryGroup => "IGMPv1 Membership Query group address is always 0.0.0.0"
  | v3ReportGroup => "IGMPv3 Membership Report has no group address"
  | v1ResponseTime => "IGMPv1 messages have no max response time"
  | v2ReportResponseTime => "IGMPv2 Membership Report response time is always 0"
  | v2LeaveResponseTime => "IGMPv2 Leave Group response time is always 0"
  | v3QueryResponseTime => "IGMPv3 Membership Query response time is a max response code"
  | v3ReportResponseTime => "IGMPv3 Membership Report has no response time"

inductive CodecError where
  | insufficientBuffer (container : Container) (minimum provided : Nat)
  | protocolMismatch (id : UInt8)
  | malformedLength (totalLength headerSize : Nat)
  | unknownCode (table : CodeTable) (code : UInt8)
  | typeMismatch (expected : MessageType) (found : UInt8)
  | outOfRange (fault : RangeFault)
  | fixedField (field : FixedField)
  deriving DecidableEq, Repr

def CodecError.message : CodecError → String
  | insufficientBuffer container minimum provided =>
    "insufficient buffer for " ++ container.name ++ s!" packet, minimum={minimum}, provided={provided}"
  | protocolMismatch id => s!"payload is not IGMP, protocol number: {id}"
  | malformedLength totalLength headerSize =>
    s!"malformed IGMP message length, total_length={totalLength}, header_size={headerSize}"
  | unknownCode table code => "unknown " ++ table.name ++ " value: " ++ HexText.number 2 code.toNat
  | typeMismatch expected found =>
    "expected IGMP type " ++ HexText.number 2 expected.code.toNat ++ ", found " ++ HexText.number 2 found.toNat
  | outOfRange fault => "value out of range: " ++ fault.text
  | fixedField field => "unsupported operation: " ++ field.text

/-- Whether the bytes provided suffice for what they are to hold. -/
def Container.require (c : Container) (minimum provided : Nat) : Except CodecError Unit :=
  if minimum ≤ provided then .ok () else .error (.insufficientBuffer c minimum provided)

end Igmp
