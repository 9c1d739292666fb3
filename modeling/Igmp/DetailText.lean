import Igmp.Dispatch
import Igmp.Reading

/-! The detailed text of messages and their parts: every value by name. -/
namespace Igmp
namespace DetailText

def list (items : List String) : String := "[" ++ ", ".intercalate items ++ "]"

/-- A name with its arguments in parentheses. -/
def applied (name : String) (arguments : List String) : String :=
  name ++ "(" ++ ", ".intercalate arguments ++ ")"

/-- A name with its fields in braces. -/
def record (name : String) (fields : List (String × String)) : String :=
  name ++ " \x7b " ++ ", ".intercalate (fields.map fun field => field.1 ++ ": " ++ field.2) ++ " \x7d"

def quoted (text : String) : String := "\"" ++ text ++ "\""

def number (n : Nat) : String := toString n

def boolean (b : Bool) : String := if b then "true" else "false"

def bytes (bs : Bytes) : String := list (bs.map fun b => number b.toNat)

end DetailText

open DetailText

def MaxResponseCode.detail (c : MaxResponseCode) : String := applied "MaxResponseCode" [number c.code.toNat]

def QueryIntervalCode.detail (c : QueryIntervalCode) : String :=
  applied "QueryIntervalCode" [number c.code.toNat]

def ResponseTime.detail (t : ResponseTime) : String := applied "ResponseTime" [number t.value.toNat]

def Robustness.detail (r : Robustness) : String := applied "RobustnessVariable" [number r.value]

def AuxiliaryWord.detail (w : AuxiliaryWord) : String := applied "AuxiliaryWord" [DetailText.bytes w.bytes]

def GroupRecord.detail (r : GroupRecord) : String :=
  record "GroupRecord"
    [("record_type", r.type.name), ("multicast_address", r.group.text),
      ("source_addresses", list (r.sources.map Address.text)),
      ("auxiliary_data", list (r.auxiliary.map AuxiliaryWord.detail))]

def RecordFault.detail : RecordFault → String
  | truncated minimum provided =>
    applied "InsufficientPacketBuffer" [quoted Container.groupRecord.name, number minimum, number provided]
  | unknownType code => applied "UnknownEnumValue" [quoted CodeTable.recordType.name, number code.toNat]

def recordItemDetail : Except RecordFault GroupRecord → String
  | .ok r => applied "Ok" [r.detail]
  | .error fault => applied "Err" [fault.detail]

def RecordCursor.detail (c : RecordCursor) : String :=
  record "GroupRecords"
    [("buf", DetailText.bytes c.unread), ("remaining", number c.remaining), ("failed", boolean c.failed)]

/-- The name of a kind's message in the detailed text. -/
def MessageKind.detailName : MessageKind → String
  | v1Query => "V1MembershipQuery"
  | v1Report => "V1MembershipReport"
  | v2Query => "V2MembershipQuery"
  | v2Report => "V2MembershipReport"
  | v2Leave => "V2LeaveGroup"
  | v3Query => "V3MembershipQuery"
  | v3Report => "V3MembershipReport"

/-- The fields of a message in the order of the detailed text. -/
def Reading.detailFields (checksum : UInt16) (r : Reading) : List (String × String) :=
  let checksum := ("checksum", number checksum.toNat)
  match r with
  | v1Query group | v1Report group | v2Report _ group | v2Leave _ group =>
    [checksum, ("group_address", group.text)]
  | v2Query responseTime group =>
    [("max_response_time", responseTime.duration.text), checksum, ("group_address", group.text)]
  | v3Query maxResponseCode group suppress robustness queryInterval _ sources =>
    [("max_response_time", maxResponseCode.duration.text), checksum, ("group_address", group.text),
      ("suppress_router_side_processing", boolean suppress),
      ("robustness_variable", number robustness.value),
      ("query_interval", queryInterval.duration.text),
      ("source_addresses", list (sources.map Address.text))]
  | v3Report recordCount items =>
    [checksum, ("number_of_group_records", number recordCount),
      ("group_records", list (items.map recordItemDetail))]

def Reading.detail (checksum : UInt16) (r : Reading) : String :=
  applied r.kind.name [record r.kind.detailName (r.detailFields checksum)]

def Message.detail (m : Message) : String := m.reading.detail m.checksum

def DatagramReading.detail (r : DatagramReading) : String :=
  record "Ipv4Packet"
    [("version", number r.version), ("header_length", number r.headerLength),
      ("total_length", number r.totalLength), ("ttl", number r.timeToLive), ("protocol", r.protocol.text),
      ("checksum", number r.checksum.toNat), ("source", r.source.text),
      ("destination", r.destination.text), ("payload", quoted (HexText.spaced r.payload))]

def Datagram.detail (d : Datagram) : String := d.reading.detail

end Igmp
