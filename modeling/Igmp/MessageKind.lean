/-! Message types, as the type byte tells them apart, and message kinds, which also tell the three
versions of a query apart. -/
namespace Igmp

inductive MessageType where
  | membershipQuery
  | v1MembershipReport
  | v2MembershipReport
  | v3MembershipReport
  | leaveGroup
  deriving DecidableEq, Repr

namespace MessageType

def code : MessageType → UInt8
  | membershipQuery => 0x11
  | v1MembershipReport => 0x12
  | v2MembershipReport => 0x16
  | v3MembershipReport => 0x22
  | leaveGroup => 0x17

def ofCode? (code : UInt8) : Option MessageType :=
  if code = 0x11 then some membershipQuery
  else if code = 0x12 then some v1MembershipReport
  else if code = 0x16 then some v2MembershipReport
  else if code = 0x22 then some v3MembershipReport
  else if code = 0x17 then some leaveGroup
  else none

def name : MessageType → String
  | membershipQuery => "MembershipQuery"
  | v1MembershipReport => "V1MembershipReport"
  | v2MembershipReport => "V2MembershipReport"
  | v3MembershipReport => "V3MembershipReport"
  | leaveGroup => "LeaveGroup"

def text : MessageType → String
  | membershipQuery => "membership query"
  | v1MembershipReport => "v1 membership report"
  | v2MembershipReport => "v2 membership report"
  | v3MembershipReport => "v3 membership report"
  | leaveGroup => "leave group"

theorem ofCode?_code (t : MessageType) : ofCode? t.code = some t := by cases t <;> rfl

theorem code_of_ofCode? (b : UInt8) (t : MessageType) (h : ofCode? b = some t) : t.code = b := by
  simp only [ofCode?] at h
  split at h
  · simp_all [← Option.some.inj h, code]
  split at h
  · simp_all [← Option.some.inj h, code]
  split at h
  · simp_all [← Option.some.inj h, code]
  split at h
  · simp_all [← Option.some.inj h, code]
  split at h
  · simp_all [← Option.some.inj h, code]
  · simp at h

end MessageType

inductive MessageKind where
  | v1Query
  | v1Report
  | v2Query
  | v2Report
  | v2Leave
  | v3Query
  | v3Report
  deriving DecidableEq, Repr

namespace MessageKind

def type : MessageKind → MessageType
  | v1Query | v2Query | v3Query => .membershipQuery
  | v1Report => .v1MembershipReport
  | v2Report => .v2MembershipReport
  | v2Leave => .leaveGroup
  | v3Report => .v3MembershipReport

/-- The version of the protocol that defines the kind. -/
def version : MessageKind → Nat
  | v1Query | v1Report => 1
  | v2Query | v2Report | v2Leave => 2
  | v3Query | v3Report => 3

/-- The number of bytes before any source addresses or group records. -/
def headerSize : MessageKind → Nat
  | v3Query => 12
  | _ => 8

def name : MessageKind → String
  | v1Query => "V1Query"
  | v1Report => "V1Report"
  | v2Query => "V2Query"
  | v2Report => "V2Report"
  | v2Leave => "V2LeaveGroup"
  | v3Query => "V3Query"
  | v3Report => "V3Report"

theorem eight_le_headerSize (k : MessageKind) : 8 ≤ k.headerSize := by cases k <;> decide

end MessageKind
end Igmp
