import Igmp.Message

/-! Edits of a message: which kinds offer them, when they fail, and the bytes they change. -/
namespace Igmp

inductive Edit where
  | checksum (value : UInt16)
  | group (value : Address)
  | responseTime (value : ResponseTime)
  | maxResponseCode (value : MaxResponseCode)
  | suppress (value : Bool)
  | robustness (value : Robustness)
  | queryInterval (value : QueryIntervalCode)
  | sources (value : List Address)
  | records (value : List GroupRecord)
  deriving DecidableEq, Repr

inductive EditError where
  | refused (cause : CodecError)
  | notOffered
  | readOnly
  deriving DecidableEq, Repr

namespace Edit

def onlyFor (offered kind : MessageKind) : Except EditError Unit :=
  if kind = offered then .ok () else .error .notOffered

def checkSources (count room : Nat) : Except CodecError Unit :=
  if count > 65535 then .error (.outOfRange (.querySources count))
  else Container.require (.message .v3Query) (12 + 4 * count) room

def checkRecords (records : List GroupRecord) (room : Nat) : Except CodecError Unit :=
  if records.length > 65535 then .error (.outOfRange (.reportRecords records.length))
  else
    match records.findSome? GroupRecord.fault? with
    | some fault => .error (.outOfRange fault)
    | none => Container.require (.message .v3Report) (8 + GroupRecord.totalSize records) room

/-- The constant field that keeps a kind from taking another group address. -/
def fixedGroup? : MessageKind → Option FixedField
  | .v1Query => some .v1QueryGroup
  | .v3Report => some .v3ReportGroup
  | _ => none

/-- The constant field that keeps a kind from taking another response time. -/
def fixedResponseTime? : MessageKind → Option FixedField
  | .v1Query | .v1Report => some .v1ResponseTime
  | .v2Query => none
  | .v2Report => some .v2ReportResponseTime
  | .v2Leave => some .v2LeaveResponseTime
  | .v3Query => some .v3QueryResponseTime
  | .v3Report => some .v3ReportResponseTime

def unlessFixed : Option FixedField → Except EditError Unit
  | some field => .error (.refused (.fixedField field))
  | none => .ok ()

/-- Whether a kind of message in a region of `room` bytes takes the edit. -/
def check (kind : MessageKind) (room : Nat) : Edit → Except EditError Unit
  | checksum _ => .ok ()
  | group _ => unlessFixed (fixedGroup? kind)
  | responseTime _ => unlessFixed (fixedResponseTime? kind)
  | maxResponseCode _ | suppress _ | robustness _ | queryInterval _ => onlyFor .v3Query kind
  | sources addresses => do
    onlyFor .v3Query kind
    (checkSources addresses.length room).mapError .refused
  | records rs => do
    onlyFor .v3Report kind
    (checkRecords rs room).mapError .refused

/-- The region after the edit. Lists are written after the header, and their number into it. -/
def write : Edit → Bytes → Bytes
  | checksum value, region => Field.checksum.set value region
  | group value, region => Field.group.set value region
  | responseTime value, region => Field.responseTime.set value region
  | maxResponseCode value, region => Field.maxResponseCode.set value region
  | suppress value, region => Field.suppress.set value region
  | robustness value, region => Field.robustness.set value region
  | queryInterval value, region => Field.queryInterval.set value region
  | sources addresses, region =>
    Field.sourceCount.set (.ofNat addresses.length) (region.patch 12 (addresses.flatMap Address.octets))
  | records rs, region =>
    Field.recordCount.set (.ofNat rs.length) (region.patch 8 (rs.flatMap GroupRecord.layout))

end Edit

namespace Message

/-- The message after an edit. What the kind refuses is told before a read-only region is. -/
def edit (m : Message) (e : Edit) : Except EditError Message := do
  e.check m.kind m.region.length
  match m.access with
  | .readOnly => .error .readOnly
  | .writable => .ok { m with region := e.write m.region }

/-- The message after an edit that may fail, and then changes nothing. -/
def apply (m : Message) (e : Edit) : Message :=
  match m.edit e with
  | .ok edited => edited
  | .error _ => m

/-- The message after a run of edits, of which any may fail. -/
def applyAll (m : Message) (es : List Edit) : Message := es.foldl apply m

/-- The edit that stores the calculated checksum. -/
def checksumEdit (m : Message) : Edit := .checksum m.calculatedChecksum

/-- The bytes that the message was laid over, with the message as it is now at their start. -/
def writeBack (m : Message) (bs : Bytes) : Bytes := bs.patch 0 m.region

end Message
end Igmp
