import Igmp.DetailText

/-! Reports on the message in a captured frame. -/
namespace Igmp

/-- What to make of a stored checksum that differs from the calculated one. -/
inductive ChecksumMode where
  | ignore
  | warn
  | strict
  deriving DecidableEq, Repr

structure ReportOptions where
  /-- The number of bytes before the IPv4 header. -/
  linkHeader : Nat
  checksumMode : ChecksumMode
  showBytes : Bool
  detail : Bool
  deriving DecidableEq, Repr

inductive ChecksumStatus where
  | valid
  | invalid (calculated : UInt16)
  | unchecked
  deriving DecidableEq, Repr

def ChecksumStatus.text : ChecksumStatus → String
  | valid => "[valid]"
  | invalid calculated => "[invalid, expected " ++ HexText.number 4 calculated.toNat ++ "]"
  | unchecked => "[unchecked]"

/-- Why there is nothing to report on a frame. -/
inductive FrameError where
  | shorterThanLinkHeader (size linkHeader : Nat)
  | header (cause : CodecError)
  | version (found : Nat)
  | message (cause : CodecError)
  | checksum (stored calculated : UInt16)
  deriving DecidableEq, Repr

def FrameError.text : FrameError → String
  | shorterThanLinkHeader size linkHeader =>
    s!"frame of {size} bytes is shorter than the link header ({linkHeader} bytes)"
  | header cause => "failed to read IPv4 header: " ++ cause.message
  | version found => s!"not an IPv4 packet, version: {found}"
  | message cause => "failed to decode IGMP message: " ++ cause.message
  | checksum stored calculated =>
    "invalid IGMP checksum, stored=" ++ HexText.number 4 stored.toNat ++ ", calculated=" ++
      HexText.number 4 calculated.toNat

/-- What is reported on a frame: the addresses of the datagram and all that is read from its message. -/
structure FrameReport where
  source : Address
  destination : Address
  reading : Reading
  checksum : UInt16
  size : Nat
  content : Bytes
  status : ChecksumStatus
  deriving Repr

/-- A group record on one line. -/
def GroupRecord.summary (r : GroupRecord) : String :=
  r.type.name ++ " " ++ r.group.text ++ " sources " ++ DetailText.list (r.sources.map Address.text) ++ " aux " ++
    DetailText.list (r.auxiliary.map fun w => HexText.spaced w.bytes)

def recordItemSummary : Except RecordFault GroupRecord → String
  | .ok r => r.summary
  | .error fault => "<" ++ fault.toCodecError.message ++ ">"

/-- The fields that matter for a message of the kind. A report has a line for each group record. -/
def Reading.summary? : Reading → Option String
  | v1Query _ => none
  | v1Report group | v2Report _ group | v2Leave _ group => some ("group " ++ group.text)
  | v2Query responseTime group =>
    some ("group " ++ group.text ++ " max response time " ++ responseTime.duration.text)
  | v3Query maxResponseCode group suppress robustness queryInterval _ sources =>
    some ("group " ++ group.text ++ " max response time " ++ maxResponseCode.duration.text ++ " qrv " ++
      DetailText.number robustness.value ++ " qqi " ++ queryInterval.duration.text ++
      (if suppress then " suppress" else "") ++ " sources " ++ DetailText.list (sources.map Address.text))
  | v3Report _ items => some ("\n  ".intercalate (items.map recordItemSummary))

/-- The outcome of comparing the checksums; only in strict mode may it be a failure. -/
def Message.checkChecksum (m : Message) : ChecksumMode → Except FrameError ChecksumStatus
  | .ignore => .ok .unchecked
  | .warn => .ok (if m.hasValidChecksum then .valid else .invalid m.calculatedChecksum)
  | .strict => if m.hasValidChecksum then .ok .valid else .error (.checksum m.checksum m.calculatedChecksum)

namespace FrameReport

/-- The datagram and the message in a frame. -/
def locate (linkHeader : Nat) (frame : Bytes) : Except FrameError (Datagram × Message) := do
  if frame.length < linkHeader then .error (.shorterThanLinkHeader frame.length linkHeader)
  else
    let datagram ← (Datagram.view (frame.drop linkHeader)).mapError .header
    if datagram.version ≠ 4 then .error (.version datagram.version)
    else
      let message ← datagram.message.mapError .message
      .ok (datagram, message)

def ofMessage (datagram : Datagram) (message : Message) (status : ChecksumStatus) : FrameReport where
  source := datagram.source
  destination := datagram.destination
  reading := message.reading
  checksum := message.checksum
  size := message.size
  content := message.content
  status

def ofFrame (linkHeader : Nat) (mode : ChecksumMode) (frame : Bytes) : Except FrameError FrameReport := do
  let (datagram, message) ← locate linkHeader frame
  let status ← message.checkChecksum mode
  .ok (.ofMessage datagram message status)

def headline (r : FrameReport) : String :=
  r.source.text ++ " -> " ++ r.destination.text ++ " IGMPv" ++ DetailText.number r.reading.kind.version ++ " " ++
    r.reading.kind.type.text ++ " (" ++ DetailText.number r.size ++ " bytes) checksum " ++
    HexText.number 4 r.checksum.toNat ++ " " ++ r.status.text

/-- The indented lines under the headline. -/
def lines (showBytes detail : Bool) (r : FrameReport) : List String :=
  r.reading.summary?.toList ++
    (if showBytes then ["bytes: " ++ HexText.spaced r.content] else []) ++
    (if detail then [r.reading.detail r.checksum] else [])

def text (showBytes detail : Bool) (r : FrameReport) : String :=
  (r.lines showBytes detail).foldl (fun done line => done ++ "\n  " ++ line) r.headline

end FrameReport

/-- The report on the message in a frame. -/
def describeFrame (options : ReportOptions) (frame : Bytes) : Except FrameError String :=
  (FrameReport.ofFrame options.linkHeader options.checksumMode frame).map
    (FrameReport.text options.showBytes options.detail)

end Igmp
