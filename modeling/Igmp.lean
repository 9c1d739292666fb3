import Igmp.Address
import Igmp.BatchRun
import Igmp.Bytes
import Igmp.Checksum
import Igmp.CodecError
import Igmp.Datagram
import Igmp.DetailText
import Igmp.Dispatch
import Igmp.Duration
import Igmp.Field
import Igmp.FileReport
import Igmp.FrameReport
import Igmp.GroupRecord
import Igmp.HexDump
import Igmp.HexText
import Igmp.Main
import Igmp.Message
import Igmp.MessageEdit
import Igmp.MessageKind
import Igmp.Numeral
import Igmp.Program
import Igmp.Protocol
import Igmp.Reading
import Igmp.RecordCursor
import Igmp.Settings
import Igmp.Shell.CommandLine
import Igmp.Shell.FieldFilter
import Igmp.Shell.Folder
import Igmp.Shell.Help
import Igmp.Shell.Letters
import Igmp.Shell.LogFilter
import Igmp.Shell.Pattern.Atom
import Igmp.Shell.Pattern.Bracket
import Igmp.Shell.Pattern.Check
import Igmp.TimeCode
import Igmp.Tokens
import Igmp.Proofs.ByteOverlay
import Igmp.Proofs.EditStamp
import Igmp.Proofs.EditRun
import Igmp.Proofs.RecordLayout
import Igmp.Proofs.RecordWalk
import Igmp.Proofs.StoredFields
import Igmp.Proofs.BuildParse
import Igmp.Proofs.DatagramVerdict
import Igmp.Proofs.GuardedMessage
import Igmp.Proofs.GuardedReport
import Igmp.Proofs.HeldBytes
import Igmp.Proofs.Rebuild
import Igmp.Proofs.OnesComplement
import Igmp.Proofs.ReceiverTest
import Igmp.Proofs.LostCarries
import Igmp.Proofs.ReportHistory
import Igmp.Proofs.HexListing
import Igmp.Proofs.InPlaceWrite
import Igmp.Proofs.InPlaceEdit
import Igmp.Proofs.RefusedEdit
import Igmp.Proofs.EditedPayload
import Igmp.Proofs.ReportModes
import Igmp.Proofs.PinnedMemory
import Igmp.Proofs.RecordCodec
import Igmp.Proofs.WrappingSum
import Igmp.Proofs.MalformedReport
import Igmp.Proofs.DumpText
import Igmp.Proofs.LineTokens
import Igmp.Proofs.DumpGrammar
import Igmp.Proofs.CursorCalls
import Igmp.Proofs.StoredChecksum
import Igmp.Proofs.BeyondSize
import Igmp.Proofs.WordCorruption
import Igmp.Proofs.TimeScale
import Igmp.Proofs.FileSections
import Igmp.Proofs.IndependentFields
