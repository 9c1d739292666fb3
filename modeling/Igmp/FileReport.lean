import Igmp.HexDump
import Igmp.Settings

/-! Reports on files: on one, and on several in a run. Each file is reported on by itself, whatever
becomes of the others. -/
namespace Igmp

/-- Why the text of a file cannot be had. -/
inductive ReadFault where
  | missing
  | isFolder
  | notFolder
  | nameTooLong
  | notText
  | other (reason : String)
  deriving DecidableEq, Repr

def ReadFault.text : ReadFault → String
  | missing => "No such file or directory (os error 2)"
  | isFolder => "Is a directory (os error 21)"
  | notFolder => "Not a directory (os error 20)"
  | nameTooLong => "File name too long (os error 36)"
  | notText => "stream did not contain valid UTF-8"
  | other reason => reason

inductive FileError where
  | unreadable (path : String) (fault : ReadFault)
  | hexDump (cause : HexDumpError)
  | frame (cause : FrameError)
  deriving DecidableEq, Repr

def FileError.text : FileError → String
  | unreadable path fault => "failed to read " ++ path ++ ": " ++ fault.text
  | hexDump cause => cause.message
  | frame cause => cause.text

/-- The texts of files by their paths. -/
abbrev Library := String → Except ReadFault String

/-- The report on the frame in a file. -/
def describeFile (library : Library) (options : ReportOptions) (path : String) : Except FileError String := do
  let text ← (library path).mapError (.unreadable path)
  let frame ← (HexDump.read text).mapError .hexDump
  (describeFrame options frame).mapError .frame

namespace BatchRun

/-- The path, and under it the report or the reason why there is none. -/
def entry (library : Library) (options : ReportOptions) (path : String) : String :=
  let body := match describeFile library options path with
    | .ok report => report
    | .error error => "  error: " ++ error.text
  path ++ ":\n" ++ body ++ "\n"

/-- The entries of all files, with an empty line between them. -/
def output (library : Library) (settings : Settings) : String :=
  "\n".intercalate (settings.files.map (entry library settings.report))

def failures (library : Library) (settings : Settings) : Nat :=
  settings.files.countP fun path => !(describeFile library settings.report path).isOk

/-- What is wrong with a run in which some file could not be reported on. -/
def failure? (library : Library) (settings : Settings) : Option String :=
  match failures library settings with
  | 0 => none
  | failed =>
    let total := settings.files.length
    some s!"failed to decode {failed} of {total} files"

end BatchRun

end Igmp
