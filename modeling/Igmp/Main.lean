import Igmp.BatchRun

/-! The program: reads the files that its command line names and prints a report on each. -/
namespace Igmp

/-- The text of a file, or the reason why it cannot be had. -/
def readFile (path : String) : IO (Except ReadFault String) := do
  try
    let bytes ← IO.FS.readBinFile path
    match String.fromUTF8? bytes with
    | some text => pure (.ok text)
    | none => pure (.error .notText)
  catch error =>
    match error with
    | .noFileOrDirectory .. => pure (.error .missing)
    | .inappropriateType none .. => pure (.error .isFolder)
    | .inappropriateType (some _) .. => pure (.error .notFolder)
    | .invalidArgument .. => pure (.error .nameTooLong)
    | other => pure (.error (.other (toString other)))

/-- Reads every word as a path, so that the run itself needs no files. -/
def readLibrary (words : List String) : IO Library := do
  let texts ← words.mapM fun path => do
    let text ← readFile path
    pure (path, text)
  pure fun path => (texts.lookup path).getD (.error .missing)

end Igmp

def main (words : List String) : IO UInt32 := do
  let paths := match Igmp.CommandLine.parse words with
    | .ok args => args.files
    | .error _ => []
  let library ← Igmp.readLibrary paths
  let outcome := Igmp.Program.run library words
  IO.print outcome.output
  if let some complaint := outcome.complaint then IO.eprintln complaint
  pure (UInt32.ofNat outcome.status)
