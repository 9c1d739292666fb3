import Igmp.Settings

/-! Reading the words of a command line. Options, flags and files may be mixed; an option takes its
value from its own word or from the next one. -/
namespace Igmp

/-- Why a command line asks for no run. -/
inductive UsageError where
  | nothingGiven
  | help
  | version
  | noFiles
  | unknownOption
  | invalidValue
  | malformedValue
  | givenTwice
  | valueForFlag
  deriving DecidableEq, Repr

namespace CommandLine

inductive Flag where
  | showBytes
  | detail
  | verbose
  | help
  | version
  deriving DecidableEq, Repr

/-- Options that take a value. -/
inductive Setting where
  | linkHeader
  | checksumMode
  | logFormat
  | logFilter
  | logSpanEvents
  deriving DecidableEq, Repr

inductive Switch where
  | flag (flag : Flag)
  | setting (setting : Setting)
  deriving DecidableEq, Repr

def short? : Char → Option Switch
  | 'b' => some (.flag .showBytes)
  | 'd' => some (.flag .detail)
  | 'v' => some (.flag .verbose)
  | 'h' => some (.flag .help)
  | 'V' => some (.flag .version)
  | 'l' => some (.setting .linkHeader)
  | 'c' => some (.setting .checksumMode)
  | _ => none

def long? : String → Option Switch
  | "show-bytes" => some (.flag .showBytes)
  | "detail" => some (.flag .detail)
  | "verbose" => some (.flag .verbose)
  | "help" => some (.flag .help)
  | "version" => some (.flag .version)
  | "link-header-len" => some (.setting .linkHeader)
  | "checksum" => some (.setting .checksumMode)
  | "log-format" => some (.setting .logFormat)
  | "log-filter" => some (.setting .logFilter)
  | "log-span-events" => some (.setting .logSpanEvents)
  | _ => none

def checksumMode? : String → Option ChecksumMode
  | "ignore" => some .ignore
  | "warn" => some .warn
  | "strict" => some .strict
  | _ => none

def logFormat? : String → Option LogFormat
  | "compact" => some .compact
  | "pretty" => some .pretty
  | "json" => some .json
  | _ => none

def logSpanEvents? : String → Option LogSpanEvents
  | "off" => some .off
  | "active" => some .active
  | "full" => some .full
  | _ => none

/-- Fills a place that must still be empty with a value that must be well formed. -/
def fill {α : Type} (place : Option α) (fault : UsageError) (value : Option α) :
    Except UsageError (Option α) :=
  if place.isSome then .error .givenTwice
  else if value.isNone then .error fault
  else .ok value

def setValue (args : Arguments) (value : String) : Setting → Except UsageError Arguments
  | .linkHeader => do
    let n ← fill args.linkHeader .malformedValue (Numeral.word? 10 value.toList)
    .ok { args with linkHeader := n }
  | .checksumMode => do
    let mode ← fill args.checksumMode .invalidValue (checksumMode? value)
    .ok { args with checksumMode := mode }
  | .logFormat => do
    let format ← fill args.logFormat .invalidValue (logFormat? value)
    .ok { args with logFormat := format }
  | .logFilter => do
    let filter ← fill args.logFilter .invalidValue (some value)
    .ok { args with logFilter := filter }
  | .logSpanEvents => do
    let events ← fill args.logSpanEvents .invalidValue (logSpanEvents? value)
    .ok { args with logSpanEvents := events }

/-- Sets a place that must not be set yet. -/
def raise (place : Bool) : Except UsageError Bool := if place then .error .givenTwice else .ok true

def setFlag (args : Arguments) : Flag → Except UsageError Arguments
  | .showBytes => do
    let on ← raise args.showBytes
    .ok { args with showBytes := on }
  | .detail => do
    let on ← raise args.detail
    .ok { args with detail := on }
  | .verbose => do
    let on ← raise args.verbose
    .ok { args with verbose := on }
  | .help => .error .help
  | .version => .error .version

/-- Words that have been read but not been acted upon, since more words may belong to them. -/
inductive Pending where
  | nothing
  | files (names : List String)
  | setting (setting : Setting) (value : Option String)
  deriving DecidableEq, Repr

structure Progress where
  args : Arguments := {}
  pending : Pending := .nothing
  deriving DecidableEq, Repr

/-- Acts upon the words read so far. -/
def settle (p : Progress) : Except UsageError Arguments :=
  match p.pending with
  | .nothing => .ok p.args
  | .files names =>
    if names.contains "" then .error .invalidValue else .ok { p.args with files := p.args.files ++ names }
  | .setting _ none => .error .invalidValue
  | .setting setting (some value) => setValue p.args value setting

/-- Reads a word that names a file. -/
def takeFile (p : Progress) (word : String) : Except UsageError Progress :=
  match p.pending with
  | .files names => .ok { p with pending := .files (names ++ [word]) }
  | _ => do
    let args ← settle p
    .ok { args, pending := .files [word] }

/-- Reads a word that names no option: the value that an option waits for, or a file. -/
def takeValue (p : Progress) (word : String) : Except UsageError Progress :=
  match p.pending with
  | .setting setting none => .ok { p with pending := .setting setting (some word) }
  | _ => takeFile p word

/-- Acts upon an option, with the value in its own word, or else waits for one. -/
def takeSetting (p : Progress) (setting : Setting) (value : Option String) : Except UsageError Progress := do
  let args ← settle p
  match value with
  | none => .ok { args, pending := .setting setting none }
  | some value =>
    let args ← setValue args value setting
    .ok { args }

def takeFlag (p : Progress) (flag : Flag) : Except UsageError Progress := do
  let args ← settle p
  let args ← setFlag args flag
  .ok { args }

/-- Reads the letters after one dash. The first option that takes a value takes the remaining
letters, less an equals sign in front. -/
def takeShort (p : Progress) : List Char → Except UsageError Progress
  | [] => .ok p
  | letter :: rest =>
    match short? letter with
    | none => .error .unknownOption
    | some (.flag flag) => do
      let p ← takeFlag p flag
      takeShort p rest
    | some (.setting setting) =>
      takeSetting p setting <|
        match rest with
        | [] => none
        | '=' :: value => some (String.ofList value)
        | value => some (String.ofList value)

/-- Reads what follows two dashes: a name, and after an equals sign a value. -/
def takeLong (p : Progress) (word : List Char) : Except UsageError Progress :=
  let name := word.takeWhile (· ≠ '=')
  let value := match word.dropWhile (· ≠ '=') with
    | [] => none
    | _ :: value => some (String.ofList value)
  match long? (String.ofList name), value with
  | none, _ => .error .unknownOption
  | some (.flag _), some _ => .error .valueForFlag
  | some (.flag flag), none => takeFlag p flag
  | some (.setting setting), value => takeSetting p setting value

/-- Reads the words in order. After two dashes alone, every word names a file. -/
def takeWords (p : Progress) : List String → Except UsageError Progress
  | [] => .ok p
  | "--" :: words => words.foldlM takeFile p
  | word :: words => do
    let p ← match word.toList with
      | '-' :: '-' :: name => takeLong p name
      | '-' :: letter :: letters => takeShort p (letter :: letters)
      | _ => takeValue p word
    takeWords p words

/-- The arguments that the words of a command line give. -/
def parse (words : List String) : Except UsageError Arguments := do
  let p ← takeWords {} words
  let args ← settle p
  if args = {} then .error .nothingGiven
  else if args.files = [] then .error .noFiles
  else .ok args

end CommandLine
end Igmp
