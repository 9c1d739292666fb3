import Igmp.FrameReport

/-! What the command line may ask for, with its defaults and limits. -/
namespace Igmp

inductive LogFormat where
  | compact
  | pretty
  | json
  deriving DecidableEq, Repr

/-- Which spans of the log are shown as they are entered and left. -/
inductive LogSpanEvents where
  | off
  | active
  | full
  deriving DecidableEq, Repr

/-- What was given on the command line. -/
structure Arguments where
  files : List String := []
  linkHeader : Option Nat := none
  checksumMode : Option ChecksumMode := none
  showBytes : Bool := false
  detail : Bool := false
  logFormat : Option LogFormat := none
  logFilter : Option String := none
  logSpanEvents : Option LogSpanEvents := none
  verbose : Bool := false
  deriving DecidableEq, Repr

structure Settings where
  files : List String
  report : ReportOptions
  logFormat : LogFormat
  logFilter : String
  logSpanEvents : LogSpanEvents
  verbose : Bool
  deriving DecidableEq, Repr

inductive SettingsError where
  | noFiles
  | linkHeaderTooLong (given : Nat)
  | invalidLogFilter (filter fault : String)
  deriving DecidableEq, Repr

namespace Settings

/-- The size of an Ethernet header. -/
def defaultLinkHeader : Nat := 14

def maxLinkHeader : Nat := 64

def defaultLogFilter : String := "igmp_packet=debug,igmp_dump=debug"

variable (filterFault? : String → Option String)

/-- The settings that arguments ask for. What is wrong with a log filter is for another to say. -/
def resolve (args : Arguments) : Except SettingsError Settings :=
  let linkHeader := args.linkHeader.getD defaultLinkHeader
  let logFilter := args.logFilter.getD defaultLogFilter
  if args.files = [] then .error .noFiles
  else if maxLinkHeader < linkHeader then .error (.linkHeaderTooLong linkHeader)
  else
    match filterFault? logFilter with
    | some fault => .error (.invalidLogFilter logFilter fault)
    | none =>
      .ok { files := args.files
            report :=
              { linkHeader
                checksumMode := args.checksumMode.getD .warn
                showBytes := args.showBytes
                detail := args.detail }
            logFormat := args.logFormat.getD .pretty
            logFilter
            logSpanEvents := args.logSpanEvents.getD .off
            verbose := args.verbose }

/-- What a run may rely on. -/
structure Checked (settings : Settings) : Prop where
  files_ne_nil : settings.files ≠ []
  linkHeader_le : settings.report.linkHeader ≤ maxLinkHeader
  logFilter_valid : filterFault? settings.logFilter = none

variable {filterFault?}

theorem checked_of_resolve {args : Arguments} {settings : Settings}
    (h : resolve filterFault? args = .ok settings) : Checked filterFault? settings := by
  dsimp only [resolve] at h
  split at h
  · cases h
  next hfiles =>
    split at h
    · cases h
    next hheader =>
      split at h
      · cases h
      next hfilter =>
        cases h
        exact ⟨hfiles, Nat.not_lt.1 hheader, hfilter⟩

/-- The defaults pass the checks that given values have to pass. -/
theorem resolve_defaults {args : Arguments} (hfiles : args.files ≠ [])
    (hheader : args.linkHeader = none) (hfilter : args.logFilter = none)
    (hdefault : filterFault? defaultLogFilter = none) :
    ∃ settings, resolve filterFault? args = .ok settings := by
  rw [resolve, hheader, hfilter, Option.getD_none, Option.getD_none, if_neg hfiles,
    if_neg (by decide), hdefault]
  exact ⟨_, rfl⟩

end Settings

def SettingsError.message : SettingsError → String
  | noFiles => "at least one hex dump file must be given"
  | linkHeaderTooLong given =>
    s!"link-header-len ({given}) must not be greater than " ++ toString Settings.maxLinkHeader
  | invalidLogFilter filter fault => "invalid log-filter (" ++ filter ++ "): " ++ fault

end Igmp
