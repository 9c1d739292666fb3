import Igmp.FileReport

/-! The program, for any way of reading a command line and of judging log filters. -/
namespace Igmp

/-- What a run of the program leaves: its exit status, its output, and what it complains of. -/
structure Outcome where
  status : Nat
  output : String
  complaint : Option String
  deriving DecidableEq, Repr

/-- What the program leaves to others. -/
structure Frontend where
  /-- The arguments that the words of a command line give, or how a run ends without any. -/
  arguments : List String → Except Outcome Arguments
  /-- What is wrong with a log filter, if anything is. -/
  filterFault? : String → Option String

namespace Program

/-- What a run over the files that the settings name leaves. -/
def report (library : Library) (settings : Settings) : Outcome :=
  match BatchRun.failure? library settings with
  | none => ⟨0, BatchRun.output library settings, none⟩
  | some failure => ⟨1, BatchRun.output library settings, some ("Error: " ++ failure)⟩

/-- The outcome of the program on the words of its command line. -/
def runWith (frontend : Frontend) (library : Library) (words : List String) : Outcome :=
  match frontend.arguments words with
  | .error outcome => outcome
  | .ok args =>
    match Settings.resolve frontend.filterFault? args with
    | .error error => ⟨1, "", some ("Error: " ++ error.message)⟩
    | .ok settings => report library settings

end Program
end Igmp
