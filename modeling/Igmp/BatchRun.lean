import Igmp.Program
import Igmp.Shell.CommandLine
import Igmp.Shell.Folder
import Igmp.Shell.Help
import Igmp.Shell.LogFilter

/-! The program with its command line and its log filters. -/
namespace Igmp

namespace LogFilter

def fault? (filter : String) : Option String :=
  match check filter with
  | .ok () => none
  | .error fault => some fault.message

/-- The filter that is used unless another is given is one. -/
example : fault? Settings.defaultLogFilter = none := by decide +kernel

end LogFilter

def Settings.ofArguments (args : Arguments) : Except SettingsError Settings :=
  resolve LogFilter.fault? args

namespace Program

/-- How a run ends whose command line asks for none. Of a refusal only the last line is told. -/
def refuse (error : UsageError) : Outcome :=
  match error with
  | .help => ⟨0, help, none⟩
  | .version => ⟨0, name ++ " " ++ version ++ "\n", none⟩
  | .nothingGiven => ⟨2, "", some help⟩
  | _ => ⟨2, "", some "For more information, try '--help'."⟩

def frontend : Frontend where
  arguments words := (CommandLine.parse words).mapError refuse
  filterFault? := LogFilter.fault?

def run (library : Library) (words : List String) : Outcome := runWith frontend library words

end Program
end Igmp
