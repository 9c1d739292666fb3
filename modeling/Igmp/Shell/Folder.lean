import Igmp.FileReport

/-! The paths that can be read from inside a folder which holds nothing but files. -/
namespace Igmp

/-- The texts of the files in a folder by their names, or the reasons why they cannot be had. -/
abbrev Folder := List (String × Except ReadFault String)

namespace Folder

/-- The greatest number of bytes in the name of a file. -/
def maxName : Nat := 255

/-- The greatest number of bytes in a path. -/
def maxPath : Nat := 4095

/-- What is wrong with a name that no file has. -/
def unknownName (name : String) : ReadFault :=
  if name.utf8ByteSize ≤ maxName then .missing else .nameTooLong

/-- What is wrong with steps that start outside the folder, where nothing is known to be. -/
def readOutside : List String → ReadFault
  | [] => .isFolder
  | step :: steps => if ["", ".", ".."].contains step then readOutside steps else unknownName step

/-- Follows steps that start in the folder. Behind a file there is no further step. -/
def readSteps (folder : Folder) : List String → Except ReadFault String
  | [] => .error .isFolder
  | step :: steps =>
    if step = "" ∨ step = "." then readSteps folder steps
    else if step = ".." then .error (readOutside steps)
    else
      match folder.lookup step with
      | some text => if steps = [] then text else .error .notFolder
      | none => .error (unknownName step)

/-- The text of the file to which a path leads. A path that starts with a slash starts outside. -/
def read (folder : Folder) (path : String) : Except ReadFault String :=
  if path = "" then .error .missing
  else if maxPath < path.utf8ByteSize then .error .nameTooLong
  else
    match path.splitOn "/" with
    | "" :: steps => .error (readOutside steps)
    | steps => folder.readSteps steps

end Folder
end Igmp
