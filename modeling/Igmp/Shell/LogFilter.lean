import Igmp.Shell.FieldFilter

/-! Log filters: directives with commas between them. A directive is a level, or names what it is about,
and may give that a level after an equals sign. -/
namespace Igmp

/-- Why a text is no log filter. -/
inductive LogFilterFault where
  | directive
  | level
  | field (fault : PatternFault)
  deriving DecidableEq, Repr

namespace LogFilter

def levels : List String := ["off", "error", "warn", "info", "debug", "trace"]

/-- A level is one of the names, in any case, or its place in the list; it may be left out. -/
def isLevel (level : List Char) : Bool :=
  level = [] ∨ levels.contains (String.ofList (level.map Char.toLower)) ∨
    (Numeral.word? 10 level).any (· < levels.length)

/-- Whether a name may start with the character. -/
def startsName (c : Char) : Bool := Letters.isAlphanumeric c || c = '-' || c = ':' || c = '_'

/-- The number of bytes that characters take. -/
def byteCount (cs : List Char) : Nat := cs.foldr (fun c bytes => c.utf8Size + bytes) 0

/-- What is left after some bytes, unless they end inside a character. -/
def dropBytes (count : Nat) : List Char → Option (List Char)
  | [] => if count = 0 then some [] else none
  | c :: cs =>
    if count = 0 then some (c :: cs)
    else if c.utf8Size ≤ count then dropBytes (count - c.utf8Size) cs
    else none

/-- The characters that take up the first bytes, unless these end inside a character. -/
def takeBytes (count : Nat) (cs : List Char) : Option (List Char) :=
  (dropBytes count cs).map fun rest => cs.take (cs.length - rest.length)

/-- The text at the place where a field stands in a directive, when blanks before the directive are not
counted. There is none if it begins or ends inside a character. -/
def fieldText (directive field rest : List Char) : Option (List Char) :=
  let start := byteCount (directive.dropWhile Tokens.isBlank) - byteCount (field ++ rest)
  (dropBytes start directive).bind (takeBytes (byteCount field))

/-- Checks a field of a directive, which must not be empty. The rest starts with the brace after it. -/
def checkField (directive field rest : List Char) : Except LogFilterFault Unit :=
  if field = [] then .error .directive
  else
    match fieldText directive field rest with
    | some text => (FieldFilter.check text).mapError .field
    | none => .error .directive

/-- The text of the level in what follows a span, where blanks may stand for nothing. -/
def levelAfterSpan (cs : List Char) : Except LogFilterFault (Option (List Char)) :=
  match cs with
  | '=' :: level => .ok (some level)
  | cs => if cs.all Tokens.isBlank then .ok none else .error .directive

/-- The text of the level in what follows an opening bracket of a directive. The bracket holds the name of
a span, and after it may hold a field in braces, whose own fault counts before any that follows. -/
def levelAfterBracket (directive cs : List Char) : Except LogFilterFault (Option (List Char)) :=
  match cs.dropWhile fun c => c ≠ ']' ∧ c ≠ '{' with
  | ']' :: rest => levelAfterSpan rest
  | '{' :: cs =>
    match cs.dropWhile (· ≠ '}') with
    | '}' :: rest => do
      checkField directive (cs.takeWhile (· ≠ '}')) ('}' :: rest)
      match rest with
      | ']' :: rest => levelAfterSpan rest
      | _ => .error .directive
    | _ => .error .directive
  | _ => .error .directive

/-- The text of the level that a directive gives to a target, to a span in brackets, or to a span of a
target, if it gives one. -/
def givenLevel (directive : List Char) : Except LogFilterFault (Option (List Char)) :=
  match directive.dropWhile Tokens.isBlank with
  | [] => .error .directive
  | '[' :: span => levelAfterBracket directive span
  | c :: name =>
    if startsName c then
      match name.dropWhile fun c => c ≠ '=' ∧ c ≠ '[' with
      | '=' :: level => .ok (some level)
      | '[' :: span => levelAfterBracket directive span
      | _ => .ok none
    else .error .directive

/-- A given level must be one, and no blank may stand before the directive that gives it. -/
def checkDirective (directive : List Char) : Except LogFilterFault Unit := do
  match ← givenLevel directive with
  | none => .ok ()
  | some level =>
    if !directive.head?.any Tokens.isBlank && isLevel level then .ok () else .error .level

/-- The first fault among the directives counts; empty ones do not. -/
def check (filter : String) : Except LogFilterFault Unit :=
  ((Tokens.split (· = ',') filter.toList).filter (· ≠ [])).forM checkDirective

end LogFilter

def LogFilterFault.message : LogFilterFault → String
  | directive => "invalid filter directive"
  | level =>
    "error parsing level filter: expected one of " ++
      ", ".intercalate (LogFilter.levels.map fun level => "\"" ++ level ++ "\"") ++ ", or a number 0-5"
  | field fault => "invalid field filter: " ++ fault.message

end Igmp
