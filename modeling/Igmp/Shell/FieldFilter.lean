import Igmp.Shell.Pattern.Check

/-! Filters on a field of a span: its name, and after an equals sign the value it has to have. -/
namespace Igmp
namespace FieldFilter

def dropSign : List Char → List Char
  | '+' :: cs | '-' :: cs => cs
  | cs => cs

/-- Whether an exponent, or nothing, is all that is left of a number. -/
def isExponent : List Char → Bool
  | [] => true
  | e :: cs => (e = 'e' || e = 'E') && dropSign cs ≠ [] && (dropSign cs).all Char.isDigit

/-- Whether a text is a number without a sign: digits, one of which may have a point before or after it, and
an exponent. -/
def isDecimal (cs : List Char) : Bool :=
  let rest := cs.dropWhile Char.isDigit
  match rest with
  | '.' :: fraction =>
    (cs.head?.any Char.isDigit || fraction.head?.any Char.isDigit) && isExponent (fraction.dropWhile Char.isDigit)
  | rest => cs.head?.any Char.isDigit && isExponent rest

/-- The names of what is beyond all numbers, or no number. -/
def limitNames : List String := ["inf", "infinity", "nan"]

def isNumber (cs : List Char) : Bool :=
  isDecimal (dropSign cs) || limitNames.contains (String.ofList ((dropSign cs).map Char.toLower))

/-- A value is a number, or else a pattern. -/
def checkValue (value : List Char) : Except PatternFault Unit :=
  if isNumber value then .ok () else Pattern.check value

/-- A second equals sign ends the value. -/
def check (field : List Char) : Except PatternFault Unit :=
  match Tokens.split (· = '=') field with
  | _ :: value :: _ => checkValue value
  | _ => .ok ()

end FieldFilter
end Igmp
