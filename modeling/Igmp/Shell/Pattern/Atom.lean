import Igmp.Numeral
import Igmp.Tokens

/-! The smallest parts of a text pattern: characters, escapes, and the flags that decide on them. -/
namespace Igmp
namespace Pattern

structure Flags where
  ignoreCase : Bool
  unicode : Bool
  verbose : Bool
  deriving DecidableEq, Repr

namespace Flags

def initial : Flags := ⟨false, true, false⟩

/-- What is left after blanks, and after comments, which run from a number sign to the end of the line. -/
def dropSpace (inComment : Bool) : List Char → List Char
  | [] => []
  | c :: cs =>
    if inComment then dropSpace (c ≠ '\n') cs
    else if Tokens.isBlank c then dropSpace false cs
    else if c = '#' then dropSpace true cs
    else c :: cs

/-- What is left to read: verbose patterns may be spaced out and commented. -/
def skip (flags : Flags) (cs : List Char) : List Char := if flags.verbose then dropSpace false cs else cs

/-- The flags after one that is set or cleared; most of them say nothing about which patterns are valid. -/
def set (flags : Flags) (value : Bool) : Char → Flags
  | 'i' => { flags with ignoreCase := value }
  | 'u' => { flags with unicode := value }
  | 'x' => { flags with verbose := value }
  | _ => flags

def names : List Char := ['i', 'm', 's', 'U', 'u', 'R', 'x']

/-- Reads flags up to the colon or parenthesis after them, which is given back. Flags after a dash are
cleared. No flag may be repeated, and no dash be repeated or stand last. -/
def read (flags : Flags) (value : Bool) (seen : List Char) :
    List Char → Option (Flags × List Char × Char × List Char)
  | [] => none
  | c :: cs =>
    if c = ':' ∨ c = ')' then
      if seen.head? = some '-' then none else some (flags, seen, c, cs)
    else if seen.contains c then none
    else if c = '-' then read flags false (c :: seen) cs
    else if names.contains c then read (flags.set value c) value (c :: seen) cs
    else none

end Flags

inductive Atom where
  | char (c : Char)
  /-- A character written as the two digits of a byte. -/
  | byte (c : Char)
  /-- A class of ASCII characters named by one letter, or its complement. -/
  | named (negated : Bool)
  | boundary
  | anchor
  deriving DecidableEq, Repr

namespace Atom

/-- Whether a pattern may hold the atom. There are no tables of letter case and of classes beyond ASCII,
and no pattern may match half a character. -/
def isValid (flags : Flags) : Atom → Bool
  | char _ => !(flags.unicode && flags.ignoreCase)
  | byte c => if flags.unicode then !flags.ignoreCase else c.toNat < 128
  | named negated => !flags.unicode && !negated
  | boundary | anchor => true

/-- The character of an atom that is one. -/
def char? : Atom → Option Char
  | char c | byte c => some c
  | _ => none

/-- Whether a class in brackets may hold the atom. -/
def isValidInBracket (flags : Flags) (atom : Atom) : Bool :=
  atom.isValid flags &&
    match atom with
    | char c | byte c => flags.unicode || c.toNat < 128
    | named _ => true
    | boundary | anchor => false

/-- The code point that `count` hexadecimal digits spell. -/
def readDigits (flags : Flags) : Nat → Nat → List Char → Option (Nat × List Char)
  | 0, code, cs => some (code, cs)
  | count + 1, code, cs =>
    match flags.skip cs with
    | [] => none
    | c :: cs =>
      match Numeral.step? 16 code c with
      | some code => readDigits flags count code cs
      | none => none

def readCodePoint (flags : Flags) (count : Nat) (cs : List Char) : Option (Char × List Char) :=
  match readDigits flags count 0 cs with
  | some (code, rest) => if code.isValidChar then some (Char.ofNat code, rest) else none
  | none => none

def boundaries : List Char := ['b', 'B', '<', '>']

def anchors : List Char := ['A', 'z']

/-- Letters that stand for control characters. -/
def controls : List (Char × Char) :=
  [('a', '\x07'), ('f', '\x0c'), ('n', '\n'), ('r', '\r'), ('t', '\t'), ('v', '\x0b')]

/-- Reads what follows a backslash. All ASCII characters but letters and digits stand for themselves. -/
def readEscape (flags : Flags) : List Char → Option (Atom × List Char)
  | [] => none
  | 'x' :: cs => (readCodePoint flags 2 cs).map fun (c, rest) => (.byte c, rest)
  | 'u' :: cs => (readCodePoint flags 4 cs).map fun (c, rest) => (.char c, rest)
  | 'U' :: cs => (readCodePoint flags 8 cs).map fun (c, rest) => (.char c, rest)
  | c :: cs =>
    if boundaries.contains c then some (.boundary, cs)
    else if anchors.contains c then some (.anchor, cs)
    else if ['d', 's', 'w'].contains c then some (.named false, cs)
    else if ['D', 'S', 'W'].contains c then some (.named true, cs)
    else
      match controls.lookup c with
      | some control => some (.char control, cs)
      | none => if c.toNat < 128 && !c.isAlphanum then some (.char c, cs) else none

end Atom
end Pattern
end Igmp
