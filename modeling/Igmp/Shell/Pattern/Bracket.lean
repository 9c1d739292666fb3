import Igmp.Shell.Pattern.Atom

/-! Classes of characters in brackets: their nesting, ranges, named ASCII classes and set operations. -/
namespace Igmp
namespace Pattern

/-- How deep some parts taken together are nested: a single one adds nothing to its own depth. -/
def joinedDepth : List Nat → Nat
  | [] => 0
  | [depth] => depth
  | depths => 1 + depths.foldl max 0

/-- A bracket that is open: how deep the items since it or since the last operation in it are nested, and
the set to which that operation is applied. Before any other item, dashes stand for themselves. -/
structure Bracket where
  atStart : Bool
  items : List Nat
  left : Option Nat
  deriving DecidableEq, Repr

namespace Bracket

def asciiNames : List String :=
  ["alnum", "alpha", "ascii", "blank", "cntrl", "digit", "graph", "lower", "print", "punct", "space", "upper",
    "word", "xdigit"]

def empty : Bracket := ⟨true, [], none⟩

/-- Reads the start of a bracket, after the bracket itself. Where bytes are matched, the complement of a
class is no class, since it has bytes in it that are not ASCII. -/
def readStart (flags : Flags) (cs : List Char) : Option (Bracket × List Char) :=
  match flags.skip cs with
  | '^' :: cs => if flags.unicode then some (empty, cs) else none
  | cs => some (empty, cs)

def push (b : Bracket) (depth : Nat) : Bracket := { b with atStart := false, items := depth :: b.items }

/-- How deep the set of the items, and of the operation before them, is nested. -/
def depth (b : Bracket) : Nat :=
  match b.left with
  | none => joinedDepth b.items
  | some left => 1 + max left (joinedDepth b.items)

/-- Whether two characters stand for the intersection, the difference or the symmetric difference of sets. -/
def isOperation (c : Char) (next : Option Char) : Bool := ['&', '-', '~'].contains c && next = some c

/-- The bracket after an operation between sets. -/
def applyOperation (b : Bracket) : Bracket := ⟨false, [], some b.depth⟩

/-- A named ASCII class, after its opening bracket: whether it is negated, and what follows it. -/
def readAsciiName (cs : List Char) : Option (Bool × List Char) :=
  match cs with
  | ':' :: cs =>
    let (negated, cs) := match cs with
      | '^' :: cs => (true, cs)
      | cs => (false, cs)
    match cs.dropWhile (· ≠ ':') with
    | ':' :: ']' :: rest =>
      if asciiNames.contains (String.ofList (cs.takeWhile (· ≠ ':'))) then some (negated, rest) else none
    | _ => none
  | _ => none

/-- The character after a dash, which tells whether the dash makes a range. In verbose patterns blanks do
not count, nor does a number sign among them. -/
def afterDash (flags : Flags) (cs : List Char) : Option Char :=
  if flags.verbose then
    match cs.dropWhile Tokens.isBlank with
    | '#' :: cs => (cs.dropWhile Tokens.isBlank).head?
    | cs => cs.head?
  else cs.head?

def readAtom (flags : Flags) : List Char → Option (Atom × List Char)
  | [] => none
  | '\\' :: cs => Atom.readEscape flags cs
  | c :: cs => some (.char c, cs)

/-- Reads an atom or a range of characters, the first of which must not come after the last. -/
def readRange (flags : Flags) (cs : List Char) : Option (List Char) := do
  let (first, rest) ← readAtom flags cs
  if first.isValidInBracket flags then
    match flags.skip rest with
    | '-' :: more =>
      if afterDash flags more = some ']' ∨ afterDash flags more = some '-' then some rest
      else
        let (last, rest) ← readAtom flags (flags.skip more)
        let lower ← first.char?
        let upper ← last.char?
        if last.isValidInBracket flags ∧ lower ≤ upper then some rest else none
    | _ => some rest
  else none

/-- Reads the next part of a bracket, with the brackets around it. Without any bracket left, the depth of
the class is told. -/
def step (flags : Flags) (b : Bracket) (outer : List Bracket) (cs : List Char) :
    Option ((Nat ⊕ (Bracket × List Bracket)) × List Char) :=
  match flags.skip cs with
  | [] => none
  | c :: rest =>
    if b.atStart ∧ (c = '-' ∨ (c = ']' ∧ b.items = [])) then
      if Atom.isValidInBracket flags (.char c) then
        some (.inr ({ b.push 0 with atStart := c = '-' }, outer), rest)
      else none
    else if c = '[' then
      match readAsciiName rest with
      | some (negated, rest) =>
        if (if flags.unicode then flags.ignoreCase else negated) then none
        else some (.inr (b.push 0, outer), rest)
      | none =>
        match readStart flags rest with
        | some (inner, rest) => some (.inr (inner, b :: outer), rest)
        | none => none
    else if c = ']' then
      match outer with
      | [] => some (.inl (1 + b.depth), rest)
      | parent :: outer => some (.inr (parent.push (1 + b.depth), outer), rest)
    else if isOperation c rest.head? then some (.inr (b.applyOperation, outer), rest.tail)
    else (readRange flags (c :: rest)).map fun rest => (.inr (b.push 0, outer), rest)

/-- Reads a class to its last bracket. Every step reads a character, so that as many steps as there are
characters suffice. -/
def readAll (flags : Flags) : Nat → Bracket → List Bracket → List Char → Option (Nat × List Char)
  | 0, _, _, _ => none
  | steps + 1, b, outer, cs =>
    match step flags b outer cs with
    | none => none
    | some (.inl depth, rest) => some (depth, rest)
    | some (.inr (b, outer), rest) => readAll flags steps b outer rest

/-- Reads a class after its opening bracket: its depth, and what follows it. -/
def read (flags : Flags) (cs : List Char) : Option (Nat × List Char) :=
  match readStart flags cs with
  | some (b, rest) => readAll flags cs.length b [] rest
  | none => none

end Bracket
end Pattern
end Igmp
