import Igmp.Shell.Letters
import Igmp.Shell.Pattern.Bracket

/-! Which text patterns are valid: their groups, branches and repetitions. -/
namespace Igmp

/-- Why a text is no pattern that can be matched. -/
inductive PatternFault where
  | malformed
  /-- A boundary between words of any script, where none is decided on. -/
  | wordBoundary
  deriving DecidableEq, Repr

namespace Pattern

/-- An open group, or the pattern as a whole: how deep its items since the last bar and its branches before
that are nested. Settings of flags have no depth, for they cannot be repeated. -/
structure Group where
  flags : Flags
  items : List (Option Nat)
  branches : List Nat
  deriving DecidableEq, Repr

namespace Group

def empty (flags : Flags) : Group := ⟨flags, [], []⟩

def push (g : Group) (depth : Nat) : Group := { g with items := some depth :: g.items }

def setFlags (g : Group) (flags : Flags) : Group := { g with flags, items := none :: g.items }

def branchDepth (g : Group) : Nat := joinedDepth (g.items.map (·.getD 0))

/-- Ends a branch at a bar. -/
def endBranch (g : Group) : Group := { g with items := [], branches := g.branchDepth :: g.branches }

def depth (g : Group) : Nat := joinedDepth (g.branchDepth :: g.branches)

/-- Repeats the last item. -/
def repeatLast (g : Group) : Option Group :=
  match g.items with
  | some depth :: items => some { g with items := some (depth + 1) :: items }
  | _ => none

end Group

/-- A pattern as far as it has been read: its groups, from the inside out, and their names. -/
structure Reading where
  group : Group
  outer : List Group
  names : List (List Char)
  usesBoundary : Bool
  deriving DecidableEq, Repr

namespace Reading

def start : Reading := ⟨.empty .initial, [], [], false⟩

def openGroup (p : Reading) (flags : Flags) : Reading :=
  { p with group := .empty flags, outer := p.group :: p.outer }

def closeGroup (p : Reading) : Option Reading :=
  match p.outer with
  | [] => none
  | parent :: outer => some { p with group := parent.push (1 + p.group.depth), outer }

def pushAtom (p : Reading) (atom : Atom) : Option Reading :=
  if atom.isValid p.group.flags then
    some { p with
      group := p.group.push 0
      usesBoundary := p.usesBoundary || (atom = .boundary && p.group.flags.unicode) }
  else none

/-- Whether a text names a group: it starts with a letter or an underscore, and goes on with these, digits,
points and brackets. -/
def isGroupName : List Char → Bool
  | [] => false
  | c :: cs =>
    (c = '_' || Letters.isAlphabetic c) &&
      cs.all fun c => ['_', '.', '[', ']'].contains c || Letters.isAlphanumeric c

/-- Opens a group by its name, which ends before an angle bracket. No two groups have the same name. -/
def openNamedGroup (p : Reading) (cs : List Char) : Option (Reading × List Char) :=
  let name := cs.takeWhile (· ≠ '>')
  match cs.dropWhile (· ≠ '>') with
  | '>' :: rest =>
    if isGroupName name && !p.names.contains name then
      some ({ p.openGroup p.group.flags with names := name :: p.names }, rest)
    else none
  | _ => none

/-- Reads flags after a question mark. They are those of a new group, or of the rest of the open one. -/
def readFlags (p : Reading) (cs : List Char) : Option (Reading × List Char) :=
  match p.group.flags.read true [] cs with
  | some (flags, seen, last, rest) =>
    if last = ':' then some (p.openGroup flags, rest)
    else if seen = [] then none
    else some ({ p with group := p.group.setFlags flags }, rest)
  | none => none

/-- Reads what follows an opening parenthesis. A pattern cannot look ahead or behind. -/
def readGroup (p : Reading) (cs : List Char) : Option (Reading × List Char) :=
  match p.group.flags.skip cs with
  | '?' :: '=' :: _ | '?' :: '!' :: _ | '?' :: '<' :: '=' :: _ | '?' :: '<' :: '!' :: _ => none
  | '?' :: 'P' :: '<' :: rest | '?' :: '<' :: rest => p.openNamedGroup rest
  | '?' :: rest => p.readFlags rest
  | rest => some (p.openGroup p.group.flags, rest)

/-- What is left after a repetition: a question mark that follows makes it reluctant. -/
def dropReluctant : List Char → List Char
  | '?' :: rest => rest
  | rest => rest

/-- Reads the part of a pattern that a character begins. No repetition is counted. -/
def step (p : Reading) (c : Char) (rest : List Char) : Option (Reading × List Char) :=
  match c with
  | '(' => p.readGroup rest
  | ')' => p.closeGroup.map fun p => (p, rest)
  | '|' => some ({ p with group := p.group.endBranch }, rest)
  | '[' => (Bracket.read p.group.flags rest).map fun (depth, rest) => ({ p with group := p.group.push depth }, rest)
  | '?' | '*' | '+' => p.group.repeatLast.map fun group => ({ p with group }, dropReluctant rest)
  | '{' => none
  | '^' | '$' => (p.pushAtom .anchor).map fun p => (p, rest)
  | '.' => if p.group.flags.unicode then some ({ p with group := p.group.push 0 }, rest) else none
  | '\\' =>
    match Atom.readEscape p.group.flags rest with
    | some (atom, rest) => (p.pushAtom atom).map fun p => (p, rest)
    | none => none
  | c => (p.pushAtom (.char c)).map fun p => (p, rest)

/-- Reads a pattern to its end. Every step reads a character, so that as many steps as there are characters
suffice. -/
def readAll : Nat → Reading → List Char → Option Reading
  | 0, p, _ => some p
  | steps + 1, p, cs =>
    match p.group.flags.skip cs with
    | [] => some p
    | c :: rest =>
      match p.step c rest with
      | some (p, rest) => readAll steps p rest
      | none => none

/-- Whether all groups are closed, and none is nested too deep. -/
def isWhole (p : Reading) : Bool := p.outer.isEmpty && p.group.depth ≤ 250

end Reading

/-- A fault of form counts before a boundary that cannot be matched. -/
def check (pattern : List Char) : Except PatternFault Unit :=
  match Reading.readAll pattern.length .start pattern with
  | some p =>
    if !p.isWhole then .error .malformed
    else if p.usesBoundary then .error .wordBoundary
    else .ok ()
  | none => .error .malformed

end Pattern

def PatternFault.message : PatternFault → String
  | malformed => "error building NFA"
  | wordBoundary =>
    "unsupported regex feature for DFAs: cannot build DFAs for regexes with Unicode word boundaries; " ++
      "switch to ASCII word boundaries, or heuristically enable Unicode word boundaries " ++
      "or use a different regex engine"

end Igmp
