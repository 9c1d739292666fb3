import Igmp.HexText
import Igmp.Tokens

/-! Reading the bytes of a frame from a hex dump: rows of an offset and up to sixteen octets, with
further text after them. -/
namespace Igmp

/-- Why a text is no hex dump. Lines are numbered from 1. -/
inductive HexDumpError where
  | invalidOffset (line : Nat) (token : String)
  | unexpectedOffset (line expected found : Nat)
  | missingOctets (line expected found : Nat)
  | empty
  deriving DecidableEq, Repr

def HexDumpError.message : HexDumpError → String
  | invalidOffset line token => s!"line {line}: invalid offset: {token}"
  | unexpectedOffset line expected found =>
    s!"line {line}: expected offset " ++ HexText.number 4 expected ++ ", found " ++ HexText.number 4 found
  | missingOctets line expected found => s!"line {line}: expected {expected} octets, found {found}"
  | empty => "no octets found"

namespace HexDump

/-- A line that holds an offset and octets. -/
structure Row where
  line : Nat
  offset : Nat
  octets : Bytes
  deriving DecidableEq, Repr

def maxOctets : Nat := 16

/-- An offset in hexadecimal digits. Colons at the end do not count. -/
def offset? (token : List Char) : Option Nat :=
  Numeral.word? 16 (token.reverse.dropWhile (· = ':')).reverse

/-- An octet: two hexadecimal digits and nothing else. -/
def octet? : List Char → Option UInt8
  | [hi, lo] => (Numeral.value? 16 [hi, lo]).map UInt8.ofNat
  | _ => none

/-- The octets before the first token that is none. -/
def leadingOctets : List (List Char) → Bytes
  | [] => []
  | token :: tokens =>
    match octet? token with
    | some octet => octet :: leadingOctets tokens
    | none => []

/-- The row of a line that is not blank. -/
def Row.read (line : Nat) (tokens : List (List Char)) : Except HexDumpError Row :=
  let first := tokens.headD []
  match offset? first with
  | some offset => .ok ⟨line, offset, leadingOctets (tokens.tail.take maxOctets)⟩
  | none => .error (.invalidOffset line (String.ofList first))

/-- The rows of a text; blank lines are left out but counted. -/
def rows (text : String) : Except HexDumpError (List Row) :=
  let lines := ((Tokens.lines text.toList).map Tokens.ofText).zipIdx 1
  (lines.filter (·.1 ≠ [])).mapM fun (tokens, line) => Row.read line tokens

/-- The bytes of rows that follow each other. A row ends where the next one starts, whatever octets
are left on it; the last row gives all of its octets. -/
def join : List Row → Except HexDumpError Bytes
  | [] => .ok []
  | [row] => .ok row.octets
  | row :: next :: rest =>
    if next.offset ≤ row.offset then
      .error (.unexpectedOffset next.line (row.offset + row.octets.length) next.offset)
    else if row.octets.length < next.offset - row.offset then
      .error (.missingOctets row.line (next.offset - row.offset) row.octets.length)
    else do
      let bytes ← join (next :: rest)
      .ok (row.octets.take (next.offset - row.offset) ++ bytes)

/-- The rows of a dump start at offset zero. -/
def startsAtZero : List Row → Except HexDumpError Unit
  | [] => .ok ()
  | row :: _ => if row.offset = 0 then .ok () else .error (.unexpectedOffset row.line 0 row.offset)

/-- The bytes of a hex dump. Every line is read before the offsets are compared. -/
def read (text : String) : Except HexDumpError Bytes := do
  let rows ← rows text
  startsAtZero rows
  let bytes ← join rows
  if bytes = [] then .error .empty else .ok bytes

end HexDump
end Igmp
