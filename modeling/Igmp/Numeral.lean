/-! Numbers written in digits. -/
namespace Igmp
namespace Numeral

/-- The value of an ASCII digit; letters, in either case, follow on nine. -/
def digitValue? (c : Char) : Option Nat :=
  if '0' ≤ c ∧ c ≤ '9' then some (c.toNat - 48)
  else if 'a' ≤ c ∧ c ≤ 'f' then some (c.toNat - 87)
  else if 'A' ≤ c ∧ c ≤ 'F' then some (c.toNat - 55)
  else none

/-- One more digit of a number in a base up to sixteen. -/
def step? (base n : Nat) (c : Char) : Option Nat :=
  match digitValue? c with
  | some d => if d < base then some (base * n + d) else none
  | none => none

/-- The number that a run of digits spells; leading zeros count for nothing. -/
def value? (base : Nat) (cs : List Char) : Option Nat := cs.foldlM (step? base) 0

/-- The number of values that 64 bits take. -/
def wordLimit : Nat := 18446744073709551616

/-- A number that 64 bits can hold, in at least one digit, which may follow a plus sign. -/
def word? (base : Nat) (cs : List Char) : Option Nat :=
  let digits := match cs with
    | '+' :: digits => digits
    | digits => digits
  if digits = [] then none else (value? base digits).filter (· < wordLimit)

theorem value?_append (base : Nat) (xs : List Char) (c : Char) :
    value? base (xs ++ [c]) = (value? base xs).bind (step? base · c) := by
  simp [value?, List.foldlM_append]

end Numeral
end Igmp
