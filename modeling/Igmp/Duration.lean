/-! Lengths of time to the nanosecond, and their text. -/
namespace Igmp

structure Duration where
  seconds : Nat
  nanos : Nat
  nanos_lt : nanos < 1000000000 := by decide
  deriving DecidableEq, Repr

namespace Duration

def ofSeconds (n : Nat) : Duration := ⟨n, 0, by decide⟩

def ofTenths (n : Nat) : Duration := ⟨n / 10, n % 10 * 100000000, by omega⟩

/-- The greatest number that 64 bits hold. -/
def maxCount : Nat := 18446744073709551615

/-- The number of tenths of a second, where there is nothing finer, as 64 bits count it: the product
stops at the greatest number, and the sum wraps. Where 64 bits hold the exact number, as they do
below 1844674407370955161 seconds, it is that one. Beyond, whole seconds count as the greatest
number, and tenths on top of them start again at zero; where additions are checked for overflow,
there is no result for these. -/
def tenths? (d : Duration) : Option Nat :=
  if d.nanos % 100000000 = 0 then
    some ((min (d.seconds * 10) maxCount + d.nanos / 100000000) % (maxCount + 1))
  else none

/-- The number of seconds, where there is nothing finer. -/
def seconds? (d : Duration) : Option Nat := if d.nanos = 0 then some d.seconds else none

/-- The decimal digits of `value`, filled up with zeros in front to `places` digits, without the
zeros at the end. -/
def fraction (places value : Nat) : List Char :=
  let digits := Nat.toDigits 10 value
  (List.replicate (places - digits.length) '0' ++ digits).reverse.dropWhile (· = '0') |>.reverse

/-- A whole number and a fraction of `places` digits in a unit; no point where the fraction is zero. -/
def decimal (whole places value : Nat) (unit : String) : String :=
  match fraction places value with
  | [] => toString whole ++ unit
  | digits => toString whole ++ "." ++ String.ofList digits ++ unit

/-- The text in the largest unit of which there is at least one: seconds, milliseconds, microseconds,
else nanoseconds. -/
def text (d : Duration) : String :=
  if d.seconds > 0 then decimal d.seconds 9 d.nanos "s"
  else if d.nanos ≥ 1000000 then decimal (d.nanos / 1000000) 6 (d.nanos % 1000000) "ms"
  else if d.nanos ≥ 1000 then decimal (d.nanos / 1000) 3 (d.nanos % 1000) "µs"
  else toString d.nanos ++ "ns"

end Duration
end Igmp
