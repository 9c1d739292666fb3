import Igmp.Bytes
import Igmp.Numeral

/-! Numbers and bytes as hexadecimal text. -/
namespace Igmp
namespace HexText

/-- The lower-case digit of a number below sixteen. -/
def digit (n : Nat) : Char := if n < 10 then Char.ofNat (48 + n) else Char.ofNat (87 + n)

/-- The digits of `n`, most significant first; at least one. -/
def digits (n : Nat) : List Char :=
  if n < 16 then [digit n] else digits (n / 16) ++ [digit (n % 16)]

/-- The text of `n` with `0x` in front, filled up with zeros to `width` digits. -/
def number (width n : Nat) : String :=
  "0x" ++ String.ofList (List.replicate (width - (digits n).length) '0' ++ digits n)

def byte (b : UInt8) : List Char := [digit (b.toNat / 16), digit (b.toNat % 16)]

/-- The bytes as pairs of digits with a space between them. -/
def spaced (bs : Bytes) : String := " ".intercalate (bs.map fun b => String.ofList (byte b))

theorem digitValue?_digit : ∀ n < 16, Numeral.digitValue? (digit n) = some n := by decide

/-- The digits of a number spell that number. -/
theorem value?_digits (n : Nat) : Numeral.value? 16 (digits n) = some n := by
  fun_induction digits n with
  | case1 n h => simp [Numeral.value?, Numeral.step?, digitValue?_digit n h, h]
  | case2 n h ih =>
    rw [Numeral.value?_append, ih, Option.bind_some, Numeral.step?, digitValue?_digit _ (by omega)]
    simp only [Option.ite_none_right_eq_some, Option.some.injEq]
    omega

end HexText
end Igmp
