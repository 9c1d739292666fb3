import Igmp.Bytes

/-! IPv4 addresses. -/
namespace Igmp

structure Address where
  a : UInt8
  b : UInt8
  c : UInt8
  d : UInt8
  deriving DecidableEq, Repr

namespace Address

def zero : Address := ⟨0, 0, 0, 0⟩

def octets (x : Address) : Bytes := [x.a, x.b, x.c, x.d]

/-- The address that starts a run of bytes; bytes that are not there count as zero. -/
def ofBytes (bs : Bytes) : Address := ⟨bs.byteAt 0, bs.byteAt 1, bs.byteAt 2, bs.byteAt 3⟩

/-- Four decimal numbers with dots between them. -/
def text (x : Address) : String := ".".intercalate (x.octets.map fun o => toString o.toNat)

theorem ofBytes_octets (x : Address) : ofBytes x.octets = x := rfl

theorem octets_length (x : Address) : x.octets.length = 4 := rfl

theorem flatMap_octets_length (xs : List Address) : (xs.flatMap octets).length = 4 * xs.length := by
  induction xs with
  | nil => rfl
  | cons x xs ih => simp [ih, octets]; omega

/-- Addresses laid side by side are read back one by one. -/
theorem fours_octets (xs : List Address) (rest : Bytes) (h : rest.length < 4) :
    Bytes.fours Address.mk (xs.flatMap octets ++ rest) = xs := by
  induction xs with
  | nil => simpa using Bytes.fours_short Address.mk rest h
  | cons x xs ih => simp [octets, Bytes.fours_cons, ih]

end Address
end Igmp
