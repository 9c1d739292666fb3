import Igmp.Bytes

/-! The Internet checksum: the complement of the one's complement sum of 16-bit words, with one
word, the place of the checksum itself, counted as zero. -/
namespace Igmp
namespace Checksum

/-- The sum of the big-endian words; an odd last byte is the high byte of a word. -/
def wordSum (bs : Bytes) : Nat := go 0 bs
where
  go : Nat → Bytes → Nat
    | sum, hi :: lo :: rest => go (sum + (hi.toNat * 256 + lo.toNat)) rest
    | sum, [last] => sum + last.toNat * 256
    | sum, [] => sum

/-- Adds what lies above sixteen bits back in, until nothing does. -/
def fold (sum : Nat) : Nat :=
  if sum < 65536 then sum else fold (sum / 65536 + sum % 65536)
termination_by sum
decreasing_by omega

/-- The checksum with the word at index `skipped` counted as zero. The sum is kept in 32 bits, and a
run without bytes has checksum zero. -/
def skipping (skipped : Nat) (bs : Bytes) : UInt16 :=
  if bs.isEmpty then 0
  else UInt16.ofNat (65535 -
    fold ((wordSum (bs.take (2 * skipped)) + wordSum (bs.drop (2 * skipped + 2))) % 4294967296))

/-- The checksum of an IGMP message, kept in its second word. -/
def ofMessage (bs : Bytes) : UInt16 := skipping 1 bs

/-- The checksum of an IPv4 header, kept in its sixth word. -/
def ofHeader (bs : Bytes) : UInt16 := skipping 5 bs

private theorem go_add (sum more : Nat) (bs : Bytes) :
    wordSum.go (sum + more) bs = sum + wordSum.go more bs := by
  fun_induction wordSum.go more bs with
  | case1 more hi lo rest ih => rw [← ih, wordSum.go, Nat.add_assoc]
  | case2 => simp [wordSum.go, Nat.add_assoc]
  | case3 => simp [wordSum.go]

theorem wordSum_cons (hi lo : UInt8) (rest : Bytes) :
    wordSum (hi :: lo :: rest) = hi.toNat * 256 + lo.toNat + wordSum rest := by
  simpa [wordSum, wordSum.go] using go_add (hi.toNat * 256 + lo.toNat) 0 rest

theorem fold_lt (sum : Nat) : fold sum < 65536 := by
  fun_induction fold sum with
  | case1 sum h => exact h
  | case2 sum h ih => exact ih

end Checksum
end Igmp
