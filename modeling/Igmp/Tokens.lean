/-! Blank characters, and text split at them. -/
namespace Igmp
namespace Tokens

/-- The characters with the Unicode property White_Space. -/
def blanks : List Char :=
  ['\x09', '\x0a', '\x0b', '\x0c', '\x0d', ' ', '\u0085', '\u00a0', '\u1680', '\u2000', '\u2001', '\u2002',
    '\u2003', '\u2004', '\u2005', '\u2006', '\u2007', '\u2008', '\u2009', '\u200a', '\u2028', '\u2029',
    '\u202f', '\u205f', '\u3000']

def isBlank (c : Char) : Bool := blanks.contains c

/-- The pieces between the characters that satisfy `p`, empty ones included. -/
def split (p : Char → Bool) (cs : List Char) : List (List Char) :=
  cs.foldr step [[]]
where
  step (c : Char) (pieces : List (List Char)) : List (List Char) :=
    if p c then [] :: pieces
    else
      match pieces with
      | [] => [[c]]
      | piece :: pieces => (c :: piece) :: pieces

/-- The pieces between line feeds. -/
def lines (cs : List Char) : List (List Char) := split (· = '\n') cs

/-- The pieces between blanks. -/
def ofText (cs : List Char) : List (List Char) := (split isBlank cs).filter (· ≠ [])

theorem split_cons (p : Char → Bool) (c : Char) (cs : List Char) :
    split p (c :: cs) = split.step p c (split p cs) := rfl

theorem split_ne_nil (p : Char → Bool) (cs : List Char) : split p cs ≠ [] := by
  cases cs with
  | nil => simp [split]
  | cons c cs =>
    simp only [split_cons, split.step]
    split
    · simp
    · split <;> simp

/-- Without a separator there is one piece. -/
theorem split_eq_singleton (p : Char → Bool) (cs : List Char) (h : ∀ c ∈ cs, p c = false) :
    split p cs = [cs] := by
  induction cs with
  | nil => rfl
  | cons c cs ih =>
    rw [split_cons, ih fun d hd => h d (by simp [hd])]
    simp [split.step, h c (by simp)]

/-- A separator ends the pieces before it. -/
theorem split_append_cons (p : Char → Bool) (xs ys : List Char) (c : Char) (h : p c = true) :
    split p (xs ++ c :: ys) = split p xs ++ split p ys := by
  induction xs with
  | nil => simp [split.step, h, split]
  | cons x xs ih =>
    simp only [List.cons_append, split_cons, ih, split.step]
    split
    · rfl
    · cases hs : split p xs with
      | nil => exact absurd hs (split_ne_nil p xs)
      | cons piece pieces => rfl

end Tokens
end Igmp
