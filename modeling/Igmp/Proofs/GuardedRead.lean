import Igmp.Field
import Igmp.Proofs.ByteOverlay

/-! # Reads that fail outside of the bytes they are from -/
namespace Igmp

/-- Why a read has no result: an index past the end, a range that does not lie in the bytes, or
bounds for an offset that contradict each other. -/
inductive BoundsFault where
  | index (index length : Nat)
  | range (start stop length : Nat)
  | clamp (low high : Nat)
  deriving DecidableEq, Repr

/-- The result of a computation of which every read is checked. -/
abbrev Guarded := Except BoundsFault

namespace Guarded

@[simp]
theorem ok_bind {ε α β : Type} (a : α) (f : α → Except ε β) :
    ((.ok a : Except ε α) >>= f) = f a := rfl

@[simp]
theorem mapError_ok {ε ε' α : Type} (f : ε → ε') (a : α) :
    (.ok a : Except ε α).mapError f = .ok a := rfl

theorem bind_eq_ok_iff {ε α β : Type} {x : Except ε α} {f : α → Except ε β} {b : β} :
    (x >>= f) = .ok b ↔ ∃ a, x = .ok a ∧ f a = .ok b := by
  constructor
  · intro h
    cases x with
    | error e => cases h
    | ok a => exact ⟨a, rfl, h⟩
  · rintro ⟨a, rfl, h⟩
    exact h

theorem map_eq_ok_iff {ε α β : Type} {f : α → β} {x : Except ε α} {b : β} :
    x.map f = .ok b ↔ ∃ a, x = .ok a ∧ f a = b := by
  constructor
  · intro h
    cases x with
    | error e => cases h
    | ok a => exact ⟨a, rfl, Except.ok.inj h⟩
  · rintro ⟨a, rfl, rfl⟩
    rfl

theorem mapError_eq_ok_iff {ε ε' α : Type} {f : ε → ε'} {x : Except ε α} {a : α} :
    x.mapError f = .ok a ↔ x = .ok a := by
  constructor
  · intro h
    cases x with
    | error e => cases h
    | ok a' =>
      cases h
      rfl
  · rintro rfl
    rfl

/-- A result with a value is known by it, also where errors cannot be told apart by deciding. -/
theorem eq_ok_of_toOption {ε α : Type} {x : Except ε α} {a : α} (h : x.toOption = some a) :
    x = .ok a := by
  cases x with
  | error e => cases h
  | ok a' => exact congrArg Except.ok (Option.some.inj h)

def byteAt (bs : Bytes) (i : Nat) : Guarded UInt8 :=
  if i < bs.length then .ok (bs.byteAt i) else .error (.index i bs.length)

/-- The bytes from `start` on and before `stop`. -/
def range (bs : Bytes) (start stop : Nat) : Guarded Bytes :=
  if start ≤ stop ∧ stop ≤ bs.length then .ok (bs.slice start (stop - start))
  else .error (.range start stop bs.length)

def clamp (low high value : Nat) : Guarded Nat :=
  if low ≤ high then .ok (min high (max low value)) else .error (.clamp low high)

/-- Bytes that are read one by one. -/
def window (bs : Bytes) (offset : Nat) : Nat → Guarded Bytes
  | 0 => .ok []
  | width + 1 => do
    let b ← byteAt bs offset
    let rest ← window bs (offset + 1) width
    .ok (b :: rest)

def word (bs : Bytes) (offset : Nat) : Guarded UInt16 := do
  let hi ← byteAt bs offset
  let lo ← byteAt bs (offset + 1)
  .ok (Bytes.word hi lo)

def field {α : Type} (f : Field α) (region : Bytes) : Guarded α := do
  let bytes ← window region f.offset f.width
  .ok (f.decode bytes)

section Bounds

variable {bs : Bytes}

theorem byteAt_eq {i : Nat} (h : i < bs.length) : byteAt bs i = .ok (bs.byteAt i) := if_pos h

theorem range_eq {start stop : Nat} (h : start ≤ stop) (h' : stop ≤ bs.length) :
    range bs start stop = .ok (bs.slice start (stop - start)) := if_pos ⟨h, h'⟩

theorem range_from {start : Nat} (h : start ≤ bs.length) :
    range bs start bs.length = .ok (bs.drop start) := by
  rw [range_eq h (Nat.le_refl _), Bytes.slice,
    List.take_of_length_le (Nat.le_of_eq List.length_drop)]

theorem range_to {stop : Nat} (h : stop ≤ bs.length) : range bs 0 stop = .ok (bs.take stop) :=
  range_eq (Nat.zero_le _) h

theorem clamp_eq {low high : Nat} (h : low ≤ high) (value : Nat) :
    clamp low high value = .ok (min high (max low value)) := if_pos h

theorem window_eq {offset width : Nat} (h : offset + width ≤ bs.length) :
    window bs offset width = .ok (bs.slice offset width) := by
  induction width generalizing offset with
  | zero => simp [window, Bytes.slice]
  | succ width ih =>
    have hslice : bs.slice offset (width + 1) =
        bs.byteAt offset :: bs.slice (offset + 1) width := by
      rw [Bytes.slice, Bytes.slice, List.drop_eq_getElem_cons (by omega), List.take_succ_cons,
        Bytes.byteAt_eq_getElem]
    rw [window, byteAt_eq (by omega), ok_bind, ih (by omega), ok_bind, hslice]

theorem word_eq {offset : Nat} (h : offset + 2 ≤ bs.length) :
    word bs offset = .ok (bs.wordAt offset) := by
  rw [word, byteAt_eq (by omega), ok_bind, byteAt_eq (by omega), ok_bind]
  rfl

theorem field_eq {α : Type} {f : Field α} (h : f.offset + f.width ≤ bs.length) :
    field f bs = .ok (f.get bs) := by
  rw [field, window_eq h, ok_bind]
  rfl

end Bounds

end Guarded
end Igmp
