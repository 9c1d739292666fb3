/-! Runs of bytes: slices, overwriting in place, groups of four and big-endian words. -/
namespace Igmp

abbrev Bytes := List UInt8

namespace Bytes

/-- The `width` bytes from `offset` on, or as many of them as there are. -/
def slice (bs : Bytes) (offset width : Nat) : Bytes := (bs.drop offset).take width

/-- The run with `new` written over its bytes from `offset` on; the length is kept where `new` fits. -/
def patch (bs : Bytes) (offset : Nat) (new : Bytes) : Bytes :=
  bs.take offset ++ (new ++ bs.drop (offset + new.length))

/-- Whether the run holds `n` bytes or more, found without going past the first `n`. -/
def atLeast : Bytes → Nat → Bool
  | _, 0 => true
  | [], _ + 1 => false
  | _ :: bs, n + 1 => atLeast bs n

/-- The byte at `i`, zero past the end. -/
def byteAt (bs : Bytes) (i : Nat) : UInt8 := bs.getD i 0

/-- A big-endian word. -/
def word (hi lo : UInt8) : UInt16 := UInt16.ofNat (hi.toNat * 256 + lo.toNat)

/-- The big-endian word at `i`. -/
def wordAt (bs : Bytes) (i : Nat) : UInt16 := word (bs.byteAt i) (bs.byteAt (i + 1))

def ofWord (v : UInt16) : Bytes := [UInt8.ofNat (v.toNat / 256), UInt8.ofNat v.toNat]

/-- The groups of four consecutive bytes, in order; one to three bytes left over form no group. -/
def fours {α : Type} (f : UInt8 → UInt8 → UInt8 → UInt8 → α) (bs : Bytes) : List α :=
  collect bs []
where
  collect : Bytes → List α → List α
    | a :: b :: c :: d :: rest, done => collect rest (f a b c d :: done)
    | _, done => done.reverse

theorem atLeast_iff (bs : Bytes) (n : Nat) : bs.atLeast n = true ↔ n ≤ bs.length := by
  induction bs generalizing n with
  | nil => cases n <;> simp [atLeast]
  | cons b bs ih => cases n <;> simp [atLeast, ih]

theorem slice_length (bs : Bytes) (offset width : Nat) :
    (bs.slice offset width).length = min width (bs.length - offset) := by
  simp [slice]

theorem patch_length (bs : Bytes) (offset : Nat) (new : Bytes) (h : offset + new.length ≤ bs.length) :
    (bs.patch offset new).length = bs.length := by
  simp [patch]; omega

/-- What was written is read back. -/
theorem slice_patch (bs : Bytes) (offset : Nat) (new : Bytes) (h : offset ≤ bs.length) :
    (bs.patch offset new).slice offset new.length = new := by
  have hl : (bs.take offset).length = offset := by simp; omega
  simp only [slice, patch]
  rw [List.drop_left' hl, List.take_left' rfl]

theorem word_ofWord (v : UInt16) :
    word (UInt8.ofNat (v.toNat / 256)) (UInt8.ofNat v.toNat) = v := by
  have h := v.toNat_lt
  apply UInt16.toNat_inj.mp
  simp [word]
  omega

theorem ofWord_length (v : UInt16) : (ofWord v).length = 2 := rfl

theorem ofWord_word (hi lo : UInt8) : ofWord (word hi lo) = [hi, lo] := by
  have h := hi.toNat_lt
  have h' := lo.toNat_lt
  simp only [ofWord, word, List.cons.injEq, and_true]
  constructor
  · apply UInt8.toNat_inj.mp
    simp
    omega
  · apply UInt8.toNat_inj.mp
    simp

private theorem collect_append {α : Type} (f : UInt8 → UInt8 → UInt8 → UInt8 → α) (bs : Bytes)
    (done before : List α) :
    fours.collect f bs (done ++ before) = before.reverse ++ fours.collect f bs done := by
  fun_induction fours.collect f bs done with
  | case1 a b c d rest done ih => simpa [fours.collect] using ih
  | case2 bs done h => simp [fours.collect]

theorem fours_cons {α : Type} (f : UInt8 → UInt8 → UInt8 → UInt8 → α) (a b c d : UInt8) (rest : Bytes) :
    fours f (a :: b :: c :: d :: rest) = f a b c d :: fours f rest := by
  simpa [fours, fours.collect] using collect_append f rest [] [f a b c d]

theorem fours_short {α : Type} (f : UInt8 → UInt8 → UInt8 → UInt8 → α) (bs : Bytes) (h : bs.length < 4) :
    fours f bs = [] := by
  match bs, h with
  | [], _ | [_], _ | [_, _], _ | [_, _, _], _ => rfl

end Bytes
end Igmp
