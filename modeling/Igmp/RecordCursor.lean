import Igmp.GroupRecord

/-! Walking a run of group records. -/
namespace Igmp

/-- A place in a run of records: the bytes not yet read, the number of records still declared, and
whether a record could not be read. -/
structure RecordCursor where
  unread : Bytes
  remaining : Nat
  failed : Bool
  deriving DecidableEq, Repr

namespace RecordCursor

def start (bs : Bytes) (count : Nat) : RecordCursor := ⟨bs, count, false⟩

/-- The next record, or the reason why it cannot be read; nothing after the declared number of
records and after a failure. -/
def next (c : RecordCursor) : Option (Except RecordFault GroupRecord × RecordCursor) :=
  if c.remaining = 0 ∨ c.failed then none
  else
    match GroupRecord.decode c.unread with
    | .ok record => some (.ok record, ⟨c.unread.drop record.size, c.remaining - 1, false⟩)
    | .error fault => some (.error fault, ⟨c.unread, c.remaining - 1, true⟩)

/-- At least how many items are still to come. -/
def lowerBound (_ : RecordCursor) : Nat := 0

/-- At most how many items are still to come. -/
def upperBound (c : RecordCursor) : Nat := if c.failed then 0 else c.remaining

/-- All items still to come. -/
def items (c : RecordCursor) : List (Except RecordFault GroupRecord) := collect c.remaining c []
where
  collect : Nat → RecordCursor → List (Except RecordFault GroupRecord) →
      List (Except RecordFault GroupRecord)
    | 0, _, done => done.reverse
    | n + 1, c, done =>
      match c.next with
      | none => done.reverse
      | some (item, rest) => collect n rest (item :: done)

theorem remaining_of_next (c rest : RecordCursor) (item : Except RecordFault GroupRecord)
    (h : c.next = some (item, rest)) : c.remaining = rest.remaining + 1 := by
  simp only [next] at h
  split at h
  · simp at h
  · rename_i hc
    split at h <;> simp only [Option.some.injEq, Prod.mk.injEq] at h <;> obtain ⟨rfl, rfl⟩ := h <;>
      simp only [not_or] at hc ⊢ <;> omega

private theorem items_collect (n : Nat) (c : RecordCursor) (done : List (Except RecordFault GroupRecord)) :
    items.collect n c done = done.reverse ++ items.collect n c [] := by
  induction n generalizing c done with
  | zero => simp [items.collect]
  | succ n ih =>
    simp only [items.collect]
    cases c.next with
    | none => simp
    | some step =>
      obtain ⟨item, rest⟩ := step
      simp only
      rw [ih rest (item :: done), ih rest [item]]
      simp

theorem items_of_next_none (c : RecordCursor) (h : c.next = none) : c.items = [] := by
  cases hn : c.remaining <;> simp [items, hn, items.collect, h]

theorem items_of_next_some (c rest : RecordCursor) (item : Except RecordFault GroupRecord)
    (h : c.next = some (item, rest)) : c.items = item :: rest.items := by
  simp only [items, remaining_of_next c rest item h, items.collect, h]
  simpa using items_collect rest.remaining rest [item]

end RecordCursor

/-- Where a run of records ends, by the declared sizes alone: after `count` records, or before the
first header that is cut short. The place may lie beyond the end of the bytes. -/
def GroupRecord.runEnd : Nat → Bytes → Nat → Nat
  | 0, _, offset => offset
  | count + 1, bs, offset =>
    match declaredSize? bs with
    | none => offset
    | some size => runEnd count (bs.drop size) (offset + size)

end Igmp
