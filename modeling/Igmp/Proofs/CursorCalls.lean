import Igmp.Proofs.RecordCodec
import Igmp.Proofs.RecordWalk

/-! # A cursor over group records, called any number of times -/
namespace Igmp
open GroupRecord

namespace RecordCursor

/-- The answer to one call, and the cursor it leaves; a cursor without a next item stays as it
is. -/
def call (c : RecordCursor) : Option (Except RecordFault GroupRecord) × RecordCursor :=
  match c.next with
  | none => (none, c)
  | some (item, rest) => (some item, rest)

/-- The answers to `n` calls in a row, and the cursor they leave. -/
def calls : Nat → RecordCursor → List (Option (Except RecordFault GroupRecord)) × RecordCursor
  | 0, c => ([], c)
  | n + 1, c => (c.call.1 :: (calls n c.call.2).1, (calls n c.call.2).2)

variable {c rest : RecordCursor} {item : Except RecordFault GroupRecord}

theorem call_of_next_none (h : c.next = none) : c.call = (none, c) := by
  rw [call, h]

theorem call_of_next_some (h : c.next = some (item, rest)) : c.call = (some item, rest) := by
  rw [call, h]

theorem calls_succ_of_next_some (h : c.next = some (item, rest)) (n : Nat) :
    calls (n + 1) c = (some item :: (calls n rest).1, (calls n rest).2) := by
  rw [calls, call_of_next_some h]

/-- A cursor that has no next item never has one again. -/
theorem calls_of_next_none (h : c.next = none) (n : Nat) :
    calls n c = (List.replicate n none, c) := by
  induction n with
  | zero => rfl
  | succ n ih => rw [calls, call_of_next_none h, ih, List.replicate_succ]

/-- Calls are answered by the items in their order, and by nothing after them. -/
theorem calls_answers (n : Nat) (c : RecordCursor) :
    (calls n c).1 = (c.items.take n).map some ++ List.replicate (n - c.items.length) none := by
  induction n generalizing c with
  | zero => simp [calls]
  | succ n ih =>
    cases hnext : c.next with
    | none =>
      rw [calls_of_next_none hnext, items_of_next_none c hnext]
      rfl
    | some step =>
      obtain ⟨item, rest⟩ := step
      rw [calls_succ_of_next_some hnext, items_of_next_some c rest item hnext, ih,
        List.take_succ_cons, List.length_cons, Nat.add_sub_add_right]
      rfl

/-- A cursor that has been called has the items left that were not answered. -/
theorem calls_items (n : Nat) (c : RecordCursor) : (calls n c).2.items = c.items.drop n := by
  induction n generalizing c with
  | zero => rfl
  | succ n ih =>
    cases hnext : c.next with
    | none => rw [calls_of_next_none hnext, items_of_next_none c hnext, List.drop_nil]
    | some step =>
      obtain ⟨item, rest⟩ := step
      rw [calls_succ_of_next_some hnext, items_of_next_some c rest item hnext, ih,
        List.drop_succ_cons]

/-- Where a call was answered by nothing, no items are left. -/
theorem items_of_answer_none {n : Nat} (h : none ∈ (calls n c).1) : (calls n c).2.items = [] := by
  rw [calls_answers, List.mem_append] at h
  rcases h with h | h
  · obtain ⟨item, -, hitem⟩ := List.mem_map.1 h
    cases hitem
  · have hlt : 0 < n - c.items.length := Nat.pos_of_ne_zero (List.mem_replicate.1 h).1
    rw [calls_items]
    exact List.drop_of_length_le (by omega)

/-- There are no more items than the cursor has records left to read. -/
theorem items_length_le_remaining (c : RecordCursor) : c.items.length ≤ c.remaining := by
  induction hn : c.remaining generalizing c with
  | zero => simp [items_of_remaining_zero hn]
  | succ n ih =>
    cases hnext : c.next with
    | none => simp [items_of_next_none c hnext]
    | some step =>
      obtain ⟨item, rest⟩ := step
      have hrest := remaining_of_next c rest item hnext
      rw [items_of_next_some c rest item hnext, List.length_cons]
      exact Nat.succ_le_succ (ih rest (by omega))

theorem items_length_le_upperBound (c : RecordCursor) : c.items.length ≤ c.upperBound := by
  cases hf : c.failed with
  | true =>
    have hnext : c.next = none := by simp [next, hf]
    simp [items_of_next_none c hnext]
  | false => simpa [upperBound, hf] using c.items_length_le_remaining

/-- What `n` calls of a cursor come to: the records `rs`, and the fault `stop` if they run into one.
The bytes of the records and those that the cursor has left make up all of its bytes. -/
structure Yields (n : Nat) (c : RecordCursor) (rs : List GroupRecord)
    (stop : Option RecordFault) : Prop where
  answers_eq : (calls n c).1 = (rs.map Except.ok ++ (stop.map Except.error).toList).map some ++
    List.replicate (n - rs.length - stop.toList.length) none
  unread_eq : c.unread = rs.flatMap layout ++ (calls n c).2.unread
  valid : ∀ r ∈ rs, r.fault? = none
  failed_eq : (calls n c).2.failed = stop.isSome
  complete : stop = none → rs.length = min n c.remaining
  faulty : ∀ fault, stop = some fault →
    rs.length < min n c.remaining ∧ decode (calls n c).2.unread = .error fault

/-- Each record is what can be read where the records before it end. -/
theorem Yields.decode_eq {n : Nat} {rs : List GroupRecord} {stop : Option RecordFault}
    (h : Yields n c rs stop) {front back : List GroupRecord} {r : GroupRecord}
    (hrs : rs = front ++ r :: back) : decode (c.unread.drop (totalSize front)) = .ok r := by
  have hunread : c.unread =
      front.flatMap layout ++ (r.layout ++ (back.flatMap layout ++ (calls n c).2.unread)) := by
    rw [h.unread_eq, hrs, List.flatMap_append, List.flatMap_cons, List.append_assoc,
      List.append_assoc]
  rw [hunread, List.drop_left' (flatMap_layout_length front)]
  exact decode_layout_append (h.valid r (by simp [hrs])) _

theorem yields_nil_of_next_none (hf : c.failed = false) (h : c.next = none) (n : Nat) :
    Yields n c [] none := by
  have hcalls := calls_of_next_none h n
  have hremaining : c.remaining = 0 := by
    by_contra hne
    cases hd : decode c.unread with
    | ok r => simp [next_of_decode_ok hne hf hd] at h
    | error fault => simp [next_of_decode_error hne hf hd] at h
  constructor
  case answers_eq => rw [hcalls]; rfl
  case unread_eq => rw [hcalls]; rfl
  case valid => simp
  case failed_eq => rw [hcalls]; exact hf
  case complete =>
    intro _
    rw [hremaining, Nat.min_zero]
    rfl
  case faulty => nofun

theorem yields_of_error {fault : RecordFault} (hr : c.remaining ≠ 0) (hf : c.failed = false)
    (h : decode c.unread = .error fault) (n : Nat) : Yields (n + 1) c [] (some fault) := by
  have hcalls : calls (n + 1) c =
      (some (.error fault) :: List.replicate n none, ⟨c.unread, c.remaining - 1, true⟩) := by
    rw [calls_succ_of_next_some (next_of_decode_error hr hf h), calls_of_next_none (by simp [next])]
  constructor
  case answers_eq => rw [hcalls]; rfl
  case unread_eq => rw [hcalls]; rfl
  case valid => simp
  case failed_eq => rw [hcalls]; rfl
  case complete =>
    intro hstop
    simp at hstop
  case faulty =>
    rintro _ ⟨⟩
    rw [hcalls]
    refine ⟨?_, h⟩
    rw [List.length_nil]
    omega

theorem Yields.cons {r : GroupRecord} {rs : List GroupRecord} {stop : Option RecordFault} {n : Nat}
    (hr : c.remaining ≠ 0) (hf : c.failed = false) (h : decode c.unread = .ok r)
    (hrest : Yields n ⟨c.unread.drop r.size, c.remaining - 1, false⟩ rs stop) :
    Yields (n + 1) c (r :: rs) stop := by
  have hcalls := calls_succ_of_next_some (next_of_decode_ok hr hf h) n
  constructor
  case answers_eq =>
    rw [hcalls, hrest.answers_eq, List.length_cons, Nat.add_sub_add_right]
    rfl
  case unread_eq =>
    rw [hcalls, List.flatMap_cons, List.append_assoc, ← hrest.unread_eq]
    exact (eq_layout_append_of_decode h).2
  case valid => simpa using ⟨(eq_layout_append_of_decode h).1, hrest.valid⟩
  case failed_eq => rw [hcalls]; exact hrest.failed_eq
  case complete =>
    intro hnone
    have hlen := hrest.complete hnone
    simp only [List.length_cons] at hlen ⊢
    omega
  case faulty =>
    intro fault hfault
    obtain ⟨hlen, hdecode⟩ := hrest.faulty fault hfault
    rw [hcalls]
    simp only [List.length_cons] at hlen ⊢
    exact ⟨by omega, hdecode⟩

/-- However often a cursor is called, it yields records and comes to at most one fault. -/
theorem exists_yields (n : Nat) (hf : c.failed = false) : ∃ rs stop, Yields n c rs stop := by
  induction n generalizing c with
  | zero => exact ⟨[], none, rfl, rfl, by simp, hf, fun _ => by simp, nofun⟩
  | succ n ih =>
    by_cases hr : c.remaining = 0
    · exact ⟨[], none, yields_nil_of_next_none hf (by simp [next, hr]) (n + 1)⟩
    cases hd : decode c.unread with
    | error fault => exact ⟨[], some fault, yields_of_error hr hf hd n⟩
    | ok r =>
      obtain ⟨rs, stop, hrest⟩ := ih (c := ⟨c.unread.drop r.size, c.remaining - 1, false⟩) rfl
      exact ⟨r :: rs, stop, hrest.cons hr hf hd⟩

end RecordCursor

theorem GroupRecord.mapM_encode {rs : List GroupRecord} (h : ∀ r ∈ rs, r.fault? = none) :
    rs.mapM encode = .ok (rs.map layout) := by
  induction rs with
  | nil => rfl
  | cons r rs ih =>
    rw [List.mapM_cons, encode_eq_ok (h r (by simp)), ih fun r' hr' => h r' (by simp [hr'])]
    rfl

namespace RecordCursor

/-- What `n` calls come to of a cursor over any bytes and any declared number of records. The answers
are records, at most one fault and then nothing: a record for each call up to the declared number,
unless there is a fault, and each record is the one to be read behind those before it. The bytes of
the records yielded and the unread ones are the bytes that the cursor was started on. The cursor
that is left has no more items than it tells, none after a fault, and none after an answer of
nothing; what it has, it goes on to answer, and nothing behind that. -/
theorem calls_faithful (bs : Bytes) (count n : Nat) :
    ∃ (rs : List GroupRecord) (stop : Option RecordFault) (c : RecordCursor) (parts : List Bytes),
      calls n (start bs count) =
        ((rs.map Except.ok ++ (stop.map Except.error).toList).map some ++
          List.replicate (n - rs.length - stop.toList.length) none, c) ∧
      (match stop with
        | none => rs.length = min n count
        | some fault => rs.length < min n count ∧ decode c.unread = .error fault) ∧
      (∀ front r back, rs = front ++ r :: back →
        decode (bs.drop (totalSize front)) = .ok r) ∧
      rs.mapM encode = .ok parts ∧ parts.flatten ++ c.unread = bs ∧
      c.lowerBound = 0 ∧ c.items.length ≤ c.upperBound ∧ (stop ≠ none → c.upperBound = 0) ∧
      (none ∈ (calls n (start bs count)).1 → c.items = []) ∧
      ∀ k, (calls k c).1 =
        (c.items.take k).map some ++ List.replicate (k - c.items.length) none := by
  obtain ⟨rs, stop, h⟩ := exists_yields (c := start bs count) n rfl
  refine ⟨rs, stop, (calls n (start bs count)).2, rs.map layout, Prod.ext h.answers_eq rfl,
    ?_, fun front r back hrs => h.decode_eq hrs, mapM_encode h.valid, ?_, rfl, items_length_le_upperBound _, ?_, ?_,
    fun k => calls_answers k _⟩
  · cases stop with
    | none => exact h.complete rfl
    | some fault => exact h.faulty fault rfl
  · rw [← List.flatMap_def]
    exact h.unread_eq.symm
  · intro hstop
    rw [upperBound, h.failed_eq, if_pos (Option.isSome_iff_ne_none.2 hstop)]
  · intro hnone
    exact items_of_answer_none hnone

/-- A record, then one of no known type: the third record declared is not looked for. -/
example :
    let bs : Bytes := [1, 0, 0, 0, 239, 1, 2, 3, 9, 0, 0, 0, 239, 1, 2, 4]
    calls 4 (start bs 3) =
      ([some (.ok ⟨.modeIsInclude, ⟨239, 1, 2, 3⟩, [], []⟩), some (.error (.unknownType 9)), none,
        none], ⟨[9, 0, 0, 0, 239, 1, 2, 4], 1, true⟩) := by
  decide

end RecordCursor
end Igmp
