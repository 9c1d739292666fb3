import Igmp.RecordCursor
import Igmp.Proofs.RecordLayout

/-! # Walks over group records, and where they come to a stop -/
namespace Igmp
open GroupRecord

namespace RecordCursor

theorem next_of_decode_ok {c : RecordCursor} {r : GroupRecord} (hr : c.remaining ≠ 0)
    (hf : c.failed = false) (h : decode c.unread = .ok r) :
    c.next = some (.ok r, ⟨c.unread.drop r.size, c.remaining - 1, false⟩) := by
  simp [next, hr, hf, h]

theorem next_of_decode_error {c : RecordCursor} {fault : RecordFault} (hr : c.remaining ≠ 0)
    (hf : c.failed = false) (h : decode c.unread = .error fault) :
    c.next = some (.error fault, ⟨c.unread, c.remaining - 1, true⟩) := by
  simp [next, hr, hf, h]

theorem items_of_remaining_zero {c : RecordCursor} (h : c.remaining = 0) : c.items = [] :=
  items_of_next_none c (by simp [next, h])

/-- Laid out records are read one by one, whatever follows them. -/
theorem items_layouts {rs : List GroupRecord} (h : ∀ r ∈ rs, r.fault? = none) (rest : Bytes) :
    (start (rs.flatMap layout ++ rest) rs.length).items = rs.map .ok := by
  induction rs with
  | nil => exact items_of_remaining_zero rfl
  | cons r rs ih =>
    have hd : decode ((r :: rs).flatMap layout ++ rest) = .ok r := by
      rw [List.flatMap_cons, List.append_assoc]
      exact decode_layout_append (h r (by simp)) _
    have hdrop : ((r :: rs).flatMap layout ++ rest).drop r.size = rs.flatMap layout ++ rest := by
      rw [List.flatMap_cons, List.append_assoc, List.drop_left' (layout_length r)]
    have hnext := next_of_decode_ok (c := start ((r :: rs).flatMap layout ++ rest) (r :: rs).length)
      (by simp [start]) rfl hd
    rw [items_of_next_some _ _ _ hnext]
    simp only [start, hdrop, List.length_cons, Nat.add_sub_cancel, List.map_cons]
    exact congrArg _ (ih fun r' hr' => h r' (by simp [hr']))

/-- A cursor yields the records `rs` and comes to a stop before `rest`: at the declared number of
records, or at a fault that it tells. -/
structure StopsAt (c : RecordCursor) (rs : List GroupRecord) (rest : Bytes)
    (stop : Option RecordFault) : Prop where
  items_eq : c.items = rs.map .ok ++ (stop.map .error).toList
  unread_eq : c.unread = rs.flatMap layout ++ rest
  valid : ∀ r ∈ rs, r.fault? = none
  complete : stop = none → rs.length = c.remaining
  faulty : ∀ fault, stop = some fault → rs.length < c.remaining ∧ decode rest = .error fault

theorem stopsAt_of_error {c : RecordCursor} {fault : RecordFault} (hr : c.remaining ≠ 0)
    (hf : c.failed = false) (h : decode c.unread = .error fault) :
    c.StopsAt [] c.unread (some fault) where
  items_eq := by
    rw [items_of_next_some _ _ _ (next_of_decode_error hr hf h),
      items_of_next_none _ (by simp [next])]
    rfl
  unread_eq := rfl
  valid := by simp
  complete := nofun
  faulty := by
    rintro _ ⟨⟩
    exact ⟨Nat.pos_of_ne_zero hr, h⟩

theorem StopsAt.cons {c : RecordCursor} {r : GroupRecord} {rs : List GroupRecord} {rest : Bytes}
    {stop : Option RecordFault} (hr : c.remaining ≠ 0) (hf : c.failed = false)
    (h : decode c.unread = .ok r)
    (hstop : StopsAt ⟨c.unread.drop r.size, c.remaining - 1, false⟩ rs rest stop) :
    c.StopsAt (r :: rs) rest stop where
  items_eq := by
    rw [items_of_next_some _ _ _ (next_of_decode_ok hr hf h), hstop.items_eq]
    rfl
  unread_eq := by
    rw [List.flatMap_cons, List.append_assoc, ← hstop.unread_eq]
    exact (eq_layout_append_of_decode h).2
  valid := by
    simpa using ⟨(eq_layout_append_of_decode h).1, hstop.valid⟩
  complete hnone := by
    have hlen := hstop.complete hnone
    simp only [List.length_cons] at hlen ⊢
    omega
  faulty fault hfault := by
    obtain ⟨hlen, hdecode⟩ := hstop.faulty fault hfault
    simp only [List.length_cons] at hlen ⊢
    exact ⟨by omega, hdecode⟩

/-- Every cursor that has not failed yields some records and comes to a stop. -/
theorem exists_stopsAt {c : RecordCursor} (hf : c.failed = false) :
    ∃ rs rest stop, c.StopsAt rs rest stop := by
  obtain ⟨unread, remaining, failed⟩ := c
  obtain rfl : failed = false := hf
  induction remaining generalizing unread with
  | zero =>
    exact ⟨[], unread, none, items_of_remaining_zero rfl, rfl, by simp, fun _ => rfl, nofun⟩
  | succ n ih =>
    cases hd : decode unread with
    | error fault =>
      exact ⟨[], unread, some fault, stopsAt_of_error (Nat.succ_ne_zero n) rfl hd⟩
    | ok r =>
      obtain ⟨rs, rest, stop, hstop⟩ := ih (unread.drop r.size)
      exact ⟨r :: rs, rest, stop, hstop.cons (Nat.succ_ne_zero n) rfl hd⟩

/-- A cursor that never fails passes over the layouts of the records it yields. -/
theorem layouts_of_items {c : RecordCursor} (hf : c.failed = false)
    (h : ∀ item ∈ c.items, ∃ r, item = .ok r) :
    ∃ rs : List GroupRecord, c.items = rs.map .ok ∧ rs.length = c.remaining ∧
      (∀ r ∈ rs, r.fault? = none) ∧ ∃ rest, c.unread = rs.flatMap layout ++ rest := by
  obtain ⟨rs, rest, stop, hstop⟩ := exists_stopsAt hf
  have hitems := hstop.items_eq
  cases stop with
  | none =>
    rw [Option.map_none, Option.toList_none, List.append_nil] at hitems
    exact ⟨rs, hitems, hstop.complete rfl, hstop.valid, rest, hstop.unread_eq⟩
  | some fault =>
    -- The cursor would yield the fault, and the items hold none.
    obtain ⟨r, hr⟩ := h (.error fault) (by rw [hitems]; simp)
    simp at hr

end RecordCursor

namespace GroupRecord

/-- A walk passes over records that were laid out, and goes on behind them. -/
theorem runEnd_layouts_append {rs : List GroupRecord} (h : ∀ r ∈ rs, r.fault? = none)
    (count : Nat) (rest : Bytes) (offset : Nat) :
    runEnd (rs.length + count) (rs.flatMap layout ++ rest) offset =
      runEnd count rest (offset + totalSize rs) := by
  induction rs generalizing offset with
  | nil => rw [List.length_nil, Nat.zero_add]; rfl
  | cons r rs ih =>
    have hsize : declaredSize? ((r :: rs).flatMap layout ++ rest) = some r.size := by
      rw [List.flatMap_cons, List.append_assoc]
      exact declaredSize?_layout_append (h r (by simp)) _
    have hdrop : ((r :: rs).flatMap layout ++ rest).drop r.size = rs.flatMap layout ++ rest := by
      rw [List.flatMap_cons, List.append_assoc, List.drop_left' (layout_length r)]
    rw [List.length_cons, Nat.succ_add, runEnd, hsize]
    simp only [hdrop]
    rw [ih fun r' hr' => h r' (by simp [hr']), totalSize_cons, Nat.add_assoc]

theorem runEnd_layouts {rs : List GroupRecord} (h : ∀ r ∈ rs, r.fault? = none) (rest : Bytes)
    (offset : Nat) : runEnd rs.length (rs.flatMap layout ++ rest) offset = offset + totalSize rs :=
  runEnd_layouts_append h 0 rest offset

end GroupRecord
end Igmp
