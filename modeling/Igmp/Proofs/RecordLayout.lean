import Igmp.GroupRecord

/-! # Reading a group record inverts laying it out -/
namespace Igmp

namespace Bytes

/-- Groups of four laid side by side again. -/
theorem flatMap_fours {α : Type} {f : UInt8 → UInt8 → UInt8 → UInt8 → α} {g : α → Bytes}
    (hg : ∀ a b c d, g (f a b c d) = [a, b, c, d]) (n : Nat) (bs : Bytes) (h : bs.length = 4 * n) :
    (fours f bs).flatMap g = bs := by
  induction n generalizing bs with
  | zero =>
    obtain rfl : bs = [] := List.length_eq_zero_iff.1 h
    rfl
  | succ n ih =>
    match bs, h with
    | a :: b :: c :: d :: rest, h =>
      have hrest : rest.length = 4 * n := by
        simp only [List.length_cons] at h
        omega
      rw [fours_cons, List.flatMap_cons, hg, ih rest hrest]
      rfl

theorem fours_length {α : Type} (f : UInt8 → UInt8 → UInt8 → UInt8 → α) (n : Nat) (bs : Bytes)
    (h : bs.length = 4 * n) : (fours f bs).length = n := by
  induction n generalizing bs with
  | zero =>
    obtain rfl : bs = [] := List.length_eq_zero_iff.1 h
    rfl
  | succ n ih =>
    match bs, h with
    | a :: b :: c :: d :: rest, h =>
      have hrest : rest.length = 4 * n := by
        simp only [List.length_cons] at h
        omega
      rw [fours_cons, List.length_cons, ih rest hrest]

theorem not_atLeast_iff (bs : Bytes) (n : Nat) : ¬ bs.atLeast n = true ↔ bs.length < n := by
  rw [atLeast_iff, Nat.not_le]

end Bytes

theorem RecordType.code_of_ofCode? {b : UInt8} {t : RecordType} (h : ofCode? b = some t) :
    t.code = b := by
  unfold ofCode? at h
  grind [code]

namespace GroupRecord

private theorem foldl_size (rs : List GroupRecord) (total : Nat) :
    rs.foldl (fun total r => total + r.size) total = total + totalSize rs := by
  induction rs generalizing total with
  | nil => rfl
  | cons r rs ih =>
    have h : totalSize (r :: rs) = rs.foldl (fun total r => total + r.size) (0 + r.size) := rfl
    rw [List.foldl_cons, ih, h, ih]
    omega

theorem totalSize_cons (r : GroupRecord) (rs : List GroupRecord) :
    totalSize (r :: rs) = r.size + totalSize rs := by
  rw [totalSize, List.foldl_cons, foldl_size, Nat.zero_add]

theorem flatMap_layout_length (rs : List GroupRecord) :
    (rs.flatMap layout).length = totalSize rs := by
  induction rs with
  | nil => rfl
  | cons r rs ih => rw [List.flatMap_cons, List.length_append, ih, layout_length, totalSize_cons]

theorem fault?_eq_none_iff (r : GroupRecord) :
    r.fault? = none ↔ r.sources.length ≤ 65535 ∧ r.auxiliary.length ≤ 255 := by
  unfold fault? maxSources maxAuxiliaryWords
  split
  · simp; omega
  split
  · simp; omega
  · simp; omega

/-- The eight bytes of the header one by one, and what follows them. -/
theorem layout_eq (r : GroupRecord) :
    r.layout = r.type.code :: UInt8.ofNat r.auxiliary.length ::
      UInt8.ofNat ((UInt16.ofNat r.sources.length).toNat / 256) ::
      UInt8.ofNat (UInt16.ofNat r.sources.length).toNat ::
      r.group.a :: r.group.b :: r.group.c :: r.group.d ::
      (r.sources.flatMap Address.octets ++ r.auxiliary.flatMap AuxiliaryWord.bytes) := by
  simp [layout, Bytes.ofWord, Address.octets]

theorem wordAt_layout_append {r : GroupRecord} (h : r.sources.length ≤ 65535) (rest : Bytes) :
    (Bytes.wordAt (r.layout ++ rest) 2).toNat = r.sources.length := by
  rw [layout_eq]
  simp only [Bytes.wordAt, Bytes.byteAt, List.cons_append, List.getD_cons_succ, List.getD_cons_zero,
    Bytes.word_ofWord]
  rw [UInt16.toNat_ofNat']
  omega

theorem byteAt_one_layout_append {r : GroupRecord} (h : r.auxiliary.length ≤ 255) (rest : Bytes) :
    (Bytes.byteAt (r.layout ++ rest) 1).toNat = r.auxiliary.length := by
  rw [layout_eq]
  simp only [Bytes.byteAt, List.cons_append, List.getD_cons_succ, List.getD_cons_zero]
  rw [UInt8.toNat_ofNat']
  omega

theorem declaredSize_layout_append {r : GroupRecord} (h : r.fault? = none) (rest : Bytes) :
    declaredSize (r.layout ++ rest) = r.size := by
  obtain ⟨hs, ha⟩ := (fault?_eq_none_iff r).1 h
  rw [declaredSize, wordAt_layout_append hs, byteAt_one_layout_append ha]
  rfl

/-- The record in a run of bytes that holds it, its type given. -/
def read (type : RecordType) (bs : Bytes) : GroupRecord where
  type
  group := .ofBytes (bs.slice 4 4)
  sources := (bs.slice headerSize (4 * (bs.wordAt 2).toNat)).fours Address.mk
  auxiliary :=
    (bs.slice (headerSize + 4 * (bs.wordAt 2).toNat) (4 * (bs.byteAt 1).toNat)).fours
      AuxiliaryWord.mk

theorem declaredSize?_eq (bs : Bytes) :
    declaredSize? bs = if bs.length < headerSize then none else some (declaredSize bs) := by
  by_cases h : bs.length < headerSize
  · rw [declaredSize?, if_neg ((Bytes.not_atLeast_iff bs headerSize).2 h), if_pos h]
  · have hyes := (Bytes.atLeast_iff bs headerSize).2 (Nat.le_of_not_lt h)
    rw [declaredSize?, if_pos hyes, if_neg h]

/-- What stands in the way of reading a record, in the order in which it is told. -/
theorem decode_eq (bs : Bytes) :
    decode bs =
      if bs.length < headerSize then .error (.truncated headerSize bs.length)
      else if bs.length < declaredSize bs then .error (.truncated (declaredSize bs) bs.length)
      else match RecordType.ofCode? (bs.byteAt 0) with
        | none => .error (.unknownType (bs.byteAt 0))
        | some type => .ok (read type bs) := by
  have haux : declaredSize bs - headerSize - 4 * (bs.wordAt 2).toNat = 4 * (bs.byteAt 1).toNat := by
    rw [declaredSize]
    omega
  rw [decode, declaredSize?_eq]
  by_cases hh : bs.length < headerSize
  · rw [if_pos hh, if_pos hh]
  rw [if_neg hh, if_neg hh]
  by_cases hd : bs.length < declaredSize bs
  · have hno := (Bytes.not_atLeast_iff bs (declaredSize bs)).2 hd
    simp only [if_neg hno, if_pos hd]
  · have hyes := (Bytes.atLeast_iff bs (declaredSize bs)).2 (Nat.le_of_not_lt hd)
    simp only [if_pos hyes, if_neg hd, haux]
    rfl

theorem decode_eq_ok_iff (bs : Bytes) (r : GroupRecord) :
    decode bs = .ok r ↔
      headerSize ≤ bs.length ∧ declaredSize bs ≤ bs.length ∧
        ∃ type, RecordType.ofCode? (bs.byteAt 0) = some type ∧ r = read type bs := by
  rw [decode_eq]
  split
  · simp only [reduceCtorEq, false_iff, not_and]
    omega
  split
  · simp only [reduceCtorEq, false_iff, not_and]
    omega
  · cases RecordType.ofCode? (bs.byteAt 0) with
    | none => simp
    | some type =>
      simp only [Except.ok.injEq, Option.some.injEq]
      constructor
      · rintro rfl
        exact ⟨by omega, by omega, type, rfl, rfl⟩
      · rintro ⟨-, -, _, rfl, rfl⟩
        rfl

/-- Why no record can be read. -/
theorem decode_eq_error_iff (bs : Bytes) (fault : RecordFault) :
    decode bs = .error fault ↔
      if bs.length < headerSize then fault = .truncated headerSize bs.length
      else if bs.length < declaredSize bs then fault = .truncated (declaredSize bs) bs.length
      else RecordType.ofCode? (bs.byteAt 0) = none ∧ fault = .unknownType (bs.byteAt 0) := by
  rw [decode_eq]
  split
  · simp [eq_comm]
  split
  · simp [eq_comm]
  · cases RecordType.ofCode? (bs.byteAt 0) <;> simp [eq_comm]

theorem declaredSize?_layout_append {r : GroupRecord} (h : r.fault? = none) (rest : Bytes) :
    declaredSize? (r.layout ++ rest) = some r.size := by
  have hl : ¬ (r.layout ++ rest).length < headerSize := by
    rw [List.length_append, layout_length, size]
    omega
  rw [declaredSize?_eq, if_neg hl, declaredSize_layout_append h]

theorem read_layout_append {r : GroupRecord} (h : r.fault? = none) (rest : Bytes) :
    read r.type (r.layout ++ rest) = r := by
  obtain ⟨hs, ha⟩ := (fault?_eq_none_iff r).1 h
  have hgroup : Address.ofBytes (Bytes.slice (r.layout ++ rest) 4 4) = r.group := by
    rw [layout_eq]
    rfl
  have hsources : Bytes.slice (r.layout ++ rest) headerSize (4 * r.sources.length) =
      r.sources.flatMap Address.octets := by
    rw [layout_eq]
    simp only [Bytes.slice, headerSize, List.cons_append, List.drop_succ_cons, List.drop_zero,
      List.append_assoc]
    rw [List.take_left' (Address.flatMap_octets_length _)]
  have hauxiliary :
      Bytes.slice (r.layout ++ rest) (headerSize + 4 * r.sources.length) (4 * r.auxiliary.length) =
      r.auxiliary.flatMap AuxiliaryWord.bytes := by
    rw [layout_eq, Bytes.slice, ← List.drop_drop]
    simp only [headerSize, List.cons_append, List.drop_succ_cons, List.drop_zero, List.append_assoc]
    rw [List.drop_left' (Address.flatMap_octets_length _),
      List.take_left' (AuxiliaryWord.flatMap_bytes_length _)]
  have hfours : Bytes.fours Address.mk (r.sources.flatMap Address.octets) = r.sources := by
    simpa using Address.fours_octets r.sources [] (by simp)
  rw [read, hgroup, wordAt_layout_append hs, byteAt_one_layout_append ha, hsources, hauxiliary,
    hfours, AuxiliaryWord.fours_bytes]

/-- A record is read back from its bytes, whatever follows them. -/
theorem decode_layout_append {r : GroupRecord} (h : r.fault? = none) (rest : Bytes) :
    decode (r.layout ++ rest) = .ok r := by
  have hl : (r.layout ++ rest).length = r.size + rest.length := by
    rw [List.length_append, layout_length]
  have hcode : Bytes.byteAt (r.layout ++ rest) 0 = r.type.code := by
    rw [layout_eq]
    rfl
  rw [decode_eq_ok_iff, declaredSize_layout_append h, hl, hcode]
  refine ⟨?_, by omega, r.type, RecordType.ofCode?_code _, (read_layout_append h rest).symm⟩
  rw [size]
  omega

private theorem header_eq {bs : Bytes} (h : 8 ≤ bs.length) :
    [bs.byteAt 0, bs.byteAt 1] ++ Bytes.ofWord (bs.wordAt 2) ++
      (Address.ofBytes (bs.slice 4 4)).octets = bs.take 8 := by
  obtain ⟨n, hn⟩ : ∃ n, bs.length = n + 8 := ⟨bs.length - 8, by omega⟩
  match bs, hn with
  | b₀ :: b₁ :: b₂ :: b₃ :: b₄ :: b₅ :: b₆ :: b₇ :: tail, _ =>
    have hword :
        Bytes.ofWord (Bytes.wordAt (b₀ :: b₁ :: b₂ :: b₃ :: b₄ :: b₅ :: b₆ :: b₇ :: tail) 2) =
          [b₂, b₃] :=
      Bytes.ofWord_word b₂ b₃
    rw [hword]
    rfl

section Read

variable {type : RecordType} {bs : Bytes} (h : declaredSize bs ≤ bs.length)

include h

theorem read_sources_length : (read type bs).sources.length = (bs.wordAt 2).toNat := by
  apply Bytes.fours_length
  rw [Bytes.slice_length]
  rw [declaredSize] at h
  omega

theorem read_auxiliary_length : (read type bs).auxiliary.length = (bs.byteAt 1).toNat := by
  apply Bytes.fours_length
  rw [Bytes.slice_length]
  rw [declaredSize] at h
  omega

theorem read_size : (read type bs).size = declaredSize bs := by
  rw [size, read_sources_length h, read_auxiliary_length h, declaredSize]

theorem read_layout (ht : RecordType.ofCode? (bs.byteAt 0) = some type) :
    (read type bs).layout = bs.take (declaredSize bs) := by
  have hsources : (read type bs).sources.flatMap Address.octets =
      bs.slice headerSize (4 * (bs.wordAt 2).toNat) := by
    apply Bytes.flatMap_fours (fun _ _ _ _ => rfl) (bs.wordAt 2).toNat
    rw [Bytes.slice_length]
    rw [declaredSize] at h
    omega
  have hauxiliary : (read type bs).auxiliary.flatMap AuxiliaryWord.bytes =
      bs.slice (headerSize + 4 * (bs.wordAt 2).toNat) (4 * (bs.byteAt 1).toNat) := by
    apply Bytes.flatMap_fours (fun _ _ _ _ => rfl) (bs.byteAt 1).toNat
    rw [Bytes.slice_length]
    rw [declaredSize] at h
    omega
  have htype : (read type bs).type.code = bs.byteAt 0 := RecordType.code_of_ofCode? ht
  have hgroup : (read type bs).group = Address.ofBytes (bs.slice 4 4) := rfl
  have h8 : 8 ≤ bs.length := by
    rw [declaredSize, headerSize] at h
    omega
  have hheader := header_eq h8
  rw [layout, hsources, hauxiliary, read_sources_length h, read_auxiliary_length h,
    UInt8.ofNat_toNat, UInt16.ofNat_toNat, htype, hgroup, hheader, Bytes.slice, Bytes.slice,
    ← List.drop_drop, declaredSize, List.take_add, List.take_add, ← List.drop_drop, headerSize]

end Read

/-- What is read as a record is the layout of that record. -/
theorem eq_layout_append_of_decode {bs : Bytes} {r : GroupRecord} (h : decode bs = .ok r) :
    r.fault? = none ∧ bs = r.layout ++ bs.drop r.size := by
  obtain ⟨-, hd, type, ht, rfl⟩ := (decode_eq_ok_iff bs r).1 h
  constructor
  · have hw := (bs.wordAt 2).toNat_lt
    have hb := (bs.byteAt 1).toNat_lt
    rw [fault?_eq_none_iff, read_sources_length hd, read_auxiliary_length hd]
    omega
  · rw [read_layout hd ht, read_size hd, List.take_append_drop]

end GroupRecord
end Igmp
