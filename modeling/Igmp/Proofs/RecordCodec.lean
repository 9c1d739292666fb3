import Igmp.Proofs.GuardedRecords
import Igmp.Proofs.RefusedEdit

/-! # Group records in bytes, read and written in place -/
namespace Igmp

namespace GroupRecord

theorem encode_eq_ok {r : GroupRecord} (h : r.fault? = none) : r.encode = .ok r.layout := by
  rw [encode, h]

theorem encodeInto_eq_ok {r : GroupRecord} {buffer : Bytes} (hv : r.fault? = none)
    (hfits : r.size ≤ buffer.length) :
    r.encodeInto buffer = .ok (r.size, buffer.patch 0 r.layout) := by
  have hroom := (Edit.require_eq_ok_iff .groupRecord _ _).2 hfits
  simp [encodeInto, encode, hv, hroom, bind, Except.bind]

theorem encode_eq_ok_iff (r : GroupRecord) (bytes : Bytes) :
    r.encode = .ok bytes ↔ r.fault? = none ∧ bytes = r.layout := by
  rw [encode]
  cases r.fault? with
  | none => simp [eq_comm]
  | some fault => simp

/-- The bytes that are read as a record are the ones it is written in, and no others. -/
theorem decode_eq_ok_iff_encode (bs : Bytes) (r : GroupRecord) :
    decode bs = .ok r ↔ r.size ≤ bs.length ∧ r.encode = .ok (bs.take r.size) := by
  rw [encode_eq_ok_iff]
  constructor
  · intro h
    obtain ⟨hvalid, hbs⟩ := eq_layout_append_of_decode h
    have hlen := congrArg List.length hbs
    rw [List.length_append, layout_length] at hlen
    refine ⟨by omega, hvalid, ?_⟩
    rw [hbs, List.take_left' r.layout_length]
  · rintro ⟨-, hvalid, htake⟩
    rw [← List.take_append_drop r.size bs, htake]
    exact decode_layout_append hvalid _

theorem declaredSize_of_decode {bs : Bytes} {r : GroupRecord} (h : decode bs = .ok r) :
    declaredSize bs = r.size := by
  obtain ⟨-, hd, type, -, rfl⟩ := (decode_eq_ok_iff bs r).1 h
  exact (read_size hd).symm

/-- With every slice checked, what is read is the record together with its declared size. -/
theorem guarded_decode_eq_ok_iff (bs : Bytes) (r : GroupRecord) (size : Nat) :
    Guarded.decode bs = .ok (.ok (r, size)) ↔ decode bs = .ok r ∧ declaredSize bs = size := by
  rw [Guarded.decode_eq]
  cases hdecode : decode bs with
  | error fault => simp [Except.map]
  | ok found =>
    simp only [Except.map, Except.ok.injEq, Prod.mk.injEq, declaredSize_of_decode hdecode]

/-- Why no record can be read, as it is told to the caller. -/
theorem mapError_decode_eq_error_iff (bs : Bytes) (cause : CodecError) :
    (decode bs).mapError RecordFault.toCodecError = .error cause ↔
      if bs.length < 8 then cause = .insufficientBuffer .groupRecord 8 bs.length
      else if bs.length < declaredSize bs then
        cause = .insufficientBuffer .groupRecord (declaredSize bs) bs.length
      else RecordType.ofCode? (bs.byteAt 0) = none ∧
        cause = .unknownCode .recordType (bs.byteAt 0) := by
  have htold : (decode bs).mapError RecordFault.toCodecError = .error cause ↔
      ∃ fault, decode bs = .error fault ∧ fault.toCodecError = cause := by
    cases decode bs <;> simp [Except.mapError]
  simp only [htold, decode_eq_error_iff, headerSize]
  by_cases hshort : bs.length < 8
  · simp [if_pos hshort, RecordFault.toCodecError, eq_comm]
  by_cases hcut : bs.length < declaredSize bs
  · simp [if_neg hshort, if_pos hcut, RecordFault.toCodecError, eq_comm]
  · simp [if_neg hshort, if_neg hcut, RecordFault.toCodecError, eq_comm, and_assoc]

/-- Where a record is not written: one of its counts is over its limit, or the buffer is too
short. -/
theorem exists_encodeInto_error {r : GroupRecord} {buffer : Bytes}
    (h : ¬ (r.fault? = none ∧ r.size ≤ buffer.length)) :
    ∃ cause, r.encodeInto buffer = .error cause := by
  rw [encodeInto, encode]
  cases hvalid : r.fault? with
  | some fault => exact ⟨_, rfl⟩
  | none =>
    have hshort : buffer.length < r.size := by simpa [hvalid] using h
    have hroom := (Edit.require_eq_error_iff .groupRecord r.size buffer.length _).2 ⟨hshort, rfl⟩
    exact ⟨_, by rw [hroom]; rfl⟩

end GroupRecord

namespace InPlace

/-- Writing a record over the start of a buffer, field by field, is writing its bytes there. Where
it fails, the buffer is as it was. -/
theorem encode_ofBuffer (r : GroupRecord) (buffer : Bytes) :
    (encode r 0).run (.ofBuffer buffer) =
      match r.encodeInto buffer with
      | .ok (size, after) => .ok size (.ofBuffer after)
      | .error cause => .error (.told (.refused cause)) (.ofBuffer buffer) := by
  have hroom : (roomFrom 0).run (.ofBuffer buffer) = .ok buffer.length (.ofBuffer buffer) :=
    roomFrom_run rfl (Nat.zero_le _)
  rw [GroupRecord.encodeInto, GroupRecord.encode]
  cases hvalid : r.fault? with
  | some fault =>
    rw [encode, run_bind_ok hroom, GroupRecord.encode, hvalid]
    exact run_bind_error (require_error rfl)
  | none =>
    cases hfits : Container.groupRecord.require r.size buffer.length with
    | ok done =>
      have hsize := (Edit.require_eq_ok_iff _ _ _).1 hfits
      rw [encode_run rfl hvalid (by rwa [Nat.zero_add]), Memory.write_ofBuffer]
      · rfl
      · rwa [Nat.zero_add, GroupRecord.layout_length]
    | error cause =>
      have hrequire : (Container.groupRecord.require r.size buffer.length).mapError
          EditError.refused = .error (.refused cause) := by
        rw [hfits]
        rfl
      rw [encode, run_bind_ok hroom, run_bind_ok (require_ok (GroupRecord.mapError_encode hvalid)),
        run_bind_error (require_error hrequire)]
      rfl

end InPlace

namespace GroupRecord

/-- The bytes of a record are what writing it leaves of a buffer of zeros of its size. -/
theorem encode_eq_ok_iff_zeros (r : GroupRecord) (bytes : Bytes) :
    r.encode = .ok bytes ↔
      (InPlace.encode r 0).run (.ofBuffer (List.replicate r.size 0)) =
        .ok r.size (.ofBuffer bytes) := by
  rw [InPlace.encode_ofBuffer]
  cases hvalid : r.fault? with
  | some fault => simp [encodeInto, encode, hvalid, bind, Except.bind]
  | none =>
    have hinto : r.encodeInto (List.replicate r.size 0) =
        .ok (r.size, Bytes.patch (List.replicate r.size 0) 0 r.layout) :=
      encodeInto_eq_ok hvalid (by simp)
    have hpatch : Bytes.patch (List.replicate r.size 0) 0 r.layout = r.layout := by
      rw [Bytes.patch_zero, layout_length, List.drop_of_length_le (by simp), List.append_nil]
    rw [encode_eq_ok hvalid, hinto, hpatch, Except.ok.injEq]
    constructor
    · rintro rfl
      rfl
    · intro h
      exact congrArg Memory.bytes (EStateM.Result.ok.inj h).2

/-- Reading a record is the inverse of writing it. What is read takes as many bytes as its header
declares, and writing it gives these bytes again; no other run of bytes is read as that record.
Writing succeeds for the records whose counts fit and buffers they fit into, and touches nothing
beyond the record, or else nothing at all. Where no record can be read, a header that is cut short
is told before a record that is, and both before the type. -/
theorem decode_inverts_encode :
    (∀ (bs : Bytes) (r : GroupRecord) (size : Nat),
      (Guarded.decode bs = .ok (.ok (r, size)) ↔ decode bs = .ok r ∧ declaredSize bs = size) ∧
      (decode bs = .ok r ∧ declaredSize bs = size ↔
        r.sources.length ≤ 65535 ∧ r.auxiliary.length ≤ 255 ∧ size = r.size ∧ size ≤ bs.length ∧
          r.encode = .ok (bs.take size))) ∧
    (∀ (r : GroupRecord) (buffer : Bytes), r.fault? = none ∧ r.size ≤ buffer.length →
      ∃ bytes, r.encode = .ok bytes ∧ bytes.length = r.size ∧
        r.encodeInto buffer = .ok (r.size, bytes ++ buffer.drop r.size) ∧
        (InPlace.encode r 0).run (.ofBuffer buffer) =
          .ok r.size (.ofBuffer (bytes ++ buffer.drop r.size))) ∧
    (∀ (r : GroupRecord) (buffer : Bytes), ¬ (r.fault? = none ∧ r.size ≤ buffer.length) →
      ∃ cause, r.encodeInto buffer = .error cause ∧
        (InPlace.encode r 0).run (.ofBuffer buffer) =
          .error (.told (.refused cause)) (.ofBuffer buffer)) ∧
    (∀ (r : GroupRecord) (bytes : Bytes), r.encode = .ok bytes ↔
      (InPlace.encode r 0).run (.ofBuffer (List.replicate r.size 0)) =
        .ok r.size (.ofBuffer bytes)) ∧
    ∀ (bs : Bytes) (cause : CodecError),
      (decode bs).mapError RecordFault.toCodecError = .error cause ↔
        if bs.length < 8 then cause = .insufficientBuffer .groupRecord 8 bs.length
        else if bs.length < declaredSize bs then
          cause = .insufficientBuffer .groupRecord (declaredSize bs) bs.length
        else RecordType.ofCode? (bs.byteAt 0) = none ∧
          cause = .unknownCode .recordType (bs.byteAt 0) := by
  refine ⟨?_, ?_, ?_, ?_, ?_⟩
  · intro bs r size
    refine ⟨guarded_decode_eq_ok_iff bs r size, ?_⟩
    constructor
    · rintro ⟨hdecode, rfl⟩
      obtain ⟨hvalid, -⟩ := eq_layout_append_of_decode hdecode
      obtain ⟨hfits, hencode⟩ := (decode_eq_ok_iff_encode bs r).1 hdecode
      obtain ⟨hsources, hauxiliary⟩ := (fault?_eq_none_iff r).1 hvalid
      rw [declaredSize_of_decode hdecode]
      exact ⟨hsources, hauxiliary, rfl, hfits, hencode⟩
    · rintro ⟨-, -, rfl, hfits, hencode⟩
      have hdecode := (decode_eq_ok_iff_encode bs r).2 ⟨hfits, hencode⟩
      exact ⟨hdecode, declaredSize_of_decode hdecode⟩
  · rintro r buffer ⟨hvalid, hfits⟩
    have hrun := InPlace.encode_ofBuffer r buffer
    have hinto := encodeInto_eq_ok hvalid hfits
    rw [Bytes.patch_zero, layout_length] at hinto
    rw [hinto] at hrun
    exact ⟨r.layout, encode_eq_ok hvalid, r.layout_length, hinto, hrun⟩
  · intro r buffer h
    obtain ⟨cause, hinto⟩ := exists_encodeInto_error h
    have hrun := InPlace.encode_ofBuffer r buffer
    rw [hinto] at hrun
    exact ⟨cause, hinto, hrun⟩
  · exact encode_eq_ok_iff_zeros
  · exact mapError_decode_eq_error_iff

end GroupRecord
end Igmp
