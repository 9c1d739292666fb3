import Igmp.Proofs.EditRun
import Igmp.Proofs.InPlaceWrite

/-! # Messages made and edited in place, write by write -/
namespace Igmp

namespace QueryFlags

theorem suppress_bits (b : UInt8) (value : Bool) :
    (if value then b &&& 0xf7 ||| 0x08 else b &&& 0xf7) =
      ({ ofByte b with suppress := value } : QueryFlags).toByte := by
  obtain ⟨⟨b⟩⟩ := b
  revert b value
  decide +kernel

theorem robustness_bits (b : UInt8) (value : Robustness) :
    b &&& 0xf8 ||| UInt8.ofNat value.value =
      ({ ofByte b with robustness := value } : QueryFlags).toByte := by
  obtain ⟨⟨b⟩⟩ := b
  obtain ⟨value⟩ := value
  revert b value
  decide +kernel

end QueryFlags

/-- The pieces in which a record is written. -/
def GroupRecord.words (r : GroupRecord) : List Bytes :=
  [r.type.code] :: [UInt8.ofNat r.auxiliary.length] :: Bytes.ofWord (.ofNat r.sources.length) ::
    r.group.octets :: (r.sources.map Address.octets ++ r.auxiliary.map AuxiliaryWord.bytes)

theorem GroupRecord.flatten_words (r : GroupRecord) : r.words.flatten = r.layout := by
  simp [words, layout, List.flatMap_def]

theorem GroupRecord.mapError_encode {r : GroupRecord} (h : r.fault? = none) :
    (r.encode.map fun _ => ()).mapError EditError.refused = .ok () := by
  rw [encode, h]
  rfl

namespace Message

section Edit

variable {m : Message} {e : Edit}

theorem edit_eq_error {error : EditError} (hc : e.check m.kind m.region.length = .error error) :
    m.edit e = .error error := by
  simp [edit, hc, bind, Except.bind]

variable (hc : e.check m.kind m.region.length = .ok ())

include hc

theorem edit_of_readOnly (ha : m.access = .readOnly) : m.edit e = .error .readOnly := by
  simp [edit, hc, ha, bind, Except.bind]

theorem edit_of_writable (ha : m.access = .writable) :
    m.edit e = .ok { m with region := e.write m.region } := by
  simp [edit, hc, ha, bind, Except.bind]

end Edit

end Message

theorem Memory.check_message (s : Memory) (kind : MessageKind) (e : Edit) :
    e.check (s.message kind).kind (s.message kind).region.length = e.check kind s.room := by
  rw [message_room]
  rfl

namespace InPlace

/-- Lays a record over the bytes from `offset` on, field by field, and tells how many bytes it
took. The record is checked before its first byte is written. -/
def encode (r : GroupRecord) (offset : Nat) : InPlace Nat := do
  let available ← roomFrom offset
  require ((r.encode.map fun _ => ()).mapError .refused)
  require ((Container.require .groupRecord r.size available).mapError .refused)
  putAll offset r.words
  pure r.size

def encodeAll : List GroupRecord → Nat → InPlace Unit
  | [], _ => pure ()
  | r :: rs, offset => do
    let size ← encode r offset
    encodeAll rs (offset + size)

/-- The writes that an edit is made of. -/
def writes : Edit → InPlace Unit
  | .checksum value => put 2 (Bytes.ofWord value)
  | .group value => put 4 value.octets
  | .responseTime value => put 1 [value.value]
  | .maxResponseCode value => put 1 [value.code]
  | .suppress value => do
    let flags ← byteAt 8
    put 8 [if value then flags &&& 0xf7 ||| 0x08 else flags &&& 0xf7]
  | .robustness value => do
    let flags ← byteAt 8
    put 8 [flags &&& 0xf8 ||| UInt8.ofNat value.value]
  | .queryInterval value => put 9 [value.code]
  | .sources addresses => do
    putAll 12 (addresses.map Address.octets)
    put 10 (Bytes.ofWord (.ofNat addresses.length))
  | .records rs => do
    encodeAll rs 8
    put 6 (Bytes.ofWord (.ofNat rs.length))

def edit (kind : MessageKind) (e : Edit) : InPlace Unit := do
  let room ← room
  require (e.check kind room)
  writes e

/-- Clears what a fresh message of a kind holds constant. -/
def clear : MessageKind → InPlace Unit
  | .v1Query => do
    put 1 [0]
    put 4 Address.zero.octets
  | .v1Report | .v2Report | .v2Leave => put 1 [0]
  | .v2Query => pure ()
  | .v3Query => do
    let flags ← byteAt 8
    put 8 [flags &&& 0x0f]
  | .v3Report => do
    put 1 [0]
    put 4 (Bytes.ofWord 0)

/-- Makes a fresh message of the bytes. -/
def create (kind : MessageKind) : InPlace Unit := do
  let room ← room
  require ((Container.require (.message kind) kind.headerSize room).mapError .refused)
  put 0 [kind.type.code]
  clear kind

variable {s : Memory}

section Writable

variable (ha : s.access = .writable)

include ha

theorem encode_run {r : GroupRecord} {offset : Nat} (hv : r.fault? = none)
    (h : offset + r.size ≤ s.room) :
    (encode r offset).run s = .ok r.size (s.write offset r.layout) := by
  have hroom : (Container.groupRecord.require r.size (s.room - offset)).mapError
      EditError.refused = .ok () := by
    rw [(Edit.require_eq_ok_iff _ _ _).2 (by omega)]
    rfl
  have hwords : (putAll offset r.words).run s = .ok () (s.write offset r.layout) := by
    rw [← r.flatten_words]
    apply putAll_run ha
    rwa [r.flatten_words, r.layout_length]
  rw [encode, run_bind_ok (roomFrom_run ha (by omega)),
    run_bind_ok (require_ok (GroupRecord.mapError_encode hv)), run_bind_ok (require_ok hroom),
    run_bind_ok hwords]
  rfl

/-- Where every record is valid and there is room for all of them, none fails on the way. -/
theorem encodeAll_run {rs : List GroupRecord} {offset : Nat} (hv : ∀ r ∈ rs, r.fault? = none)
    (h : offset + GroupRecord.totalSize rs ≤ s.room) :
    (encodeAll rs offset).run s = .ok () (s.write offset (rs.flatMap GroupRecord.layout)) := by
  induction rs generalizing s offset with
  | nil =>
    rw [List.flatMap_nil, Memory.write_nil]
    rfl
  | cons r rs ih =>
    rw [GroupRecord.totalSize_cons] at h
    have hrest : (encodeAll rs (offset + r.size)).run (s.write offset r.layout) =
        .ok () ((s.write offset r.layout).write (offset + r.size)
          (rs.flatMap GroupRecord.layout)) := by
      apply ih (s := s.write offset r.layout) ha fun r' hr' => hv r' (List.mem_cons_of_mem r hr')
      rw [Memory.room_write]
      omega
    rw [encodeAll, run_bind_ok (encode_run ha (hv r List.mem_cons_self) (by omega)), hrest,
      ← r.layout_length, Memory.write_append (by omega), List.flatMap_cons]

/-- A list written, and then its number. -/
private theorem put_count_run {x : InPlace Unit} {offset offset' : Nat} {list count : Bytes}
    (hx : x.run s = .ok () (s.write offset list)) (h : offset + list.length ≤ s.room)
    (h' : offset' + count.length ≤ s.room) :
    (x >>= fun _ => put offset' count).run s =
      .ok () (s.write 0 ((s.region.patch offset list).patch offset' count)) := by
  rw [run_bind_ok hx, put_run (s := s.write offset list) ha h', Memory.write_write_eq h h']

/-- The writes of an edit that has been checked all take place, and make the region what the edit
makes of it. -/
theorem writes_run {e : Edit} (hstop : e.stop ≤ s.room)
    (hv : ∀ rs, e = .records rs → ∀ r ∈ rs, r.fault? = none) :
    (writes e).run s = .ok () (s.write 0 (e.write s.region)) := by
  cases e with
  | suppress value =>
    have hbyte : (s.region.slice 8 1).byteAt 0 = s.region.byteAt 8 := Bytes.byteAt_slice (by omega)
    rw [writes, run_bind_ok (byteAt_run hstop), put_run ha hstop, Memory.write_eq hstop,
      QueryFlags.suppress_bits, ← hbyte]
    rfl
  | robustness value =>
    have hbyte : (s.region.slice 8 1).byteAt 0 = s.region.byteAt 8 := Bytes.byteAt_slice (by omega)
    rw [writes, run_bind_ok (byteAt_run hstop), put_run ha hstop, Memory.write_eq hstop,
      QueryFlags.robustness_bits, ← hbyte]
    rfl
  | sources addresses =>
    have hlist : 12 + (addresses.flatMap Address.octets).length ≤ s.room := by
      rwa [Address.flatMap_octets_length]
    exact put_count_run ha (putAll_run ha hlist) hlist (by rw [Bytes.ofWord_length]; omega)
  | records rs =>
    have hlist : 8 + (rs.flatMap GroupRecord.layout).length ≤ s.room := by
      rwa [GroupRecord.flatMap_layout_length]
    exact put_count_run ha (encodeAll_run ha (hv rs rfl) hstop) hlist
      (by rw [Bytes.ofWord_length]; omega)
  | _ =>
    rw [writes, put_run ha hstop, Memory.write_eq hstop]
    rfl

theorem put_change_run {offset : Nat} {new : Bytes} (h : offset + new.length ≤ s.room)
    (f : Nat → UInt8 → UInt8) :
    (put offset new).run (s.change f) =
      .ok () (s.change fun i b => Bytes.overlay offset new i (f i b)) := by
  rw [put_run (s := s.change f) ha h, Memory.change_write h]

/-- What a fresh message pins is what is cleared and the type before it. -/
theorem clear_run {kind : MessageKind} (h : kind.headerSize ≤ s.room) :
    (clear kind).run (s.change (Bytes.overlay 0 [kind.type.code])) =
      .ok () (s.change kind.pin) := by
  have h8 := Nat.le_trans kind.eight_le_headerSize h
  have h2 : 1 + [(0 : UInt8)].length ≤ s.room := Nat.le_trans (by decide) h8
  -- In each case both sides are compared at every index up to the last that is pinned, and beyond.
  cases kind with
  | v1Query =>
    rw [clear, run_bind_ok (put_change_run ha h2 _), put_change_run ha h8]
    refine congrArg (EStateM.Result.ok ()) (Memory.change_congr fun i => ?_)
    rcases i with _|_|_|_|_|_|_|_|i <;>
      simp [Bytes.overlay, MessageKind.pin, Address.zero, Address.octets]
  | v1Report | v2Report | v2Leave =>
    rw [clear, put_change_run ha h2]
    refine congrArg (EStateM.Result.ok ()) (Memory.change_congr fun i => ?_)
    rcases i with _|_|i <;> simp [Bytes.overlay, MessageKind.pin]
  | v2Query =>
    refine congrArg (EStateM.Result.ok ()) (Memory.change_congr fun i => ?_)
    rcases i with _|i <;> simp [Bytes.overlay, MessageKind.pin]
  | v3Query =>
    have h9 : 8 < s.room := Nat.lt_of_lt_of_le (by decide) h
    have hflags : (s.change (Bytes.overlay 0 [MessageKind.v3Query.type.code])).region.byteAt 8 =
        s.region.byteAt 8 := by
      rw [Memory.region_change, Bytes.byteAt_mapIdx _ (by rwa [Memory.region_length])]
      rfl
    rw [clear, run_bind_ok (byteAt_run (s := s.change _) h9), hflags,
      put_change_run ha h9]
    refine congrArg (EStateM.Result.ok ()) (Memory.change_congr fun i => ?_)
    rcases i with _|_|_|_|_|_|_|_|_|i <;>
      simp [Bytes.overlay, MessageKind.pin, Bytes.and_0f]
  | v3Report =>
    have h6 : 4 + (Bytes.ofWord 0).length ≤ s.room := Nat.le_trans (by decide) h8
    rw [clear, run_bind_ok (put_change_run ha h2 _), put_change_run ha h6]
    refine congrArg (EStateM.Result.ok ()) (Memory.change_congr fun i => ?_)
    rcases i with _|_|_|_|_|_|i <;> simp [Bytes.overlay, MessageKind.pin, Bytes.ofWord]

/-- A message made in memory, write by write, is the fresh message over its bytes. -/
theorem create_run (kind : MessageKind) :
    (create kind).run s =
      match Message.create kind s.region with
      | .ok m => .ok () (s.write 0 m.region)
      | .error cause => .error (.told (.refused cause)) s := by
  have hroom : room.run s = .ok s.room s := rfl
  rw [create, run_bind_ok hroom, Message.create, Memory.region_length]
  cases hc : (Container.message kind).require kind.headerSize s.room with
  | error cause => exact run_bind_error (require_error rfl)
  | ok done =>
    have h : kind.headerSize ≤ s.room := (Edit.require_eq_ok_iff _ _ _).1 hc
    have hcode : 0 + [kind.type.code].length ≤ s.room :=
      Nat.le_trans (by simp) (Nat.le_trans kind.eight_le_headerSize h)
    rw [Guarded.mapError_ok, run_bind_ok (require_ok rfl), run_bind_ok (put_run ha hcode),
      Memory.write_eq_change hcode, clear_run ha h]
    rfl

end Writable

/-- Lists fail at their first element, and without one at their number. -/
theorem writes_readOnly (ha : s.access = .readOnly) {e : Edit} (hstop : e.stop ≤ s.room) :
    (writes e).run s = .error (.told .readOnly) s := by
  cases e with
  | suppress value | robustness value =>
    rw [writes, run_bind_ok (byteAt_run hstop), put_readOnly ha]
  | sources addresses =>
    cases addresses with
    | nil => exact put_readOnly ha 10 _
    | cons a addresses =>
      have hput : (putAll 12 ((a :: addresses).map Address.octets)).run s =
          .error (.told .readOnly) s := run_bind_error (put_readOnly ha 12 _)
      rw [writes, run_bind_error hput]
  | records rs =>
    cases rs with
    | nil => exact put_readOnly ha 6 _
    | cons r rs =>
      have hencode : (encode r 8).run s = .error (.told .readOnly) s :=
        run_bind_error (roomFrom_readOnly ha 8)
      have hall : (encodeAll (r :: rs) 8).run s = .error (.told .readOnly) s :=
        run_bind_error hencode
      rw [writes, run_bind_error hall]
  | _ => exact put_readOnly ha _ _

/-- An edit made write by write ends as the edit of the message does. It leaves the edited message
in memory, and where it fails, memory as it was. -/
theorem edit_run {kind : MessageKind} (h : kind.headerSize ≤ s.room) (e : Edit) :
    (edit kind e).run s =
      match (s.message kind).edit e with
      | .ok edited => .ok () (s.write 0 edited.region)
      | .error error => .error (.told error) s := by
  have hroom : room.run s = .ok s.room s := rfl
  rw [edit, run_bind_ok hroom]
  cases hc : e.check kind s.room with
  | error error =>
    rw [run_bind_error (require_error rfl),
      Message.edit_eq_error ((s.check_message kind e).trans hc)]
  | ok done =>
    have hstop := Edit.stop_le hc h
    have hc' := (s.check_message kind e).trans hc
    rw [run_bind_ok (require_ok rfl)]
    cases ha : s.access with
    | readOnly => rw [writes_readOnly ha hstop, Message.edit_of_readOnly hc' ha]
    | writable =>
      have hv : ∀ rs, e = .records rs → ∀ r ∈ rs, r.fault? = none := by
        rintro rs rfl
        exact ((Edit.check_eq_ok_iff _ _ _).1 hc).2.2.1
      rw [writes_run ha hstop hv, Message.edit_of_writable hc' ha]
      rfl

end InPlace

/-- An edit keeps the kind of the message, its access and its room. -/
theorem Message.edit_shape {m edited : Message} {e : Edit}
    (h : m.kind.headerSize ≤ m.region.length) (he : m.edit e = .ok edited) :
    edited.kind = m.kind ∧ edited.access = m.access ∧
      edited.region.length = m.region.length := by
  cases hc : e.check m.kind m.region.length with
  | error error => simp [edit_eq_error hc] at he
  | ok done =>
    cases ha : m.access with
    | readOnly => simp [edit_of_readOnly hc ha] at he
    | writable =>
      rw [edit_eq_ok ha h hc, Except.ok.injEq] at he
      subst he
      exact ⟨rfl, ha, List.length_mapIdx⟩

namespace Memory

/-- What an edit leaves in memory, whether it is made or fails. -/
def edit (kind : MessageKind) (s : Memory) (e : Edit) : Memory :=
  match (InPlace.edit kind e).run s with
  | .ok _ after | .error _ after => after

def editAll (kind : MessageKind) (s : Memory) (es : List Edit) : Memory := es.foldl (edit kind) s

/-- Memory in which at most the region has changed. -/
structure Keeps (s after : Memory) : Prop where
  room_eq : after.room = s.room
  access_eq : after.access = s.access
  beyond_eq : after.bytes.drop s.room = s.bytes.drop s.room

variable {s after : Memory} {kind : MessageKind}

namespace Keeps

theorem refl (s : Memory) : Keeps s s := ⟨rfl, rfl, rfl⟩

theorem trans {last : Memory} (h : Keeps s after) (h' : Keeps after last) : Keeps s last := by
  refine ⟨h'.room_eq.trans h.room_eq, h'.access_eq.trans h.access_eq, ?_⟩
  rw [← h.room_eq, h'.beyond_eq, h.room_eq, h.beyond_eq]

theorem bytes_eq (h : Keeps s after) : after.bytes = after.region ++ s.bytes.drop s.room := by
  rw [← h.beyond_eq, region, h.room_eq, List.take_append_drop]

theorem length_eq (h : Keeps s after) : after.bytes.length = s.bytes.length := by
  have hroom := s.room_le
  rw [h.bytes_eq, List.length_append, region_length, h.room_eq, List.length_drop]
  omega

/-- What changes in memory shows in the region. -/
theorem byteAt_eq (h : Keeps s after) {i : Nat}
    (hi : after.region.byteAt i = s.region.byteAt i) : after.bytes.byteAt i = s.bytes.byteAt i := by
  rcases Nat.lt_or_ge i s.room with hlt | hge
  · rwa [region, h.room_eq, region, Bytes.byteAt_take hlt, Bytes.byteAt_take hlt] at hi
  · have hbeyond := congrArg (Bytes.byteAt · (i - s.room)) h.beyond_eq
    simp only [Bytes.byteAt_drop] at hbeyond
    rwa [Nat.add_sub_cancel' hge] at hbeyond

end Keeps

theorem keeps_write {new : Bytes} (h : new.length = s.room) : Keeps s (s.write 0 new) :=
  ⟨rfl, rfl, Bytes.drop_patch (by omega) s.room_le⟩

theorem headerSize_le_message (h : kind.headerSize ≤ s.room) :
    (s.message kind).kind.headerSize ≤ (s.message kind).region.length := by
  rwa [message_room]

section Edit

variable (h : kind.headerSize ≤ s.room)

include h

theorem keeps_edit (e : Edit) : Keeps s (s.edit kind e) := by
  rw [edit, InPlace.edit_run h]
  cases he : (s.message kind).edit e with
  | error error => exact .refl s
  | ok edited =>
    obtain ⟨-, -, hlen⟩ := Message.edit_shape (headerSize_le_message h) he
    exact keeps_write (hlen.trans s.region_length)

theorem message_edit (e : Edit) : (s.edit kind e).message kind = (s.message kind).apply e := by
  rw [edit, InPlace.edit_run h, Message.apply]
  cases he : (s.message kind).edit e with
  | error error => rfl
  | ok edited =>
    obtain ⟨hkind, haccess, hlen⟩ := Message.edit_shape (headerSize_le_message h) he
    have hkind' : kind = edited.kind := hkind.symm
    have haccess' : (s.write 0 edited.region).access = edited.access := haccess.symm
    simp only [message]
    rw [region_write_zero (hlen.trans s.region_length), haccess', hkind']

/-- An edit that the message takes is made in memory, and only there. -/
theorem run_of_edit {e : Edit} {edited : Message} (he : (s.message kind).edit e = .ok edited) :
    ∃ after, (InPlace.edit kind e).run s = .ok () after ∧ after.message kind = edited ∧
      Keeps s after := by
  refine ⟨s.edit kind e, ?_, ?_, keeps_edit h e⟩
  · rw [edit, InPlace.edit_run h, he]
  · rw [message_edit h, Message.apply, he]

end Edit

/-- A run of edits in memory, of which any may fail, keeps to the region. -/
theorem keeps_editAll (h : kind.headerSize ≤ s.room) (es : List Edit) :
    Keeps s (s.editAll kind es) := by
  induction es generalizing s with
  | nil => exact .refl s
  | cons e es ih =>
    have hstep := keeps_edit h e
    exact hstep.trans (ih (by rwa [hstep.room_eq]))

/-- A run of edits in memory makes of the message what the run of the edits makes of it. -/
theorem message_editAll (h : kind.headerSize ≤ s.room) (es : List Edit) :
    (s.editAll kind es).message kind = (s.message kind).applyAll es := by
  induction es generalizing s with
  | nil => rfl
  | cons e es ih =>
    have hrest := ih (s := s.edit kind e) (by rwa [(keeps_edit h e).room_eq])
    rw [message_edit h] at hrest
    exact hrest

end Memory
end Igmp
