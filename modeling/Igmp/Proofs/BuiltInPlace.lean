import Igmp.Proofs.InPlaceEdit

/-!
# Messages built in a buffer, write by write

A buffer that is a message's as a whole is told by its bytes. What the writes leave of it are the
bytes of the fresh message, then of those that the edits make of it in turn.
-/
namespace Igmp

namespace InPlace

/-- Makes edits one after another, up to the first that fails. -/
def editEach (kind : MessageKind) : List Edit → InPlace Unit
  | [] => pure ()
  | e :: es => do
    edit kind e
    editEach kind es

/-- Makes a fresh message, and then edits of it. -/
def build (kind : MessageKind) (es : List Edit) : InPlace Unit := do
  create kind
  editEach kind es

/-- Stores the checksum that is calculated from the bytes as they are. -/
def storeChecksum (kind : MessageKind) : InPlace Unit := do
  let s ← get
  edit kind (s.message kind).checksumEdit

end InPlace

namespace Memory

variable {kind : MessageKind} {buffer : Bytes}

theorem ofBuffer_write {new : Bytes} (h : new.length = buffer.length) :
    (ofBuffer buffer).write 0 new = ofBuffer new := by
  rw [write_ofBuffer (by omega), Bytes.patch_zero, h, List.drop_length, List.append_nil]

theorem message_ofBuffer (kind : MessageKind) (buffer : Bytes) :
    (ofBuffer buffer).message kind = ⟨kind, .writable, buffer⟩ := by
  rw [message, region_of_full rfl]
  rfl

theorem create_ofBuffer (h : kind.headerSize ≤ buffer.length) :
    (InPlace.create kind).run (ofBuffer buffer) = .ok () (ofBuffer (buffer.mapIdx kind.pin)) := by
  have hregion : (ofBuffer buffer).region = buffer := region_of_full rfl
  rw [InPlace.create_run rfl, hregion, Message.create_eq_ok h]
  exact congrArg (EStateM.Result.ok ()) (ofBuffer_write List.length_mapIdx)

section Edited

variable {m edited : Message} {es : List Edit} (h : m.kind.headerSize ≤ m.region.length)
  (ha : m.access = .writable)

include h ha

theorem edit_ofBuffer {e : Edit} (he : m.edit e = .ok edited) :
    (InPlace.edit m.kind e).run (ofBuffer m.region) = .ok () (ofBuffer edited.region) := by
  have hm : (ofBuffer m.region).message m.kind = m := by rw [message_ofBuffer, ← ha]
  obtain ⟨-, -, hlen⟩ := Message.edit_shape h he
  rw [InPlace.edit_run h, hm, he]
  exact congrArg (EStateM.Result.ok ()) (ofBuffer_write hlen)

theorem editEach_ofBuffer (he : es.foldlM Message.edit m = .ok edited) :
    (InPlace.editEach m.kind es).run (ofBuffer m.region) = .ok () (ofBuffer edited.region) := by
  induction es generalizing m with
  | nil =>
    cases he
    rfl
  | cons e es ih =>
    rw [List.foldlM_cons, Guarded.bind_eq_ok_iff] at he
    obtain ⟨next, hnext, hrest⟩ := he
    obtain ⟨hkind, haccess, hlen⟩ := Message.edit_shape h hnext
    rw [InPlace.editEach, InPlace.run_bind_ok (edit_ofBuffer h ha hnext), ← hkind]
    exact ih (by rwa [hkind, hlen]) (haccess.trans ha) hrest

theorem storeChecksum_ofBuffer (he : m.edit m.checksumEdit = .ok edited) :
    (InPlace.storeChecksum m.kind).run (ofBuffer m.region) = .ok () (ofBuffer edited.region) := by
  have hm : (ofBuffer m.region).message m.kind = m := by rw [message_ofBuffer, ← ha]
  have hget : (get : InPlace Memory).run (ofBuffer m.region) =
      .ok (ofBuffer m.region) (ofBuffer m.region) := rfl
  rw [InPlace.storeChecksum, InPlace.run_bind_ok hget, hm]
  exact edit_ofBuffer h ha he

end Edited

/-- Where a message can be made and takes all edits, building it leaves its bytes in the buffer. -/
theorem build_ofBuffer (h : kind.headerSize ≤ buffer.length) {fresh built : Message}
    (hcreate : Message.create kind buffer = .ok fresh) {es : List Edit}
    (hedits : es.foldlM Message.edit fresh = .ok built) :
    (InPlace.build kind es).run (ofBuffer buffer) = .ok () (ofBuffer built.region) := by
  rw [Message.create_eq_ok h, Except.ok.injEq] at hcreate
  subst hcreate
  rw [InPlace.build, InPlace.run_bind_ok (create_ofBuffer h)]
  exact editEach_ofBuffer (m := ⟨kind, .writable, buffer.mapIdx kind.pin⟩)
    (by rwa [List.length_mapIdx]) rfl hedits

end Memory
end Igmp
