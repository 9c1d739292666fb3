import Igmp.Proofs.EditStamp
import Mathlib.Data.List.Nodup

/-! # Runs of edits, and what they leave stored -/
namespace Igmp

namespace Edit

/-- What a run of edits makes of the byte `b` at index `i`. -/
def stampAll (es : List Edit) (i : Nat) (b : UInt8) : UInt8 := es.foldl (fun b e => e.stamp i b) b

/-- Edits that a kind offers, each of another place. -/
structure Apart (kind : MessageKind) (es : List Edit) : Prop where
  offered : ∀ e ∈ es, e.Offered kind
  places : (es.map place).Nodup

variable {kind : MessageKind} {es es' : List Edit}

theorem Apart.perm (h : Apart kind es) (hp : es.Perm es') : Apart kind es' :=
  ⟨fun e he => h.offered e (hp.mem_iff.2 he), (hp.map place).nodup_iff.1 h.places⟩

theorem Apart.of_append (h : Apart kind (es ++ es')) : Apart kind es := by
  constructor
  · intro e he
    exact h.offered e (List.mem_append_left es' he)
  · have hp := h.places
    rw [List.map_append] at hp
    exact hp.of_append_left

/-- The order of edits of different places does not matter. -/
theorem stampAll_perm (h : Apart kind es) (hp : es.Perm es') (i : Nat) (b : UInt8) :
    stampAll es i b = stampAll es' i b := by
  apply hp.foldl_eq'
  intro e he e' he' b
  by_cases hne : e.place = e'.place
  · rw [List.inj_on_of_nodup_map h.places he he' hne]
  · exact stamp_comm (h.offered e' he') (h.offered e he) (Ne.symm hne) i b

/-- An edit of the run, made once more after it, changes nothing. -/
theorem stamp_stampAll (h : Apart kind es) {e : Edit} (he : e ∈ es) (i : Nat) (b : UInt8) :
    e.stamp i (stampAll es i b) = stampAll es i b := by
  -- Moved to the end of the run, the edit is made twice in a row.
  have hp : es.Perm (es.erase e ++ [e]) :=
    (List.perm_cons_erase he).trans (List.perm_append_singleton e _).symm
  have hlast : ∀ b, stampAll (es.erase e ++ [e]) i b = e.stamp i (stampAll (es.erase e) i b) := by
    intro b
    simp [stampAll]
  rw [stampAll_perm h hp, hlast, stamp_stamp_self]

theorem pin_stampAll (h : ∀ e ∈ es, e.Offered kind) (i : Nat) (b : UInt8) :
    kind.pin i (stampAll es i b) = stampAll es i (kind.pin i b) := by
  induction es generalizing b with
  | nil => rfl
  | cons e es ih =>
    simp only [stampAll, List.foldl_cons] at ih ⊢
    rw [ih (fun e' he' => h e' (by simp [he'])), pin_stamp (h e (by simp))]

/-- The region already holds what the edit writes. -/
structure Stored (e : Edit) (region : Bytes) : Prop where
  stop_le : e.stop ≤ region.length
  write_eq : e.write region = region

theorem stored_iff {e : Edit} {region : Bytes} (h : e.stop ≤ region.length) :
    e.Stored region ↔ ∀ i < region.length, e.stamp i (region.byteAt i) = region.byteAt i := by
  have hbytes : region.mapIdx e.stamp = region ↔
      ∀ i < region.length, e.stamp i (region.byteAt i) = region.byteAt i := by
    constructor
    · intro heq i hi
      rw [← Bytes.byteAt_mapIdx e.stamp hi, heq]
    · intro hall
      apply Bytes.ext_byteAt (by simp)
      intro i hi
      rw [List.length_mapIdx] at hi
      rw [Bytes.byteAt_mapIdx _ hi, hall i hi]
  rw [← hbytes, ← write_eq_mapIdx h]
  exact ⟨fun hs => hs.write_eq, fun heq => ⟨h, heq⟩⟩

theorem stored_stamp {e : Edit} {bytes : Bytes} (hs : e.stop ≤ bytes.length) :
    e.Stored (bytes.mapIdx e.stamp) := by
  rw [stored_iff (by simpa using hs)]
  intro i hi
  rw [List.length_mapIdx] at hi
  rw [Bytes.byteAt_mapIdx _ hi, stamp_stamp_self]

theorem stored_stampAll (h : Apart kind es) {e : Edit} (he : e ∈ es) {bytes : Bytes}
    (hs : e.stop ≤ bytes.length) :
    e.Stored (bytes.mapIdx (stampAll es)) := by
  rw [stored_iff (by simpa using hs)]
  intro i hi
  rw [List.length_mapIdx] at hi
  rw [Bytes.byteAt_mapIdx _ hi, stamp_stampAll h he]

end Edit

namespace Message

theorem create_eq_ok {kind : MessageKind} {buffer : Bytes} (h : kind.headerSize ≤ buffer.length) :
    create kind buffer = .ok ⟨kind, .writable, buffer.mapIdx kind.pin⟩ := by
  have hr := (Edit.require_eq_ok_iff (.message kind) _ _).2 h
  simp [create, hr, bind, Except.bind]

theorem edit_eq_ok {m : Message} {e : Edit} (hw : m.access = .writable)
    (hr : m.kind.headerSize ≤ m.region.length) (hc : e.check m.kind m.region.length = .ok ()) :
    m.edit e = .ok { m with region := m.region.mapIdx e.stamp } := by
  rw [← Edit.write_eq_mapIdx (Edit.stop_le hc hr)]
  simp [edit, hc, hw, bind, Except.bind]

/-- A run of edits that a message in a writable region takes one by one. -/
theorem foldlM_edit {es : List Edit} {m : Message} (hw : m.access = .writable)
    (hr : m.kind.headerSize ≤ m.region.length)
    (hc : ∀ e ∈ es, e.check m.kind m.region.length = .ok ()) :
    es.foldlM edit m = .ok { m with region := m.region.mapIdx (Edit.stampAll es) } := by
  induction es generalizing m with
  | nil =>
    have hnil : m.region.mapIdx (Edit.stampAll []) = m.region := List.mapIdx_eq_iff.2 fun i => by
      cases m.region[i]? <;> rfl
    rw [hnil]
    rfl
  | cons e es ih =>
    have hcons : m.region.mapIdx (Edit.stampAll (e :: es)) =
        (m.region.mapIdx e.stamp).mapIdx (Edit.stampAll es) := by
      rw [List.mapIdx_mapIdx]
      rfl
    have hrun := ih (m := { m with region := m.region.mapIdx e.stamp }) hw (by simpa using hr)
      (by simpa using fun e' he' => hc e' (by simp [he']))
    rw [List.foldlM_cons, edit_eq_ok hw hr (hc e (by simp)), hcons]
    exact hrun

end Message
end Igmp
