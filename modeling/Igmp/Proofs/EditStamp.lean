import Igmp.MessageEdit
import Igmp.Proofs.ByteOverlay
import Igmp.Proofs.RecordLayout

/-! # Edits as changes of each byte by itself -/
namespace Igmp
open Bytes

namespace QueryFlags

/-- What a change of the flags makes of the byte `b` at index `i`. -/
def change (f : QueryFlags → QueryFlags) (i : Nat) (b : UInt8) : UInt8 :=
  if i = 8 then (f (ofByte b)).toByte else b

theorem change_of_ne {i : Nat} (f : QueryFlags → QueryFlags) (b : UInt8) (h : i ≠ 8) :
    change f i b = b := if_neg h

theorem change_change (f g : QueryFlags → QueryFlags) (i : Nat) (b : UInt8) :
    change f i (change g i b) = change (f ∘ g) i b := by
  by_cases h : i = 8
  · simp [change, h, ofByte_toByte]
  · simp [change, h]

end QueryFlags

/-- A field of the flag byte is written by a change of the flags. -/
theorem Field.flags_set_eq_mapIdx {α : Type} (decode : QueryFlags → α)
    (encode : α → QueryFlags → QueryFlags) (value : α) (region : Bytes) (h : 9 ≤ region.length) :
    (Field.flags decode encode).set value region =
      region.mapIdx (QueryFlags.change (encode value)) := by
  have hset : (Field.flags decode encode).set value region =
      region.patch 8 [(encode value (.ofByte ((region.slice 8 1).byteAt 0))).toByte] := rfl
  rw [hset, patch_eq_mapIdx (by simpa using h), List.mapIdx_eq_mapIdx_iff]
  intro i hi
  by_cases h8 : i = 8
  · subst h8
    rw [overlay_inside _ (by omega) (by simp), byteAt_slice (by omega), byteAt_eq_getElem hi]
    rfl
  · rw [QueryFlags.change_of_ne _ _ h8]
    apply overlay_outside
    simp only [List.length_cons, List.length_nil]
    omega

namespace Edit

/-- What an edit sets. -/
inductive Place where
  | checksum
  | group
  | responseTime
  | maxResponseCode
  | suppress
  | robustness
  | queryInterval
  | sources
  | records
  deriving DecidableEq, Repr

def place : Edit → Place
  | checksum _ => .checksum
  | group _ => .group
  | responseTime _ => .responseTime
  | maxResponseCode _ => .maxResponseCode
  | suppress _ => .suppress
  | robustness _ => .robustness
  | queryInterval _ => .queryInterval
  | sources _ => .sources
  | records _ => .records

/-- What the edit makes of the byte `b` at index `i`. A list and its number lie side by side. -/
def stamp : Edit → Nat → UInt8 → UInt8
  | checksum value => overlay 2 (ofWord value)
  | group value => overlay 4 value.octets
  | responseTime value => overlay 1 [value.value]
  | maxResponseCode value => overlay 1 [value.code]
  | suppress value => QueryFlags.change fun f => { f with suppress := value }
  | robustness value => QueryFlags.change fun f => { f with robustness := value }
  | queryInterval value => overlay 9 [value.code]
  | sources addresses =>
    overlay 10 (ofWord (.ofNat addresses.length) ++ addresses.flatMap Address.octets)
  | records rs => overlay 6 (ofWord (.ofNat rs.length) ++ rs.flatMap GroupRecord.layout)

/-- The index of the first byte that the edit may change. -/
def start : Edit → Nat
  | checksum _ => 2
  | group _ => 4
  | responseTime _ | maxResponseCode _ => 1
  | suppress _ | robustness _ => 8
  | queryInterval _ => 9
  | sources _ => 10
  | records _ => 6

/-- The index behind the last byte that the edit may change. -/
def stop : Edit → Nat
  | checksum _ => 4
  | group _ => 8
  | responseTime _ | maxResponseCode _ => 2
  | suppress _ | robustness _ => 9
  | queryInterval _ => 10
  | sources addresses => 12 + 4 * addresses.length
  | records rs => 8 + GroupRecord.totalSize rs

def Offered (kind : MessageKind) : Edit → Prop
  | checksum _ => True
  | group _ => fixedGroup? kind = none
  | responseTime _ => fixedResponseTime? kind = none
  | maxResponseCode _ | suppress _ | robustness _ | queryInterval _ | sources _ => kind = .v3Query
  | records _ => kind = .v3Report

/-- Whether lists are short enough for their number and for a region of `room` bytes. -/
def Fits (room : Nat) : Edit → Prop
  | sources addresses => addresses.length ≤ 65535 ∧ 12 + 4 * addresses.length ≤ room
  | records rs =>
    rs.length ≤ 65535 ∧ (∀ r ∈ rs, r.fault? = none) ∧ 8 + GroupRecord.totalSize rs ≤ room
  | _ => True

theorem require_eq_ok_iff (c : Container) (minimum provided : Nat) :
    c.require minimum provided = .ok () ↔ minimum ≤ provided := by
  unfold Container.require
  split <;> simp [*]

theorem checkSources_eq_ok_iff (count room : Nat) :
    checkSources count room = .ok () ↔ count ≤ 65535 ∧ 12 + 4 * count ≤ room := by
  unfold checkSources
  split
  · simp; omega
  · rw [require_eq_ok_iff]; omega

theorem checkRecords_eq_ok_iff (rs : List GroupRecord) (room : Nat) :
    checkRecords rs room = .ok () ↔
      rs.length ≤ 65535 ∧ (∀ r ∈ rs, r.fault? = none) ∧ 8 + GroupRecord.totalSize rs ≤ room := by
  unfold checkRecords
  split
  · simp; omega
  · cases hf : rs.findSome? GroupRecord.fault? with
    | some fault =>
      obtain ⟨r, hr, hfault⟩ := List.exists_of_findSome?_eq_some hf
      simp only [reduceCtorEq, false_iff, not_and]
      intro _ hnone
      simp [hnone r hr] at hfault
    | none =>
      rw [List.findSome?_eq_none_iff] at hf
      simp only [require_eq_ok_iff]
      exact ⟨fun h => ⟨by omega, hf, h⟩, fun h => h.2.2⟩

private theorem mapError_eq_ok_iff (result : Except CodecError Unit) :
    result.mapError EditError.refused = .ok () ↔ result = .ok () := by
  cases result with
  | ok u => exact ⟨fun _ => rfl, fun _ => rfl⟩
  | error e => exact ⟨(nomatch ·), (nomatch ·)⟩

/-- How the check of an edit that one kind offers ends, but for kinds that do not offer it. -/
theorem onlyFor_bind_eq_iff {offered kind : MessageKind} {next : Except EditError Unit}
    (result : Except EditError Unit) (h : result ≠ .error .notOffered) :
    (onlyFor offered kind >>= fun _ => next) = result ↔ kind = offered ∧ next = result := by
  unfold onlyFor
  by_cases hk : kind = offered
  · rw [if_pos hk]
    exact ⟨fun hn => ⟨hk, hn⟩, fun hn => hn.2⟩
  · rw [if_neg hk]
    exact ⟨fun hn => absurd hn.symm h, fun hn => absurd hn.1 hk⟩

theorem check_eq_ok_iff (e : Edit) (kind : MessageKind) (room : Nat) :
    e.check kind room = .ok () ↔ e.Offered kind ∧ e.Fits room := by
  cases e with
  | checksum value => simp [check, Offered, Fits]
  | group value =>
    simp only [check, Offered, Fits, and_true]
    cases fixedGroup? kind <;> simp [unlessFixed]
  | responseTime value =>
    simp only [check, Offered, Fits, and_true]
    cases fixedResponseTime? kind <;> simp [unlessFixed]
  | sources addresses =>
    rw [check, onlyFor_bind_eq_iff (.ok ()) (by simp), mapError_eq_ok_iff,
      checkSources_eq_ok_iff]
    rfl
  | records rs =>
    rw [check, onlyFor_bind_eq_iff (.ok ()) (by simp), mapError_eq_ok_iff,
      checkRecords_eq_ok_iff]
    rfl
  | _ =>
    simp only [check, Offered, Fits, onlyFor, and_true]
    split <;> simp [*]

theorem stamp_eq_overlay {e : Edit} (h8 : e.start ≠ 8) :
    ∃ new, e.stamp = overlay e.start new ∧ e.start + new.length = e.stop := by
  cases e with
  | suppress value | robustness value => simp [start] at h8
  | sources addresses =>
    refine ⟨_, rfl, ?_⟩
    simp only [List.length_append, Address.flatMap_octets_length, ofWord_length, start, stop]
    omega
  | records rs =>
    refine ⟨_, rfl, ?_⟩
    simp only [List.length_append, GroupRecord.flatMap_layout_length, ofWord_length, start, stop]
    omega
  | _ => exact ⟨_, rfl, rfl⟩

theorem stamp_outside {e : Edit} {i : Nat} (b : UInt8) (h : i < e.start ∨ e.stop ≤ i) :
    e.stamp i b = b := by
  by_cases h8 : e.start = 8
  · cases e with
    | suppress value | robustness value =>
      have hne : i ≠ 8 := by
        simp only [start, stop] at h
        omega
      rw [stamp]
      exact QueryFlags.change_of_ne _ b hne
    | _ => simp [start] at h8
  · obtain ⟨new, hstamp, hstop⟩ := stamp_eq_overlay h8
    rw [hstamp]
    apply overlay_outside
    rwa [hstop]

/-- But for the parts of the flag byte, what an edit writes does not depend on what was there. -/
theorem stamp_inside {e : Edit} {i : Nat} (b b' : UInt8) (h : e.start ≤ i) (h' : i < e.stop)
    (h8 : e.start ≠ 8) :
    e.stamp i b = e.stamp i b' := by
  obtain ⟨new, hstamp, hstop⟩ := stamp_eq_overlay h8
  rw [hstamp, overlay_inside b h (by omega), overlay_inside b' h (by omega)]

theorem stamp_stamp_self (e : Edit) (i : Nat) (b : UInt8) :
    e.stamp i (e.stamp i b) = e.stamp i b := by
  cases e with
  | suppress value | robustness value =>
    rw [stamp, QueryFlags.change_change]
    rfl
  | _ => exact overlay_overlay_self _ _ i b

/-- What two different edits of one kind change lies apart, but for the two parts of the flag
byte. -/
private theorem span_disjoint_or_flags {e e' : Edit} {kind : MessageKind} (he : e.Offered kind)
    (he' : e'.Offered kind) (hne : e.place ≠ e'.place) :
    (e.stop ≤ e'.start ∨ e'.stop ≤ e.start) ∨ (e.start = 8 ∧ e'.start = 8) := by
  cases e <;> cases e' <;> simp_all [start, stop, place, Offered, fixedGroup?, fixedResponseTime?]

theorem stamp_comm {e e' : Edit} {kind : MessageKind} (he : e.Offered kind) (he' : e'.Offered kind)
    (hne : e.place ≠ e'.place) (i : Nat) (b : UInt8) :
    e.stamp i (e'.stamp i b) = e'.stamp i (e.stamp i b) := by
  rcases span_disjoint_or_flags he he' hne with h | ⟨hf, hf'⟩
  · by_cases hi : e.start ≤ i ∧ i < e.stop
    · rw [stamp_outside (e := e') b (by omega), stamp_outside (e := e') _ (by omega)]
    · rw [stamp_outside (e := e) b (by omega), stamp_outside (e := e) _ (by omega)]
  · -- Both change the flag byte, and each its own part of the flags.
    cases e <;> cases e' <;> simp_all [place, start] <;>
      simp [stamp, QueryFlags.change_change, Function.comp_def]

/-- The constant bytes of a kind lie apart from what its edits change, but for the flag byte. -/
private theorem pin_inside {e : Edit} {kind : MessageKind} {i : Nat} (he : e.Offered kind)
    (h : e.start ≤ i) (h' : i < e.stop) (h8 : e.start ≠ 8) (b : UInt8) : kind.pin i b = b := by
  unfold MessageKind.pin
  cases e <;> simp only [start, stop, Offered] at h h' he h8 <;> split <;>
    grind [fixedGroup?, fixedResponseTime?]

private theorem pin_flags (b : UInt8) :
    MessageKind.v3Query.pin 8 b = QueryFlags.change (fun f => { f with reserved := 0 }) 8 b := by
  have hb := b.toNat_lt
  apply UInt8.toNat_inj.mp
  by_cases hs : b.toNat / 8 % 2 = 1
  · simp [MessageKind.pin, QueryFlags.change, QueryFlags.toByte, QueryFlags.ofByte, hs]
    omega
  · simp [MessageKind.pin, QueryFlags.change, QueryFlags.toByte, QueryFlags.ofByte, hs]
    omega

theorem pin_stamp {e : Edit} {kind : MessageKind} (he : e.Offered kind) (i : Nat) (b : UInt8) :
    kind.pin i (e.stamp i b) = e.stamp i (kind.pin i b) := by
  by_cases hi : e.start ≤ i ∧ i < e.stop
  · by_cases h8 : e.start = 8
    · cases e with
      | suppress value | robustness value =>
        obtain rfl : i = 8 := by
          simp only [start, stop] at hi
          omega
        obtain rfl : kind = .v3Query := he
        rw [pin_flags, pin_flags, stamp, QueryFlags.change_change, QueryFlags.change_change]
        rfl
      | _ => simp [start] at h8
    · rw [pin_inside he hi.1 hi.2 h8, pin_inside he hi.1 hi.2 h8]
  · rw [stamp_outside b (by omega), stamp_outside _ (by omega)]

/-- A list written from `start` on and then the word before it. -/
private theorem set_word_patch_eq_mapIdx {start : Nat} {region list : Bytes} (count : UInt16)
    (h : start + 2 + list.length ≤ region.length) :
    (Field.word start).set count (region.patch (start + 2) list) =
      region.mapIdx (overlay start (ofWord count ++ list)) := by
  have hset : (Field.word start).set count (region.patch (start + 2) list) =
      (region.patch (start + 2) list).patch start (ofWord count) := rfl
  have hl := patch_length region (start + 2) list h
  rw [hset, patch_eq_mapIdx (by rw [hl, ofWord_length]; omega), patch_eq_mapIdx h,
    List.mapIdx_mapIdx, List.mapIdx_eq_mapIdx_iff]
  intro i hi
  rw [Function.comp_apply, overlay_append, ofWord_length]
  exact overlay_comm i _ (.inl (Nat.le_refl _))

theorem write_eq_mapIdx {e : Edit} {region : Bytes} (h : e.stop ≤ region.length) :
    e.write region = region.mapIdx e.stamp := by
  cases e with
  | suppress value | robustness value => exact Field.flags_set_eq_mapIdx _ _ value region h
  | sources addresses =>
    apply set_word_patch_eq_mapIdx
    rw [Address.flatMap_octets_length]
    exact h
  | records rs =>
    apply set_word_patch_eq_mapIdx
    rw [GroupRecord.flatMap_layout_length]
    exact h
  | _ => exact patch_eq_mapIdx h

theorem stop_le {e : Edit} {kind : MessageKind} {room : Nat} (h : e.check kind room = .ok ())
    (hr : kind.headerSize ≤ room) : e.stop ≤ room := by
  obtain ⟨ho, hf⟩ := (check_eq_ok_iff e kind room).1 h
  have h8 := kind.eight_le_headerSize
  cases e with
  | sources addresses => exact hf.2
  | records rs => exact hf.2.2
  | maxResponseCode value | suppress value | robustness value | queryInterval value =>
    obtain rfl : kind = .v3Query := ho
    exact Nat.le_trans (by simp [stop, MessageKind.headerSize]) hr
  | _ => exact Nat.le_trans (by simp [stop]) (Nat.le_trans h8 hr)

end Edit
end Igmp
