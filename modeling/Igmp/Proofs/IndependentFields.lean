import Igmp.Proofs.DraftReading
import Igmp.Proofs.InPlaceEdit
import Igmp.Proofs.PinnedBytes

/-!
# The fields of a version 3 query are independent

Two edits of different places commute, whatever the bytes were. So a value that is stored stays
stored through an edit of another place, and each field reads as it did. A field of the header holds
some value whatever its bytes are. The list of sources need not be there in full, but it lies behind
all other fields.
-/

namespace Igmp

namespace Edit

variable {kind : MessageKind} {e e' : Edit} {region : Bytes}

/-- What is stored stays stored through an edit of another place. -/
theorem Stored.stamp (h : e'.Stored region) (ho : e.Offered kind) (ho' : e'.Offered kind)
    (hne : e.place ≠ e'.place) : e'.Stored (region.mapIdx e.stamp) := by
  rw [stored_iff (by simpa using h.stop_le)]
  intro i hi
  rw [List.length_mapIdx] at hi
  have hheld : e'.stamp i (region.byteAt i) = region.byteAt i := (stored_iff h.stop_le).1 h i hi
  -- The stored value is written first instead, where it changes nothing.
  rw [Bytes.byteAt_mapIdx _ hi, ← stamp_comm ho ho' hne, hheld]

/-- The edits of a place in the header of a query, each of which sets the field there. -/
structure Sets {α : Type} (p : Place) (own : α → Edit) (f : Field α) : Prop where
  lawful : f.Lawful
  faithful : f.Faithful
  offered : ∀ value, (own value).Offered .v3Query
  place_eq : ∀ value, (own value).place = p
  stop_eq : ∀ value, (own value).stop = f.offset + f.width
  stop_le : f.offset + f.width ≤ 12
  write_eq : ∀ value region, (own value).write region = f.set value region

theorem checksum_sets : Sets .checksum checksum Field.checksum :=
  ⟨Field.word_lawful 2, Field.word_faithful 2, fun _ => trivial, fun _ => rfl, fun _ => rfl,
    by decide, fun _ _ => rfl⟩

theorem group_sets : Sets .group group Field.group :=
  ⟨Field.group_lawful, Field.group_faithful, fun _ => rfl, fun _ => rfl, fun _ => rfl, by decide,
    fun _ _ => rfl⟩

theorem maxResponseCode_sets : Sets .maxResponseCode maxResponseCode Field.maxResponseCode :=
  ⟨Field.byte_lawful fun _ => rfl, Field.byte_faithful fun _ => rfl, fun _ => rfl, fun _ => rfl,
    fun _ => rfl, by decide, fun _ _ => rfl⟩

theorem suppress_sets : Sets .suppress suppress Field.suppress :=
  ⟨Field.flags_lawful fun _ _ => rfl, Field.flags_faithful fun _ => rfl, fun _ => rfl,
    fun _ => rfl, fun _ => rfl, by decide, fun _ _ => rfl⟩

theorem robustness_sets : Sets .robustness robustness Field.robustness :=
  ⟨Field.flags_lawful fun _ _ => rfl, Field.flags_faithful fun _ => rfl, fun _ => rfl,
    fun _ => rfl, fun _ => rfl, by decide, fun _ _ => rfl⟩

theorem queryInterval_sets : Sets .queryInterval queryInterval Field.queryInterval :=
  ⟨Field.byte_lawful fun _ => rfl, Field.byte_faithful fun _ => rfl, fun _ => rfl, fun _ => rfl,
    fun _ => rfl, by decide, fun _ _ => rfl⟩

namespace Sets

variable {α : Type} {p : Place} {own : α → Edit} {f : Field α} (h : Sets p own f)
  (hr : 12 ≤ region.length)

include h

theorem get_of_stored {value : α} (hs : (own value).Stored region) : f.get region = value :=
  hs.get_eq h.lawful (h.stop_eq value).symm (h.write_eq value region)

include hr

/-- A field holds the value that is read from it. -/
theorem stored_get : (own (f.get region)).Stored region := by
  have hroom : f.offset + f.width ≤ region.length := Nat.le_trans h.stop_le hr
  constructor
  · rwa [h.stop_eq]
  · rw [h.write_eq, Field.set_get h.faithful hroom]

theorem get_stamp_self (value : α) : f.get (region.mapIdx (own value).stamp) = value := by
  apply h.get_of_stored
  apply stored_stamp
  rw [h.stop_eq]
  exact Nat.le_trans h.stop_le hr

theorem get_stamp_of_ne (ho : e.Offered .v3Query) (hne : p ≠ e.place) :
    f.get (region.mapIdx e.stamp) = f.get region := by
  apply h.get_of_stored
  apply (h.stored_get hr).stamp ho (h.offered _)
  rw [h.place_eq]
  exact hne.symm

end Sets

/-- The list of sources lies behind all that other edits change. -/
theorem stop_le_of_place_ne (ho : e.Offered .v3Query) (hne : e.place ≠ .sources) :
    e.stop ≤ 10 := by
  cases e with
  | sources addresses => exact absurd rfl hne
  | responseTime value | records rs => cases ho
  | _ => simp [stop]

theorem slice_stamp {offset width : Nat} (h : e.stop ≤ offset) :
    Bytes.slice (region.mapIdx e.stamp) offset width = region.slice offset width := by
  have hdrop : (region.mapIdx e.stamp).drop offset = region.drop offset :=
    Bytes.drop_mapIdx_of_eq fun _ b hi => stamp_outside b (.inr (Nat.le_trans h hi))
  rw [Bytes.slice, Bytes.slice, hdrop]

/-- The bits at index `i` that are the edit's to change. -/
def bits : Edit → Nat → UInt8
  | suppress _, i => if i = 8 then 0x08 else 0
  | robustness _, i => if i = 8 then 0x07 else 0
  | e, i => if e.start ≤ i ∧ i < e.stop then 0xff else 0

theorem suppress_toByte_and (b : UInt8) (value : Bool) :
    ({ QueryFlags.ofByte b with suppress := value } : QueryFlags).toByte &&& ~~~0x08 =
      b &&& ~~~0x08 := by
  obtain ⟨⟨b⟩⟩ := b
  revert b value
  decide +kernel

theorem robustness_toByte_and (b : UInt8) (value : Robustness) :
    ({ QueryFlags.ofByte b with robustness := value } : QueryFlags).toByte &&& ~~~0x07 =
      b &&& ~~~0x07 := by
  obtain ⟨⟨b⟩⟩ := b
  obtain ⟨value⟩ := value
  revert b value
  decide +kernel

/-- An edit keeps the bits that are not its own. -/
theorem stamp_and_not_bits (e : Edit) (i : Nat) (b : UInt8) :
    e.stamp i b &&& ~~~e.bits i = b &&& ~~~e.bits i := by
  by_cases hi : e.start ≤ i ∧ i < e.stop
  · cases e with
    | suppress value =>
      obtain rfl : i = 8 := Nat.le_antisymm (Nat.le_of_lt_succ hi.2) hi.1
      exact suppress_toByte_and b value
    | robustness value =>
      obtain rfl : i = 8 := Nat.le_antisymm (Nat.le_of_lt_succ hi.2) hi.1
      exact robustness_toByte_and b value
    | _ =>
      have hnone : ~~~(0xff : UInt8) = 0 := rfl
      simp only [bits, if_pos hi, hnone, UInt8.and_zero]
  · rw [stamp_outside b (by omega)]

/-- No edit of a query changes the bits beside the flags. -/
theorem reserved_stamp (ho : e.Offered .v3Query) (b : UInt8) :
    (QueryFlags.ofByte (e.stamp 8 b)).reserved = (QueryFlags.ofByte b).reserved := by
  cases e with
  | suppress value | robustness value =>
    rw [stamp, QueryFlags.change, if_pos rfl, QueryFlags.ofByte_toByte]
  | responseTime value | records rs => cases ho
  | _ => rw [stamp_outside b (by simp [start, stop])]

end Edit

namespace Message

/-- What a query holds at a place, as the edit that would write it. -/
def held? (m : Message) : Edit.Place → Option Edit
  | .checksum => some (.checksum m.checksum)
  | .group => m.group?.map .group
  | .maxResponseCode => some (.maxResponseCode m.maxResponseCode)
  | .suppress => some (.suppress m.suppress)
  | .robustness => some (.robustness m.robustness)
  | .queryInterval => some (.queryInterval m.queryInterval)
  | .sources => some (.sources m.sources)
  | .responseTime | .records => none

/-- The message after an edit that takes place. -/
def stamp (e : Edit) (m : Message) : Message := { m with region := m.region.mapIdx e.stamp }

variable {e : Edit} {m : Message}

theorem sources_stamp (h : e.stop ≤ 10) :
    (m.stamp e).sourceCount = m.sourceCount ∧ (m.stamp e).sources = m.sources := by
  have hcount : (m.stamp e).sourceCount = m.sourceCount :=
    congrArg (fun bs => (Field.sourceCount.decode bs).toNat) (Edit.slice_stamp h)
  refine ⟨hcount, ?_⟩
  rw [sources, sources, hcount, stamp, Edit.slice_stamp (Nat.le_trans h (by decide))]

/-- The edit `e` of the query `m` has set its field, and every other field of `edited` reads as it
did. -/
structure SetsField (e : Edit) (m edited : Message) : Prop where
  held_self : edited.held? e.place = some e
  held_other : ∀ p, p ≠ e.place → edited.held? p = m.held? p
  written : ∀ addresses, e = .sources addresses →
    edited.sourceCount = addresses.length ∧ edited.size = 12 + 4 * addresses.length
  kept : e.place ≠ .sources → edited.sourceCount = m.sourceCount ∧ edited.size = m.size
  reserved_eq : Field.reserved.get edited.region = Field.reserved.get m.region

theorem reserved_stamp (hr : 12 ≤ m.region.length) (ho : e.Offered .v3Query) :
    Field.reserved.get (m.stamp e).region = Field.reserved.get m.region := by
  have hget (bs : Bytes) : Field.reserved.get bs = (QueryFlags.ofByte (bs.byteAt 8)).reserved :=
    congrArg (fun b => (QueryFlags.ofByte b).reserved) (Bytes.byteAt_slice (by decide))
  rw [hget, hget, stamp, Bytes.byteAt_mapIdx _ (by omega), Edit.reserved_stamp ho]

section Query

variable (hk : m.kind = .v3Query)

include hk

theorem size_of_v3Query : m.size = min (12 + 4 * m.sourceCount) m.region.length := by
  simp only [size, hk]

theorem size_stamp_of_stop_le (h : e.stop ≤ 10) : (m.stamp e).size = m.size := by
  rw [size_of_v3Query hk, size_of_v3Query (m := m.stamp e) hk, (sources_stamp h).1, stamp,
    List.length_mapIdx]

theorem held?_group : m.held? .group = some (.group (Field.group.get m.region)) := by
  simp only [held?, group?, hk, Option.map_some]

theorem sources_written {addresses : List Address}
    (hf : (Edit.sources addresses).Fits m.region.length) :
    (m.stamp (.sources addresses)).sources = addresses ∧
      (m.stamp (.sources addresses)).sourceCount = addresses.length ∧
      (m.stamp (.sources addresses)).size = 12 + 4 * addresses.length := by
  have hstored : (Edit.sources addresses).Stored (m.stamp (.sources addresses)).region :=
    Edit.stored_stamp hf.2
  have hcount : (m.stamp (.sources addresses)).sourceCount = addresses.length :=
    hstored.sourceCount_toNat hf.1
  -- All of the list is in the region, so neither the addresses nor the size are cut.
  refine ⟨?_, hcount, ?_⟩
  · rw [sources, hcount, hstored.sources_eq]
  · rw [size_of_v3Query (m := m.stamp (.sources addresses)) hk, hcount, stamp, List.length_mapIdx]
    exact Nat.min_eq_left hf.2

variable (hr : 12 ≤ m.region.length)

include hr

theorem held?_stamp_of_ne (ho : e.Offered .v3Query) {p : Edit.Place} (hne : p ≠ e.place) :
    (m.stamp e).held? p = m.held? p := by
  cases p with
  | checksum =>
    exact congrArg (some <| Edit.checksum ·) (Edit.checksum_sets.get_stamp_of_ne hr ho hne)
  | group =>
    rw [held?_group hk, held?_group (m := m.stamp e) hk]
    exact congrArg (some <| Edit.group ·) (Edit.group_sets.get_stamp_of_ne hr ho hne)
  | maxResponseCode =>
    exact congrArg (some <| Edit.maxResponseCode ·)
      (Edit.maxResponseCode_sets.get_stamp_of_ne hr ho hne)
  | suppress =>
    exact congrArg (some <| Edit.suppress ·) (Edit.suppress_sets.get_stamp_of_ne hr ho hne)
  | robustness =>
    exact congrArg (some <| Edit.robustness ·) (Edit.robustness_sets.get_stamp_of_ne hr ho hne)
  | queryInterval =>
    exact congrArg (some <| Edit.queryInterval ·)
      (Edit.queryInterval_sets.get_stamp_of_ne hr ho hne)
  | sources =>
    have hstop := Edit.stop_le_of_place_ne ho hne.symm
    exact congrArg (some <| Edit.sources ·) (sources_stamp hstop).2
  | responseTime | records => rfl

theorem held?_stamp_self (ho : e.Offered .v3Query) (hf : e.Fits m.region.length) :
    (m.stamp e).held? e.place = some e := by
  cases e with
  | checksum value =>
    exact congrArg (some <| Edit.checksum ·) (Edit.checksum_sets.get_stamp_self hr value)
  | group value =>
    rw [Edit.place, held?_group (m := m.stamp (.group value)) hk]
    exact congrArg (some <| Edit.group ·) (Edit.group_sets.get_stamp_self hr value)
  | maxResponseCode value =>
    exact congrArg (some <| Edit.maxResponseCode ·)
      (Edit.maxResponseCode_sets.get_stamp_self hr value)
  | suppress value =>
    exact congrArg (some <| Edit.suppress ·) (Edit.suppress_sets.get_stamp_self hr value)
  | robustness value =>
    exact congrArg (some <| Edit.robustness ·) (Edit.robustness_sets.get_stamp_self hr value)
  | queryInterval value =>
    exact congrArg (some <| Edit.queryInterval ·) (Edit.queryInterval_sets.get_stamp_self hr value)
  | sources addresses => exact congrArg (some <| Edit.sources ·) (sources_written hk hf).1
  | responseTime value | records rs => cases ho

theorem setsField_stamp (ho : e.Offered .v3Query) (hf : e.Fits m.region.length) :
    SetsField e m (m.stamp e) := by
  constructor
  case held_self => exact held?_stamp_self hk hr ho hf
  case held_other => exact fun p hne => held?_stamp_of_ne hk hr ho hne
  case written =>
    rintro addresses rfl
    exact (sources_written hk hf).2
  case kept =>
    intro hne
    have hstop := Edit.stop_le_of_place_ne ho hne
    exact ⟨(sources_stamp hstop).1, size_stamp_of_stop_le hk hstop⟩
  case reserved_eq => exact reserved_stamp hr ho

end Query

end Message

namespace Memory

variable {s : Memory}

theorem keeps_change (s : Memory) (f : Nat → UInt8 → UInt8) : Keeps s (s.change f) :=
  keeps_write (by rw [List.length_mapIdx, region_length])

/-- A change of the region shows in memory as far as the region goes. -/
theorem byteAt_change (s : Memory) (f : Nat → UInt8 → UInt8) (i : Nat) :
    (s.change f).bytes.byteAt i =
      if i < s.room then f i (s.bytes.byteAt i) else s.bytes.byteAt i := by
  split
  case isTrue hi =>
    have htake : (s.change f).bytes.take s.room = s.region.mapIdx f := s.region_change f
    rw [← Bytes.byteAt_take hi, htake, Bytes.byteAt_mapIdx f (by rwa [region_length]), region,
      Bytes.byteAt_take hi]
  case isFalse hi =>
    obtain ⟨k, rfl⟩ := Nat.exists_eq_add_of_le (Nat.le_of_not_lt hi)
    rw [← Bytes.byteAt_drop, (keeps_change s f).beyond_eq, Bytes.byteAt_drop]

theorem message_change (s : Memory) (e : Edit) (kind : MessageKind) :
    (s.change e.stamp).message kind = (s.message kind).stamp e := by
  rw [message, region_change]
  rfl

theorem byteAt_change_and_not_bits (s : Memory) (e : Edit) (i : Nat) :
    (s.change e.stamp).bytes.byteAt i &&& ~~~e.bits i = s.bytes.byteAt i &&& ~~~e.bits i := by
  rw [byteAt_change]
  split
  · exact e.stamp_and_not_bits i _
  · rfl

section Edit

variable {kind : MessageKind} {e e' : Edit}

theorem change_stamp_comm (s : Memory) (ho : e.Offered kind) (ho' : e'.Offered kind)
    (hne : e.place ≠ e'.place) :
    (s.change e.stamp).change e'.stamp = (s.change e'.stamp).change e.stamp := by
  rw [change_change, change_change]
  exact change_congr fun i => (Edit.stamp_comm ho ho' hne i _).symm

/-- An edit of memory that may be written is a change of each byte by itself, if it succeeds. -/
theorem edit_run_eq_ok_iff {after : Memory} (h : kind.headerSize ≤ s.room)
    (ha : s.access = .writable) :
    (InPlace.edit kind e).run s = .ok () after ↔
      e.Offered kind ∧ e.Fits s.room ∧ after = s.change e.stamp := by
  have hedit (edited : Message) : (s.message kind).edit e = .ok edited ↔
      e.Offered kind ∧ e.Fits s.room ∧ edited = (s.message kind).stamp e := by
    rw [Message.edit_eq_ok_iff ha (headerSize_le_message h), message_room]
    rfl
  rw [InPlace.edit_run h]
  cases he : (s.message kind).edit e with
  | error cause =>
    refine ⟨nofun, fun ⟨ho, hf, _⟩ => ?_⟩
    rw [(hedit _).2 ⟨ho, hf, rfl⟩] at he
    nomatch he
  | ok edited =>
    obtain ⟨ho, hf, rfl⟩ := (hedit edited).1 he
    constructor
    · rintro ⟨⟩
      exact ⟨ho, hf, rfl⟩
    · rintro ⟨-, -, rfl⟩
      rfl

/-- Edits of different places that both succeed do so in either order, and to the same end. -/
theorem edit_run_comm {after after' : Memory} (h : kind.headerSize ≤ s.room)
    (ha : s.access = .writable) (hne : e.place ≠ e'.place)
    (hrun : (InPlace.edit kind e).run s = .ok () after)
    (hrun' : (InPlace.edit kind e').run s = .ok () after') :
    ∃ last, (InPlace.edit kind e').run after = .ok () last ∧
      (InPlace.edit kind e).run after' = .ok () last := by
  obtain ⟨ho, hf, rfl⟩ := (edit_run_eq_ok_iff h ha).1 hrun
  obtain ⟨ho', hf', rfl⟩ := (edit_run_eq_ok_iff h ha).1 hrun'
  refine ⟨(s.change e.stamp).change e'.stamp, ?_, ?_⟩
  · exact (edit_run_eq_ok_iff (s := s.change e.stamp) h ha).2 ⟨ho', hf', rfl⟩
  · rw [change_stamp_comm s ho ho' hne]
    exact (edit_run_eq_ok_iff (s := s.change e'.stamp) h ha).2 ⟨ho, hf, rfl⟩

end Edit

/-- An edit of a query succeeds exactly where its value fits; it then sets its own field and leaves
all other fields and bits as they are. Of edits of two fields it does not matter which is first. -/
theorem edit_query_fields_independent (h : 12 ≤ s.room) (ha : s.access = .writable) :
    (∀ e, (∃ after, (InPlace.edit .v3Query e).run s = .ok () after) ↔
      e.Offered .v3Query ∧ e.Fits s.room) ∧
    (∀ e after, (InPlace.edit .v3Query e).run s = .ok () after →
      (s.message .v3Query).SetsField e (after.message .v3Query) ∧
      after.bytes.length = s.bytes.length ∧
      ∀ i, after.bytes.byteAt i &&& ~~~e.bits i = s.bytes.byteAt i &&& ~~~e.bits i) ∧
    ∀ e e' after after', e.place ≠ e'.place →
      (InPlace.edit .v3Query e).run s = .ok () after →
      (InPlace.edit .v3Query e').run s = .ok () after' →
      ∃ last, (InPlace.edit .v3Query e').run after = .ok () last ∧
        (InPlace.edit .v3Query e).run after' = .ok () last := by
  have hheader : MessageKind.v3Query.headerSize ≤ s.room := h
  refine ⟨fun e => ⟨?_, ?_⟩, ?_, fun e e' after after' => edit_run_comm hheader ha⟩
  · rintro ⟨after, hrun⟩
    obtain ⟨ho, hf, -⟩ := (edit_run_eq_ok_iff hheader ha).1 hrun
    exact ⟨ho, hf⟩
  · rintro ⟨ho, hf⟩
    exact ⟨_, (edit_run_eq_ok_iff hheader ha).2 ⟨ho, hf, rfl⟩⟩
  · intro e after hrun
    obtain ⟨ho, hf, rfl⟩ := (edit_run_eq_ok_iff hheader ha).1 hrun
    rw [← s.message_room .v3Query] at hf h
    rw [message_change]
    exact ⟨Message.setsField_stamp rfl h ho hf, (keeps_change s _).length_eq,
      byteAt_change_and_not_bits s e⟩

/-- A query that declares more sources than there are, with bits set beside its flags. -/
theorem edit_query_fields_independent_cut :
    let s : Memory :=
      ⟨[0x11, 0x20, 1, 2, 224, 0, 0, 1, 0xfd, 9, 0xff, 0xff, 10, 0, 0, 1, 7, 7], 17, .writable,
        by decide⟩
    let e := Edit.suppress false
    let e' := Edit.sources [⟨10, 0, 0, 2⟩]
    12 ≤ s.room ∧ s.access = .writable ∧ e.place ≠ e'.place ∧
      ∃ after after' last, (InPlace.edit .v3Query e).run s = .ok () after ∧
        (InPlace.edit .v3Query e').run s = .ok () after' ∧
        (s.message .v3Query).SetsField e (after.message .v3Query) ∧
        (s.message .v3Query).SetsField e' (after'.message .v3Query) ∧
        (InPlace.edit .v3Query e').run after = .ok () last ∧
        (InPlace.edit .v3Query e).run after' = .ok () last := by
  intro s e e'
  have hroom : 12 ≤ s.room := by decide
  have hne : e.place ≠ e'.place := by decide
  obtain ⟨hsucceeds, hsets, hcomm⟩ := edit_query_fields_independent hroom rfl
  obtain ⟨after, hrun⟩ := (hsucceeds e).2 ⟨rfl, trivial⟩
  obtain ⟨after', hrun'⟩ := (hsucceeds e').2 ⟨rfl, by decide, by decide⟩
  obtain ⟨last, hlast, hlast'⟩ := hcomm e e' after after' hne hrun hrun'
  exact ⟨hroom, rfl, hne, after, after', last, hrun, hrun', (hsets e after hrun).1,
    (hsets e' after' hrun').1, hlast, hlast'⟩

end Memory

end Igmp
