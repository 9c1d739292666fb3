import Igmp.MessageEdit
import Igmp.Proofs.GuardedRead

/-! # Writes in place: what was written before a failure stays written -/
namespace Igmp

namespace Bytes

theorem patch_zero (bs new : Bytes) : bs.patch 0 new = new ++ bs.drop new.length := by
  rw [patch, List.take_zero, List.nil_append, Nat.zero_add]

theorem length_le_patch_length (bs : Bytes) (offset : Nat) (new : Bytes) :
    bs.length ≤ (bs.patch offset new).length := by
  simp only [patch, List.length_append, List.length_take, List.length_drop]
  omega

theorem take_patch {bs new : Bytes} {offset n : Nat} (h : offset + new.length ≤ n)
    (hn : n ≤ bs.length) :
    (bs.patch offset new).take n = Bytes.patch (bs.take n) offset new := by
  have hl := patch_length bs offset new (Nat.le_trans h hn)
  have htake : (bs.take n).length = n := by
    rw [List.length_take, Nat.min_eq_left hn]
  apply ext_byteAt
  · rw [patch_length _ _ _ (by omega), List.length_take, hl, htake, Nat.min_eq_left hn]
  intro i hi
  rw [List.length_take, hl] at hi
  rw [byteAt_take (by omega), patch_eq_mapIdx (Nat.le_trans h hn), patch_eq_mapIdx (by omega),
    byteAt_mapIdx _ (by omega), byteAt_mapIdx _ (by omega), byteAt_take (by omega)]

theorem drop_patch {bs new : Bytes} {offset n : Nat} (h : offset + new.length ≤ n)
    (hn : n ≤ bs.length) :
    (bs.patch offset new).drop n = bs.drop n := by
  have hl := patch_length bs offset new (Nat.le_trans h hn)
  apply ext_byteAt
  · rw [List.length_drop, List.length_drop, hl]
  intro i hi
  rw [List.length_drop, hl] at hi
  rw [byteAt_drop, byteAt_drop, patch_eq_mapIdx (Nat.le_trans h hn), byteAt_mapIdx _ (by omega)]
  exact overlay_outside _ (.inr (by omega))

end Bytes

/-- Bytes in memory, of which the first `room` are a message's. -/
structure Memory where
  bytes : Bytes
  room : Nat
  access : Access
  room_le : room ≤ bytes.length
  deriving DecidableEq

namespace Memory

/-- The bytes that a message is laid over. -/
def region (s : Memory) : Bytes := s.bytes.take s.room

def message (kind : MessageKind) (s : Memory) : Message := ⟨kind, s.access, s.region⟩

/-- A buffer that may be written as a whole. -/
def ofBuffer (buffer : Bytes) : Memory := ⟨buffer, buffer.length, .writable, Nat.le_refl _⟩

def write (s : Memory) (offset : Nat) (new : Bytes) : Memory where
  bytes := s.bytes.patch offset new
  room := s.room
  access := s.access
  room_le := Nat.le_trans s.room_le (Bytes.length_le_patch_length _ _ _)

variable {s : Memory} {offset : Nat} {new : Bytes}

theorem ext_bytes {s s' : Memory} (hb : s.bytes = s'.bytes) (hr : s.room = s'.room)
    (ha : s.access = s'.access) : s = s' := by
  cases s
  cases s'
  cases hb
  cases hr
  cases ha
  rfl

@[simp]
theorem room_write (s : Memory) (offset : Nat) (new : Bytes) : (s.write offset new).room = s.room :=
  rfl

@[simp]
theorem region_length (s : Memory) : s.region.length = s.room := by
  rw [region, List.length_take, Nat.min_eq_left s.room_le]

theorem region_of_full (h : s.bytes.length = s.room) : s.region = s.bytes :=
  List.take_of_length_le (Nat.le_of_eq h)

@[simp]
theorem message_room (s : Memory) (kind : MessageKind) : (s.message kind).region.length = s.room :=
  s.region_length

/-- A write into the room of a message is a write into its region. -/
theorem region_write (h : offset + new.length ≤ s.room) :
    (s.write offset new).region = s.region.patch offset new :=
  Bytes.take_patch h s.room_le

/-- A write into the room of a message, as the region written back over the start of the bytes. -/
theorem write_eq (h : offset + new.length ≤ s.room) :
    s.write offset new = s.write 0 (s.region.patch offset new) := by
  have hl := Bytes.patch_length s.region offset new (by rwa [region_length])
  rw [region_length] at hl
  refine ext_bytes ?_ rfl rfl
  calc s.bytes.patch offset new
    _ = (s.bytes.patch offset new).take s.room ++ (s.bytes.patch offset new).drop s.room :=
      (List.take_append_drop _ _).symm
    _ = s.region.patch offset new ++ s.bytes.drop s.room := by
      rw [Bytes.take_patch h s.room_le, Bytes.drop_patch h s.room_le, region]
    _ = s.bytes.patch 0 (s.region.patch offset new) := by rw [Bytes.patch_zero, hl]

theorem write_ofBuffer {buffer : Bytes} (h : offset + new.length ≤ buffer.length) :
    (ofBuffer buffer).write offset new = ofBuffer (buffer.patch offset new) :=
  ext_bytes rfl (Bytes.patch_length buffer offset new h).symm rfl

theorem write_write (s : Memory) {new new' : Bytes} (h : new.length = new'.length) :
    (s.write 0 new).write 0 new' = s.write 0 new' := by
  refine ext_bytes ?_ rfl rfl
  calc (s.bytes.patch 0 new).patch 0 new'
    _ = new' ++ (new ++ s.bytes.drop new.length).drop new.length := by
      rw [Bytes.patch_zero, Bytes.patch_zero, ← h]
    _ = s.bytes.patch 0 new' := by rw [List.drop_left, Bytes.patch_zero, h]

theorem write_write_eq {offset' : Nat} {new' : Bytes} (h : offset + new.length ≤ s.room)
    (h' : offset' + new'.length ≤ s.room) :
    (s.write offset new).write offset' new' =
      s.write 0 ((s.region.patch offset new).patch offset' new') := by
  have hregion : (s.region.patch offset new).length = s.room := by
    rw [Bytes.patch_length _ _ _ (by rwa [region_length]), region_length]
  have hlen : (s.region.patch offset new).length =
      ((s.region.patch offset new).patch offset' new').length := by
    rw [Bytes.patch_length _ offset' new' (by rwa [hregion])]
  rw [write_eq (s := s.write offset new) h', region_write h, write_eq h, write_write s hlen]

theorem write_append (h : offset ≤ s.room) (new more : Bytes) :
    (s.write offset new).write (offset + new.length) more = s.write offset (new ++ more) :=
  ext_bytes (Bytes.patch_append (Nat.le_trans h s.room_le) more) rfl rfl

/-- A region written back is the region that is read. -/
theorem region_write_zero (h : new.length = s.room) : (s.write 0 new).region = new := by
  rw [region_write (by omega), Bytes.patch_zero, h, ← s.region_length, List.drop_length,
    List.append_nil]

/-- Memory with each byte of the region changed by itself. -/
def change (s : Memory) (f : Nat → UInt8 → UInt8) : Memory := s.write 0 (s.region.mapIdx f)

theorem change_congr {f g : Nat → UInt8 → UInt8}
    (h : ∀ i, f i (s.region.byteAt i) = g i (s.region.byteAt i)) : s.change f = s.change g := by
  have hmap : s.region.mapIdx f = s.region.mapIdx g := by
    rw [List.mapIdx_eq_mapIdx_iff]
    intro i hi
    rw [← Bytes.byteAt_eq_getElem hi]
    exact h i
  rw [change, change, hmap]

theorem write_eq_change (h : offset + new.length ≤ s.room) :
    s.write offset new = s.change (Bytes.overlay offset new) := by
  rw [write_eq h, Bytes.patch_eq_mapIdx (by rwa [region_length]), change]

theorem region_change (s : Memory) (f : Nat → UInt8 → UInt8) :
    (s.change f).region = s.region.mapIdx f :=
  region_write_zero (by rw [List.length_mapIdx, region_length])

theorem change_change (s : Memory) (f g : Nat → UInt8 → UInt8) :
    (s.change f).change g = s.change fun i b => g i (f i b) := by
  have hlen : (s.region.mapIdx f).length = ((s.region.mapIdx f).mapIdx g).length := by
    rw [List.length_mapIdx, List.length_mapIdx, List.length_mapIdx]
  rw [change, region_change, change, write_write s hlen, List.mapIdx_mapIdx]
  rfl

theorem change_write (h : offset + new.length ≤ s.room) (f : Nat → UInt8 → UInt8) :
    (s.change f).write offset new =
      s.change fun i b => Bytes.overlay offset new i (f i b) := by
  rw [write_eq_change (s := s.change f) h, change_change]

theorem write_nil (s : Memory) (offset : Nat) : s.write offset [] = s := by
  refine ext_bytes ?_ rfl rfl
  show s.bytes.patch offset [] = s.bytes
  rw [Bytes.patch, List.nil_append, List.length_nil, Nat.add_zero, List.take_append_drop]

end Memory

/-- Why a write, or an edit made of writes, ends early. -/
inductive WriteFault where
  | told (error : EditError)
  | outside (fault : BoundsFault)
  deriving DecidableEq, Repr

/-- A computation on memory. It may end early, and then leaves memory as it is at that point. -/
abbrev InPlace := EStateM WriteFault Memory

namespace InPlace

def room : InPlace Nat := fun s => .ok s.room s

def require (result : Except EditError Unit) : InPlace Unit := fun s =>
  match result with
  | .ok () => .ok () s
  | .error error => .error (.told error) s

def byteAt (i : Nat) : InPlace UInt8 := fun s =>
  if i < s.room then .ok (s.bytes.byteAt i) s else .error (.outside (.index i s.room)) s

/-- The number of bytes from `offset` on, which must lie in memory that may be written. -/
def roomFrom (offset : Nat) : InPlace Nat := fun s =>
  match s.access with
  | .readOnly => .error (.told .readOnly) s
  | .writable =>
    if offset ≤ s.room then .ok (s.room - offset) s
    else .error (.outside (.range offset s.room s.room)) s

/-- Writes over the bytes from `offset` on. Memory that may not be written is told of before a
range that is not there. -/
def put (offset : Nat) (new : Bytes) : InPlace Unit := fun s =>
  match s.access with
  | .readOnly => .error (.told .readOnly) s
  | .writable =>
    if offset + new.length ≤ s.room then .ok () (s.write offset new)
    else .error (.outside (.range offset (offset + new.length) s.room)) s

/-- Writes one word after another. -/
def putAll (offset : Nat) : List Bytes → InPlace Unit
  | [] => pure ()
  | word :: words => do
    put offset word
    putAll (offset + word.length) words

section Run

variable {α β : Type} {x : InPlace α} {f : α → InPlace β} {s s' : Memory}

theorem run_bind_ok {a : α} (h : x.run s = .ok a s') : (x >>= f).run s = (f a).run s' := by
  simp only [EStateM.run] at h
  simp only [EStateM.run, bind, EStateM.bind, h]

theorem run_bind_error {fault : WriteFault} (h : x.run s = .error fault s') :
    (x >>= f).run s = .error fault s' := by
  simp only [EStateM.run] at h
  simp only [EStateM.run, bind, EStateM.bind, h]

theorem require_ok {result : Except EditError Unit} (h : result = .ok ()) :
    (require result).run s = .ok () s := by
  subst h
  rfl

theorem require_error {result : Except EditError Unit} {error : EditError}
    (h : result = .error error) : (require result).run s = .error (.told error) s := by
  subst h
  rfl

theorem byteAt_run {i : Nat} (h : i < s.room) : (byteAt i).run s = .ok (s.region.byteAt i) s := by
  rw [Memory.region, Bytes.byteAt_take h]
  exact if_pos h

theorem put_readOnly (ha : s.access = .readOnly) (offset : Nat) (new : Bytes) :
    (put offset new).run s = .error (.told .readOnly) s := by
  simp only [put, EStateM.run, ha]

theorem roomFrom_readOnly (ha : s.access = .readOnly) (offset : Nat) :
    (roomFrom offset).run s = .error (.told .readOnly) s := by
  simp only [roomFrom, EStateM.run, ha]

section Writable

variable (ha : s.access = .writable) {offset : Nat}

include ha

theorem roomFrom_run (h : offset ≤ s.room) :
    (roomFrom offset).run s = .ok (s.room - offset) s := by
  simp only [roomFrom, EStateM.run, ha, if_pos h]

theorem put_run {new : Bytes} (h : offset + new.length ≤ s.room) :
    (put offset new).run s = .ok () (s.write offset new) := by
  simp only [put, EStateM.run, ha, if_pos h]

theorem putAll_run {words : List Bytes} (h : offset + words.flatten.length ≤ s.room) :
    (putAll offset words).run s = .ok () (s.write offset words.flatten) := by
  induction words generalizing s offset with
  | nil =>
    rw [List.flatten_nil, Memory.write_nil]
    rfl
  | cons word words ih =>
    rw [List.flatten_cons, List.length_append] at h
    have hrest : (putAll (offset + word.length) words).run (s.write offset word) =
        .ok () ((s.write offset word).write (offset + word.length) words.flatten) := by
      apply ih (s := s.write offset word) ha
      rw [Memory.room_write]
      omega
    rw [putAll, run_bind_ok (put_run ha (by omega)), hrest, Memory.write_append (by omega),
      List.flatten_cons]

end Writable

end Run

end InPlace
end Igmp
