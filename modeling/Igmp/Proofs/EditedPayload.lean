import Igmp.Proofs.GuardedMessage
import Igmp.Proofs.InPlaceEdit

/-! # Messages edited where they lie in a payload -/
namespace Igmp

namespace Memory

variable {s : Memory}

/-- Memory with room for no more than `room` bytes of it. -/
def narrow (s : Memory) (room : Nat) : Memory where
  bytes := s.bytes
  room := min room s.room
  access := s.access
  room_le := Nat.le_trans (Nat.min_le_right _ _) s.room_le

theorem region_narrow (s : Memory) (room : Nat) : (s.narrow room).region = s.region.take room := by
  rw [region, region, List.take_take]
  rfl

theorem room_narrow {room : Nat} (h : room ≤ s.room) : (s.narrow room).room = room :=
  Nat.min_eq_left h

theorem bytes_of_keeps {after : Memory} (h : Keeps s after) :
    after.bytes = s.bytes.patch 0 after.region := by
  rw [h.bytes_eq, Bytes.patch_zero, region_length, h.room_eq]

end Memory

/-- Takes the message at the start of memory, which then has room for just the message. -/
def InPlace.parse (protocol : Protocol) (total header : Nat) : InPlace MessageKind := fun s =>
  match Guarded.parse s.access s.region protocol total header with
  | .error fault => .error (.outside fault) s
  | .ok (.error cause) => .error (.told (.refused cause)) s
  | .ok (.ok m) => .ok m.kind (s.narrow m.region.length)

theorem InPlace.parse_run (s : Memory) (protocol : Protocol) (total header : Nat) :
    (parse protocol total header).run s =
      match Message.parse s.access s.region protocol total header with
      | .error cause => .error (.told (.refused cause)) s
      | .ok m => .ok m.kind (s.narrow m.region.length) := by
  simp only [parse, EStateM.run, Guarded.parse_eq]
  cases Message.parse s.access s.region protocol total header <;> rfl

namespace Message

/-- Parsing tells the same of a message, whether it may be written or not. -/
theorem parse_access (access access' : Access) (payload : Bytes) (protocol : Protocol)
    (total header : Nat) :
    parse access' payload protocol total header =
      (parse access payload protocol total header).map fun m => { m with access := access' } := by
  unfold parse
  cases regionSize payload.length protocol total header with
  | error cause => rfl
  | ok size =>
    simp only [Guarded.ok_bind]
    cases MessageKind.classify (payload.take size) <;> rfl

end Message

namespace Memory

variable {payload : Bytes} {protocol : Protocol} {total header : Nat} {m : Message}

theorem parse_ofBuffer_error {cause : CodecError}
    (h : Message.parse .readOnly payload protocol total header = .error cause) :
    Message.parse .writable payload protocol total header = .error cause ∧
      (InPlace.parse protocol total header).run (ofBuffer payload) =
        .error (.told (.refused cause)) (ofBuffer payload) := by
  have hparse : Message.parse .writable payload protocol total header = .error cause := by
    rw [Message.parse_access .readOnly, h]
    rfl
  refine ⟨hparse, ?_⟩
  have hregion : (ofBuffer payload).region = payload := region_of_full rfl
  have haccess : (ofBuffer payload).access = .writable := rfl
  rw [InPlace.parse_run, hregion, haccess, hparse]

theorem parse_ofBuffer_ok
    (h : Message.parse .readOnly payload protocol total header = .ok m) :
    Message.parse .writable payload protocol total header = .ok { m with access := .writable } ∧
      (InPlace.parse protocol total header).run (ofBuffer payload) =
        .ok m.kind ((ofBuffer payload).narrow m.region.length) := by
  have hparse : Message.parse .writable payload protocol total header =
      .ok { m with access := .writable } := by
    rw [Message.parse_access .readOnly, h]
    rfl
  refine ⟨hparse, ?_⟩
  have hregion : (ofBuffer payload).region = payload := region_of_full rfl
  have haccess : (ofBuffer payload).access = .writable := rfl
  rw [InPlace.parse_run, hregion, haccess, hparse]

theorem message_narrow_ofBuffer (h : m.region <+: payload) :
    ((ofBuffer payload).narrow m.region.length).message m.kind =
      { m with access := .writable } := by
  have hregion : (ofBuffer payload).region = payload := region_of_full rfl
  rw [message, region_narrow, hregion, ← List.prefix_iff_eq_take.1 h]
  rfl

/-- What a run of edits leaves of memory: the bytes behind the message, and before them the
message. -/
theorem editAll_bytes {s : Memory} {kind : MessageKind} (h : kind.headerSize ≤ s.room)
    (es : List Edit) :
    (s.editAll kind es).bytes.length = s.bytes.length ∧
      (s.editAll kind es).bytes.drop s.room = s.bytes.drop s.room ∧
      ((s.message kind).applyAll es).region = (s.editAll kind es).bytes.take s.room ∧
      ((s.message kind).applyAll es).writeBack s.bytes = (s.editAll kind es).bytes := by
  have hkeeps := keeps_editAll h es
  have hregion : ((s.message kind).applyAll es).region = (s.editAll kind es).region := by
    rw [← message_editAll h es, message]
  refine ⟨hkeeps.length_eq, hkeeps.beyond_eq, ?_, ?_⟩
  · rw [hregion, region, hkeeps.room_eq]
  · rw [Message.writeBack, hregion, bytes_of_keeps hkeeps]

/-- A message parsed in a payload that may be written is the one that is parsed in a payload that
may not, and finding it changes no byte. Then edits of it, well or not, change no byte behind it,
and what they leave at the start of the payload is the message. -/
theorem edits_keep_padding (payload : Bytes) (protocol : Protocol) (total header : Nat) :
    match Message.parse .readOnly payload protocol total header with
    | .error cause =>
      Message.parse .writable payload protocol total header = .error cause ∧
        (InPlace.parse protocol total header).run (ofBuffer payload) =
          .error (.told (.refused cause)) (ofBuffer payload)
    | .ok m =>
      Message.parse .writable payload protocol total header = .ok { m with access := .writable } ∧
        ∃ s, (InPlace.parse protocol total header).run (ofBuffer payload) = .ok m.kind s ∧
          s.bytes = payload ∧ s.message m.kind = { m with access := .writable } ∧
          (s.message m.kind).reading = m.reading ∧ (s.message m.kind).checksum = m.checksum ∧
          (s.message m.kind).size = m.size ∧
          (s.message m.kind).calculatedChecksum = m.calculatedChecksum ∧
          ∀ es,
            (s.editAll m.kind es).bytes.length = payload.length ∧
              (s.editAll m.kind es).bytes.drop (total - header) = payload.drop (total - header) ∧
              ((s.message m.kind).applyAll es).region =
                (s.editAll m.kind es).bytes.take (total - header) ∧
              ((s.message m.kind).applyAll es).writeBack payload = (s.editAll m.kind es).bytes := by
  cases h : Message.parse .readOnly payload protocol total header with
  | error cause => exact parse_ofBuffer_error h
  | ok m =>
    obtain ⟨-, htotal, hprefix, -, hplaced⟩ := Message.parse_eq_ok_iff.1 h
    obtain ⟨hparse, hrun⟩ := parse_ofBuffer_ok h
    have hmessage := message_narrow_ofBuffer hprefix
    have hroom : ((ofBuffer payload).narrow m.region.length).room = total - header := by
      rw [room_narrow hprefix.length_le]
      omega
    refine ⟨hparse, _, hrun, rfl, hmessage, ?_, ?_, ?_, ?_, ?edits⟩
    case edits =>
      intro es
      rw [← hroom]
      apply editAll_bytes
      rw [room_narrow hprefix.length_le]
      exact hplaced.headerSize_le
    all_goals
      rw [hmessage]
      rfl

/-- The padding behind a query has room for a source address, and the query does not take one. -/
example :
    let payload : Bytes := [0x11, 1, 0, 0, 0, 0, 0, 0, 0, 0, 0, 0, 0, 0, 0, 0]
    ((ofBuffer payload).narrow 12).editAll .v3Query [.sources [⟨10, 0, 0, 1⟩]] =
      (ofBuffer payload).narrow 12 := by
  decide

end Memory
end Igmp
