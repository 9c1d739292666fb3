import Igmp.Address
import Igmp.TimeCode

/-! Fields at fixed places in a message: each reads a value from its bytes and writes one over them. -/
namespace Igmp

/-- A place in a message with the meaning of its bytes. `encode` is given the bytes that are replaced,
so that a field may keep the bits beside its own. -/
structure Field (α : Type) where
  offset : Nat
  width : Nat
  decode : Bytes → α
  encode : α → Bytes → Bytes

/-- The byte that holds the suppress flag and the robustness variable of a version 3 query. -/
structure QueryFlags where
  reserved : Fin 16
  suppress : Bool
  robustness : Robustness
  deriving DecidableEq, Repr

namespace QueryFlags

def ofByte (b : UInt8) : QueryFlags where
  reserved := ⟨b.toNat / 16, by have := b.toNat_lt; omega⟩
  suppress := b.toNat / 8 % 2 = 1
  robustness := ⟨b.toNat % 8, by omega⟩

def toByte (f : QueryFlags) : UInt8 :=
  UInt8.ofNat (16 * f.reserved + (if f.suppress then 8 else 0) + f.robustness.value)

theorem toByte_ofByte (b : UInt8) : (ofByte b).toByte = b := by
  have h := b.toNat_lt
  apply UInt8.toNat_inj.mp
  simp only [toByte, ofByte, decide_eq_true_eq, UInt8.toNat_ofNat']
  split <;> omega

theorem ofByte_toByte (f : QueryFlags) : ofByte f.toByte = f := by
  obtain ⟨reserved, suppress, ⟨robustness⟩⟩ := f
  have hr := reserved.isLt
  have hv := robustness.isLt
  cases suppress <;> simp [toByte, ofByte, Fin.ext_iff] <;> omega

end QueryFlags

namespace Field

variable {α : Type}

def get (f : Field α) (message : Bytes) : α := f.decode (message.slice f.offset f.width)

def set (f : Field α) (value : α) (message : Bytes) : Bytes :=
  message.patch f.offset (f.encode value (message.slice f.offset f.width))

/-- A field writes as many bytes as it reads, and reads from them the value that was written. -/
structure Lawful (f : Field α) : Prop where
  encode_length : ∀ value old, (f.encode value old).length = f.width
  decode_encode : ∀ value old, f.decode (f.encode value old) = value

theorem set_length {f : Field α} (hf : f.Lawful) (value : α) (message : Bytes)
    (h : f.offset + f.width ≤ message.length) : (f.set value message).length = message.length :=
  Bytes.patch_length _ _ _ (by rw [hf.encode_length]; exact h)

theorem get_set {f : Field α} (hf : f.Lawful) (value : α) (message : Bytes)
    (h : f.offset + f.width ≤ message.length) : f.get (f.set value message) = value := by
  have hs := Bytes.slice_patch message f.offset (f.encode value (message.slice f.offset f.width)) (by omega)
  rw [hf.encode_length] at hs
  rw [get, set, hs, hf.decode_encode]

/-- A field of one byte. -/
def byte (offset : Nat) (decode : UInt8 → α) (encode : α → UInt8) : Field α where
  offset
  width := 1
  decode bs := decode (bs.byteAt 0)
  encode value _ := [encode value]

theorem byte_lawful {offset : Nat} {decode : UInt8 → α} {encode : α → UInt8}
    (h : ∀ value, decode (encode value) = value) : (byte offset decode encode).Lawful :=
  ⟨fun _ _ => rfl, fun value _ => h value⟩

/-- A field of some bits of the flag byte. -/
def flags (decode : QueryFlags → α) (encode : α → QueryFlags → QueryFlags) : Field α where
  offset := 8
  width := 1
  decode bs := decode (.ofByte (bs.byteAt 0))
  encode value old := [(encode value (.ofByte (old.byteAt 0))).toByte]

theorem flags_lawful {decode : QueryFlags → α} {encode : α → QueryFlags → QueryFlags}
    (h : ∀ value old, decode (encode value old) = value) : (flags decode encode).Lawful :=
  ⟨fun _ _ => rfl, fun value old => by
    simpa [flags, Bytes.byteAt, QueryFlags.ofByte_toByte] using h value (.ofByte (old.byteAt 0))⟩

/-- A big-endian word. -/
def word (offset : Nat) : Field UInt16 where
  offset
  width := 2
  decode bs := bs.wordAt 0
  encode value _ := Bytes.ofWord value

theorem word_lawful (offset : Nat) : (word offset).Lawful :=
  ⟨fun _ _ => rfl, fun value _ => Bytes.word_ofWord value⟩

def typeCode : Field UInt8 := byte 0 id id

def responseTime : Field ResponseTime := byte 1 .mk (·.value)

def maxResponseCode : Field MaxResponseCode := byte 1 .mk (·.code)

def checksum : Field UInt16 := word 2

def group : Field Address where
  offset := 4
  width := 4
  decode := .ofBytes
  encode value _ := value.octets

theorem group_lawful : group.Lawful := ⟨fun _ _ => rfl, fun value _ => Address.ofBytes_octets value⟩

def recordCount : Field UInt16 := word 6

def reserved : Field (Fin 16) := flags (·.reserved) fun value old => { old with reserved := value }

def suppress : Field Bool := flags (·.suppress) fun value old => { old with suppress := value }

def robustness : Field Robustness := flags (·.robustness) fun value old => { old with robustness := value }

def queryInterval : Field QueryIntervalCode := byte 9 .mk (·.code)

def sourceCount : Field UInt16 := word 10

end Field
end Igmp
