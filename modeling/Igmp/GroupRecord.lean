import Igmp.Address
import Igmp.CodecError

/-! Group records of version 3 reports: a group, its sources and auxiliary words, and their bytes. -/
namespace Igmp

inductive RecordType where
  | modeIsInclude
  | modeIsExclude
  | changeToIncludeMode
  | changeToExcludeMode
  | allowNewSources
  | blockOldSources
  deriving DecidableEq, Repr

namespace RecordType

def code : RecordType → UInt8
  | modeIsInclude => 1
  | modeIsExclude => 2
  | changeToIncludeMode => 3
  | changeToExcludeMode => 4
  | allowNewSources => 5
  | blockOldSources => 6

def ofCode? (code : UInt8) : Option RecordType :=
  if code = 1 then some modeIsInclude
  else if code = 2 then some modeIsExclude
  else if code = 3 then some changeToIncludeMode
  else if code = 4 then some changeToExcludeMode
  else if code = 5 then some allowNewSources
  else if code = 6 then some blockOldSources
  else none

def name : RecordType → String
  | modeIsInclude => "ModeIsInclude"
  | modeIsExclude => "ModeIsExclude"
  | changeToIncludeMode => "ChangeToIncludeMode"
  | changeToExcludeMode => "ChangeToExcludeMode"
  | allowNewSources => "AllowNewSources"
  | blockOldSources => "BlockOldSources"

theorem ofCode?_code (t : RecordType) : ofCode? t.code = some t := by cases t <;> rfl

end RecordType

/-- Four bytes of auxiliary data. -/
structure AuxiliaryWord where
  a : UInt8
  b : UInt8
  c : UInt8
  d : UInt8
  deriving DecidableEq, Repr

namespace AuxiliaryWord

def bytes (w : AuxiliaryWord) : Bytes := [w.a, w.b, w.c, w.d]

def ofBytes : Bytes → Except CodecError AuxiliaryWord
  | [a, b, c, d] => .ok ⟨a, b, c, d⟩
  | bs => .error (.outOfRange (.auxiliaryWordSize bs.length))

/-- The words of a run of bytes, which must come out even. -/
def listOfBytes (bs : Bytes) : Except CodecError (List AuxiliaryWord) :=
  if bs.length % 4 = 0 then .ok (bs.fours mk) else .error (.outOfRange (.auxiliaryDataSize bs.length))

theorem flatMap_bytes_length (ws : List AuxiliaryWord) : (ws.flatMap bytes).length = 4 * ws.length := by
  induction ws with
  | nil => rfl
  | cons w ws ih => simp [ih, bytes]; omega

theorem fours_bytes (ws : List AuxiliaryWord) : Bytes.fours mk (ws.flatMap bytes) = ws := by
  induction ws with
  | nil => exact Bytes.fours_short mk [] (by decide)
  | cons w ws ih => simp [bytes, Bytes.fours_cons, ih]

end AuxiliaryWord

structure GroupRecord where
  type : RecordType
  group : Address
  sources : List Address
  auxiliary : List AuxiliaryWord
  deriving DecidableEq, Repr

/-- Why no record can be read from a run of bytes. -/
inductive RecordFault where
  | truncated (minimum provided : Nat)
  | unknownType (code : UInt8)
  deriving DecidableEq, Repr

def RecordFault.toCodecError : RecordFault → CodecError
  | truncated minimum provided => .insufficientBuffer .groupRecord minimum provided
  | unknownType code => .unknownCode .recordType code

namespace GroupRecord

/-- The size of a record without sources and auxiliary words. -/
def headerSize : Nat := 8

def maxSources : Nat := 65535

def maxAuxiliaryWords : Nat := 255

def size (r : GroupRecord) : Nat := headerSize + 4 * r.sources.length + 4 * r.auxiliary.length

/-- The sizes of some records taken together. -/
def totalSize (rs : List GroupRecord) : Nat := rs.foldl (fun total r => total + r.size) 0

/-- The first count that does not fit its place, if any. -/
def fault? (r : GroupRecord) : Option RangeFault :=
  if maxSources < r.sources.length then some (.recordSources r.sources.length)
  else if maxAuxiliaryWords < r.auxiliary.length then some (.recordAuxiliaryWords r.auxiliary.length)
  else none

/-- The bytes of a record whose counts fit. -/
def layout (r : GroupRecord) : Bytes :=
  [r.type.code, UInt8.ofNat r.auxiliary.length] ++ Bytes.ofWord (UInt16.ofNat r.sources.length) ++
    r.group.octets ++ r.sources.flatMap Address.octets ++ r.auxiliary.flatMap AuxiliaryWord.bytes

theorem layout_length (r : GroupRecord) : r.layout.length = r.size := by
  simp only [layout, List.length_append, Address.flatMap_octets_length, AuxiliaryWord.flatMap_bytes_length,
    Bytes.ofWord, Address.octets_length, List.length_cons, List.length_nil, size, headerSize]

/-- The bytes of a record. -/
def encode (r : GroupRecord) : Except CodecError Bytes :=
  match r.fault? with
  | some fault => .error (.outOfRange fault)
  | none => .ok r.layout

/-- Writes a record over the start of a buffer, and tells how many bytes it took. -/
def encodeInto (r : GroupRecord) (buffer : Bytes) : Except CodecError (Nat × Bytes) := do
  let bytes ← r.encode
  Container.require .groupRecord r.size buffer.length
  .ok (r.size, buffer.patch 0 bytes)

/-- The size that the counts in a record's header declare. -/
def declaredSize (header : Bytes) : Nat :=
  headerSize + 4 * (header.wordAt 2).toNat + 4 * (header.byteAt 1).toNat

/-- The size of the record that starts a run of bytes, or nothing where its header is cut short. -/
def declaredSize? (bs : Bytes) : Option Nat := if bs.atLeast headerSize then some (declaredSize bs) else none

/-- The record that starts a run of bytes. The bytes must be there before the type is looked at. -/
def decode (bs : Bytes) : Except RecordFault GroupRecord :=
  match declaredSize? bs with
  | none => .error (.truncated headerSize bs.length)
  | some size =>
    if bs.atLeast size then
      match RecordType.ofCode? (bs.byteAt 0) with
      | none => .error (.unknownType (bs.byteAt 0))
      | some type =>
        let sources := 4 * (bs.wordAt 2).toNat
        .ok { type
              group := .ofBytes (bs.slice 4 4)
              sources := (bs.slice headerSize sources).fours Address.mk
              auxiliary := (bs.slice (headerSize + sources) (size - headerSize - sources)).fours AuxiliaryWord.mk }
    else .error (.truncated size bs.length)

end GroupRecord
end Igmp
