import Igmp.CodecError

/-! Times packed into one byte: linear codes, the mantissa and exponent form above them, and the
robustness variable beside them in version 3 queries. -/
namespace Igmp
namespace TimeCode

/-- A code below 128 is its own value. Above, the low four bits are a mantissa, to which an implied
fifth bit is added, and the next three bits an exponent. -/
def value (code : UInt8) : Nat :=
  if code.toNat < 128 then code.toNat
  else (16 + code.toNat % 16) <<< (code.toNat / 16 % 8 + 3)

/-- The code of a mantissa and an exponent. -/
def ofParts (mantissa exponent : UInt8) : Except CodecError UInt8 :=
  if mantissa > 15 then .error (.outOfRange (.mantissa mantissa))
  else if exponent > 7 then .error (.outOfRange (.exponent exponent))
  else .ok (UInt8.ofNat (128 + 16 * exponent.toNat + mantissa.toNat))

end TimeCode

/-- How long hosts may take to answer a version 3 query, as a code in tenths of a second. -/
structure MaxResponseCode where
  code : UInt8
  deriving DecidableEq, Repr

namespace MaxResponseCode

/-- Zero is found in messages only; no caller makes it. -/
def ofCode (code : UInt8) : Except CodecError MaxResponseCode :=
  if code = 0 then .error (.outOfRange .zeroMaxResponseCode) else .ok ⟨code⟩

def ofParts (mantissa exponent : UInt8) : Except CodecError MaxResponseCode :=
  (TimeCode.ofParts mantissa exponent).map mk

/-- The linear code of a time. -/
def ofDuration (time : Duration) : Except CodecError MaxResponseCode :=
  match time.tenths? with
  | none => .error (.outOfRange (.maxResponsePrecision time))
  | some n =>
    if 1 ≤ n ∧ n ≤ 127 then .ok ⟨UInt8.ofNat n⟩ else .error (.outOfRange (.maxResponseInterval time))

def tenths (c : MaxResponseCode) : Nat := TimeCode.value c.code

def duration (c : MaxResponseCode) : Duration := .ofTenths c.tenths

/-- The longest time with a linear code. -/
def maxLinear : Duration := .ofTenths 127

end MaxResponseCode

/-- The interval between a querier's general queries, as a code in seconds. -/
structure QueryIntervalCode where
  code : UInt8
  deriving DecidableEq, Repr

namespace QueryIntervalCode

def ofParts (mantissa exponent : UInt8) : Except CodecError QueryIntervalCode :=
  (TimeCode.ofParts mantissa exponent).map mk

/-- The linear code of an interval. -/
def ofDuration (time : Duration) : Except CodecError QueryIntervalCode :=
  match time.seconds? with
  | none => .error (.outOfRange (.queryIntervalPrecision time))
  | some n => if n ≤ 127 then .ok ⟨UInt8.ofNat n⟩ else .error (.outOfRange (.queryIntervalInterval time))

def seconds (c : QueryIntervalCode) : Nat := TimeCode.value c.code

def duration (c : QueryIntervalCode) : Duration := .ofSeconds c.seconds

end QueryIntervalCode

/-- How long hosts may take to answer a version 2 query, in tenths of a second. -/
structure ResponseTime where
  value : UInt8
  deriving DecidableEq, Repr

namespace ResponseTime

def zero : ResponseTime := ⟨0⟩

def ofDuration (time : Duration) : Except CodecError ResponseTime :=
  match time.tenths? with
  | none => .error (.outOfRange (.responseTimePrecision time))
  | some n => if n ≤ 255 then .ok ⟨UInt8.ofNat n⟩ else .error (.outOfRange (.responseTimeInterval time))

def duration (t : ResponseTime) : Duration := .ofTenths t.value.toNat

/-- The longest time there is a value for. -/
def maxDuration : Duration := .ofTenths 255

end ResponseTime

/-- The number of lost messages a querier allows for, in three bits. -/
structure Robustness where
  value : Fin 8
  deriving DecidableEq, Repr

namespace Robustness

def max : Nat := 7

def default : Robustness := ⟨2⟩

def ofByte (value : UInt8) : Except CodecError Robustness :=
  if h : value.toNat < 8 then .ok ⟨value.toNat, h⟩ else .error (.outOfRange (.robustness value))

end Robustness

theorem TimeCode.value_ofParts (mantissa exponent code : UInt8) (h : TimeCode.ofParts mantissa exponent = .ok code) :
    TimeCode.value code = (16 + mantissa.toNat) <<< (exponent.toNat + 3) := by
  simp only [TimeCode.ofParts, gt_iff_lt] at h
  split at h
  · simp at h
  split at h
  · simp at h
  · rename_i hm he
    have hm' : mantissa.toNat ≤ 15 := by simpa [UInt8.lt_iff_toNat_lt] using hm
    have he' : exponent.toNat ≤ 7 := by simpa [UInt8.lt_iff_toNat_lt] using he
    obtain rfl := Except.ok.inj h
    have hc : (UInt8.ofNat (128 + 16 * exponent.toNat + mantissa.toNat)).toNat =
        128 + 16 * exponent.toNat + mantissa.toNat := by simp; omega
    rw [TimeCode.value, hc, if_neg (by omega)]
    congr 2 <;> omega

end Igmp
