import Igmp.TimeCode

/-! # Times that have a code, and the words in which they are counted -/
namespace Igmp

namespace Duration

/-- The whole length in nanoseconds. -/
def inNanos (d : Duration) : Nat := d.seconds * 1000000000 + d.nanos

/-- A product in 64 bits that stops at the greatest word. -/
def mulSaturating (x y : UInt64) : UInt64 :=
  if x.toNat * y.toNat < 18446744073709551616 then x * y else 18446744073709551615

/-- The number of tenths of a second, counted in 64 bits. -/
def tenthsInWords? (d : Duration) : Option UInt64 :=
  if UInt32.ofNat d.nanos % 100000000 = 0 then
    some (mulSaturating (.ofNat d.seconds) 10 + (UInt32.ofNat d.nanos / 100000000).toUInt64)
  else none

/-- The number of seconds, counted in 64 bits. -/
def secondsInWords? (d : Duration) : Option UInt64 :=
  if UInt32.ofNat d.nanos = 0 then some (.ofNat d.seconds) else none

/-- A time of which 64 bits hold the seconds, and also the tenths of a second where their number
is not cut off at the greatest word. -/
structure InWords (d : Duration) : Prop where
  seconds_lt : d.seconds < 18446744073709551616
  tenths_lt : 1844674407370955161 ≤ d.seconds → d.nanos % 100000000 = 0 → d.nanos = 0

variable {d : Duration}

theorem ofTenths_of_inNanos_eq {n : Nat} (h : d.inNanos = n * 100000000) : ofTenths n = d := by
  obtain ⟨seconds, nanos, hlt⟩ := d
  simp only [inNanos] at h
  simp only [ofTenths, mk.injEq]
  omega

theorem ofSeconds_of_inNanos_eq {n : Nat} (h : d.inNanos = n * 1000000000) : ofSeconds n = d := by
  obtain ⟨seconds, nanos, hlt⟩ := d
  simp only [inNanos] at h
  simp only [ofSeconds, mk.injEq]
  omega

/-- A count that fits in a byte is exact: what is cut off, or would wrap, is far beyond. -/
theorem InWords.tenths?_eq_some_iff (h : d.InWords) {n : Nat} (hn : n ≤ 255) :
    d.tenths? = some n ↔ d.inNanos = n * 100000000 := by
  have htenths := h.tenths_lt
  have hlt := d.nanos_lt
  simp only [tenths?, maxCount, inNanos, Option.ite_none_right_eq_some, Option.some.injEq]
  omega

theorem seconds?_eq_some_iff {n : Nat} : d.seconds? = some n ↔ d.inNanos = n * 1000000000 := by
  have hlt := d.nanos_lt
  simp only [seconds?, inNanos, Option.ite_none_right_eq_some, Option.some.injEq]
  omega

theorem mulSaturating_toNat (x y : UInt64) :
    (mulSaturating x y).toNat = min (x.toNat * y.toNat) 18446744073709551615 := by
  unfold mulSaturating
  split
  · rw [UInt64.toNat_mul]
    omega
  · rw [Nat.min_eq_right (by omega)]
    rfl

theorem nanosInWords_toNat (d : Duration) : (UInt32.ofNat d.nanos).toNat = d.nanos := by
  have hlt := d.nanos_lt
  rw [UInt32.toNat_ofNat']
  omega

theorem InWords.secondsInWords_toNat (h : d.InWords) :
    (UInt64.ofNat d.seconds).toNat = d.seconds := by
  have hlt := h.seconds_lt
  rw [UInt64.toNat_ofNat']
  omega

theorem InWords.map_tenthsInWords? (h : d.InWords) :
    d.tenthsInWords?.map UInt64.toNat = d.tenths? := by
  have hnanos := d.nanosInWords_toNat
  have hmod : UInt32.ofNat d.nanos % 100000000 = 0 ↔ d.nanos % 100000000 = 0 := by
    rw [← UInt32.toNat_inj, UInt32.toNat_mod, hnanos]
    rfl
  have hdiv : (UInt32.ofNat d.nanos / 100000000).toUInt64.toNat = d.nanos / 100000000 := by
    rw [UInt32.toNat_toUInt64, UInt32.toNat_div, hnanos]
    rfl
  have hproduct : (mulSaturating (.ofNat d.seconds) 10).toNat =
      min (d.seconds * 10) 18446744073709551615 := by
    rw [mulSaturating_toNat, h.secondsInWords_toNat]
    rfl
  unfold tenthsInWords? tenths?
  by_cases hwhole : d.nanos % 100000000 = 0
  · rw [if_pos hwhole, if_pos (hmod.2 hwhole), Option.map_some, UInt64.toNat_add, hproduct, hdiv]
    rfl
  · rw [if_neg hwhole, if_neg (mt hmod.1 hwhole)]
    rfl

theorem InWords.map_secondsInWords? (h : d.InWords) :
    d.secondsInWords?.map UInt64.toNat = d.seconds? := by
  have hzero : UInt32.ofNat d.nanos = 0 ↔ d.nanos = 0 := by
    rw [← UInt32.toNat_inj, d.nanosInWords_toNat]
    rfl
  unfold secondsInWords? seconds?
  by_cases hwhole : d.nanos = 0
  · rw [if_pos hwhole, if_pos (hzero.2 hwhole), Option.map_some, h.secondsInWords_toNat]
  · rw [if_neg hwhole, if_neg (mt hzero.1 hwhole)]
    rfl

end Duration

/-- A scale of codes for times: the unit in nanoseconds, the least and the greatest number of units
that has a code, and how faults of times without code are told. -/
structure Scale (α : Type) where
  unit : Nat
  low : UInt8
  high : UInt8
  code : α → UInt8
  ofCode : UInt8 → α
  duration : α → Duration
  precision : Duration → RangeFault
  interval : Duration → RangeFault

/-- From one to 127 tenths of a second. -/
def MaxResponseCode.scale : Scale MaxResponseCode where
  unit := 100000000
  low := 1
  high := 127
  code := MaxResponseCode.code
  ofCode := .mk
  duration := MaxResponseCode.duration
  precision := .maxResponsePrecision
  interval := .maxResponseInterval

/-- From none to 127 seconds. -/
def QueryIntervalCode.scale : Scale QueryIntervalCode where
  unit := 1000000000
  low := 0
  high := 127
  code := QueryIntervalCode.code
  ofCode := .mk
  duration := QueryIntervalCode.duration
  precision := .queryIntervalPrecision
  interval := .queryIntervalInterval

/-- From none to 255 tenths of a second. -/
def ResponseTime.scale : Scale ResponseTime where
  unit := 100000000
  low := 0
  high := 255
  code := ResponseTime.value
  ofCode := .mk
  duration := ResponseTime.duration
  precision := .responseTimePrecision
  interval := .responseTimeInterval

namespace Scale

variable {α : Type}

/-- A word as a byte, where it fits. -/
def narrow? (n : UInt64) : Option UInt8 := if n ≤ 255 then some n.toUInt8 else none

/-- The code of a time, from the number of its units. -/
def ofUnits (s : Scale α) (d : Duration) : Option Nat → Except CodecError α
  | none => .error (.outOfRange (s.precision d))
  | some n =>
    if s.low.toNat ≤ n ∧ n ≤ s.high.toNat then .ok (s.ofCode (.ofNat n))
    else .error (.outOfRange (s.interval d))

/-- The code of a time, from the number of its units in 64 bits, which is made a byte before it is
compared. -/
def ofWords (s : Scale α) (d : Duration) : Option UInt64 → Except CodecError α
  | none => .error (.outOfRange (s.precision d))
  | some n =>
    match narrow? n with
    | none => .error (.outOfRange (s.interval d))
    | some code =>
      if s.low ≤ code ∧ code ≤ s.high then .ok (s.ofCode code)
      else .error (.outOfRange (s.interval d))

/-- The time is just this number of units, and there is a code for it. -/
structure Counts (s : Scale α) (d : Duration) (n : Nat) : Prop where
  low_le : s.low.toNat ≤ n
  le_high : n ≤ s.high.toNat
  inNanos_eq : d.inNanos = n * s.unit

/-- A time is given the code of its number of units, which stands for just that time, or none. -/
structure Exact (s : Scale α) (d : Duration) (result : Except CodecError α) : Prop where
  ok_iff : (∃ c, result = .ok c) ↔ ∃ n, s.Counts d n
  code_eq : ∀ c n, result = .ok c → s.Counts d n → (s.code c).toNat = n
  duration_eq : ∀ c, result = .ok c → s.duration c = d
  fault : (¬ ∃ n, s.Counts d n) →
    result = .error (.outOfRange (s.precision d)) ∨ result = .error (.outOfRange (s.interval d))

variable {s : Scale α} {d : Duration}

/-- All codes are bytes. -/
theorem Counts.le_greatest {n : Nat} (h : s.Counts d n) : n ≤ 255 :=
  Nat.le_trans h.le_high (Nat.le_of_lt_succ s.high.toNat_lt)

theorem narrow?_of_toNat_eq {w : UInt64} {n : Nat} (h : w.toNat = n) (hn : n ≤ 255) :
    narrow? w = some (.ofNat n) := by
  have hle : w ≤ 255 := by
    rw [UInt64.le_iff_toNat_le, h]
    exact hn
  rw [narrow?, if_pos hle, Option.some.injEq]
  apply UInt8.toNat_inj.mp
  rw [UInt64.toNat_toUInt8, h, UInt8.toNat_ofNat']

theorem narrow?_of_lt_toNat {w : UInt64} (h : 255 < w.toNat) : narrow? w = none := by
  apply if_neg
  rw [UInt64.le_iff_toNat_le]
  exact Nat.not_le.2 h

theorem ofWords_eq_ofUnits {units : Option Nat} {words : Option UInt64}
    (h : words.map UInt64.toNat = units) :
    s.ofWords d words = s.ofUnits d units := by
  have hhigh := s.high.toNat_lt
  match words, units, h with
  | none, none, _ => rfl
  | some w, some n, h =>
    have hw : w.toNat = n := Option.some.inj h
    by_cases hn : n ≤ 255
    · have hcode : (UInt8.ofNat n).toNat = n := by
        rw [UInt8.toNat_ofNat']
        omega
      simp only [ofWords, ofUnits, narrow?_of_toNat_eq hw hn, UInt8.le_iff_toNat_le, hcode]
    · rw [ofWords, narrow?_of_lt_toNat (by omega), ofUnits, if_neg (by omega)]

section Units

variable {units : Option Nat} (hunits : ∀ n ≤ 255, units = some n ↔ d.inNanos = n * s.unit)

include hunits

theorem ofUnits_of_counts {n : Nat} (h : s.Counts d n) :
    s.ofUnits d units = .ok (s.ofCode (.ofNat n)) := by
  rw [(hunits n h.le_greatest).2 h.inNanos_eq, ofUnits, if_pos ⟨h.low_le, h.le_high⟩]

theorem ofUnits_of_not_counts (h : ¬ ∃ n, s.Counts d n) :
    s.ofUnits d units = .error (.outOfRange (s.precision d)) ∨
      s.ofUnits d units = .error (.outOfRange (s.interval d)) := by
  cases hn : units with
  | none => exact .inl rfl
  | some n =>
    right
    apply if_neg
    rintro ⟨hlow, hhigh⟩
    have hle : n ≤ 255 := Nat.le_trans hhigh (Nat.le_of_lt_succ s.high.toNat_lt)
    exact h ⟨n, hlow, hhigh, (hunits n hle).1 hn⟩

/-- It is enough that units are counted right and that codes stand for their number of units. -/
theorem exact_ofUnits (hcode : ∀ b, s.code (s.ofCode b) = b)
    (hduration : ∀ n, s.Counts d n → s.duration (s.ofCode (.ofNat n)) = d) :
    s.Exact d (s.ofUnits d units) := by
  by_cases h : ∃ n, s.Counts d n
  · obtain ⟨n, hn⟩ := h
    have hhigh := s.high.toNat_lt
    have hok := ofUnits_of_counts hunits hn
    rw [hok]
    constructor
    case ok_iff => exact ⟨fun _ => ⟨n, hn⟩, fun _ => ⟨_, rfl⟩⟩
    case code_eq =>
      rintro c k ⟨⟩ hk
      have hsome := (hunits k hk.le_greatest).2 hk.inNanos_eq
      rw [(hunits n hn.le_greatest).2 hn.inNanos_eq, Option.some.injEq] at hsome
      have hle := hn.le_high
      rw [hcode, UInt8.toNat_ofNat']
      omega
    case duration_eq =>
      rintro c ⟨⟩
      exact hduration n hn
    case fault => exact fun hnone => absurd ⟨n, hn⟩ hnone
  · have herror := ofUnits_of_not_counts hunits h
    have hne : ∀ c, s.ofUnits d units ≠ .ok c := by
      intro c hok
      rcases herror with herror | herror <;> rw [herror] at hok <;> nomatch hok
    exact ⟨⟨fun ⟨c, hok⟩ => absurd hok (hne c), fun hn => absurd hn h⟩,
      fun c _ hok => absurd hok (hne c), fun c hok => absurd hok (hne c), fun _ => herror⟩

end Units

end Scale

theorem TimeCode.value_ofNat {n : Nat} (h : n ≤ 127) : value (.ofNat n) = n := by
  have hcode : (UInt8.ofNat n).toNat = n := by
    rw [UInt8.toNat_ofNat']
    omega
  rw [value, hcode, if_pos (by omega)]

variable {d : Duration}

theorem MaxResponseCode.ofDuration_eq (d : Duration) :
    ofDuration d = scale.ofUnits d d.tenths? := by
  unfold ofDuration
  cases d.tenths? <;> rfl

theorem QueryIntervalCode.ofDuration_eq (d : Duration) :
    ofDuration d = scale.ofUnits d d.seconds? := by
  unfold ofDuration
  cases d.seconds? <;> simp [Scale.ofUnits, scale]

theorem ResponseTime.ofDuration_eq (d : Duration) :
    ofDuration d = scale.ofUnits d d.tenths? := by
  unfold ofDuration
  cases d.tenths? <;> simp [Scale.ofUnits, scale]

theorem MaxResponseCode.exact_ofDuration (h : d.InWords) : scale.Exact d (ofDuration d) := by
  rw [ofDuration_eq]
  apply Scale.exact_ofUnits (fun n => h.tenths?_eq_some_iff) fun b => rfl
  intro n hn
  have hvalue : TimeCode.value (.ofNat n) = n := TimeCode.value_ofNat hn.le_high
  calc Duration.ofTenths (TimeCode.value (.ofNat n))
    _ = Duration.ofTenths n := by rw [hvalue]
    _ = d := Duration.ofTenths_of_inNanos_eq hn.inNanos_eq

theorem QueryIntervalCode.exact_ofDuration (d : Duration) : scale.Exact d (ofDuration d) := by
  rw [ofDuration_eq]
  apply Scale.exact_ofUnits (fun n _ => Duration.seconds?_eq_some_iff) fun b => rfl
  intro n hn
  have hvalue : TimeCode.value (.ofNat n) = n := TimeCode.value_ofNat hn.le_high
  calc Duration.ofSeconds (TimeCode.value (.ofNat n))
    _ = Duration.ofSeconds n := by rw [hvalue]
    _ = d := Duration.ofSeconds_of_inNanos_eq hn.inNanos_eq

theorem ResponseTime.exact_ofDuration (h : d.InWords) : scale.Exact d (ofDuration d) := by
  rw [ofDuration_eq]
  apply Scale.exact_ofUnits (fun n => h.tenths?_eq_some_iff) fun b => rfl
  intro n hn
  have hvalue : (UInt8.ofNat n).toNat = n := by
    have hle : n ≤ 255 := hn.le_high
    rw [UInt8.toNat_ofNat']
    omega
  calc Duration.ofTenths (UInt8.ofNat n).toNat
    _ = Duration.ofTenths n := by rw [hvalue]
    _ = d := Duration.ofTenths_of_inNanos_eq hn.inNanos_eq

/-- Times are converted to codes exactly or not at all, also where their units are counted in 64
bits and then made a byte: a number of tenths that is cut off at the greatest word is refused. -/
theorem Duration.converts_exactly (h : d.InWords) :
    (MaxResponseCode.scale.Exact d (MaxResponseCode.ofDuration d) ∧
      ResponseTime.scale.Exact d (ResponseTime.ofDuration d) ∧
      QueryIntervalCode.scale.Exact d (QueryIntervalCode.ofDuration d)) ∧
    MaxResponseCode.ofDuration d = MaxResponseCode.scale.ofWords d d.tenthsInWords? ∧
      ResponseTime.ofDuration d = ResponseTime.scale.ofWords d d.tenthsInWords? ∧
      QueryIntervalCode.ofDuration d = QueryIntervalCode.scale.ofWords d d.secondsInWords? := by
  constructor
  · exact ⟨MaxResponseCode.exact_ofDuration h, ResponseTime.exact_ofDuration h,
      QueryIntervalCode.exact_ofDuration d⟩
  · rw [Scale.ofWords_eq_ofUnits h.map_tenthsInWords?,
      Scale.ofWords_eq_ofUnits h.map_tenthsInWords?, Scale.ofWords_eq_ofUnits h.map_secondsInWords?]
    exact ⟨MaxResponseCode.ofDuration_eq d, ResponseTime.ofDuration_eq d,
      QueryIntervalCode.ofDuration_eq d⟩

/-- The greatest number of seconds, which is cut off when counted in tenths, and a time that has
the greatest of the max response codes. -/
theorem Duration.converts_exactly_greatest :
    let greatest : Duration := ⟨18446744073709551615, 0, by decide⟩
    let longest : Duration := ⟨12, 700000000, by decide⟩
    greatest.InWords ∧ greatest.tenthsInWords? = some 18446744073709551615 ∧
      (¬ ∃ c, MaxResponseCode.ofDuration greatest = .ok c) ∧
      longest.InWords ∧ ∃ c, MaxResponseCode.ofDuration longest = .ok c ∧ c.code.toNat = 127 ∧
        c.duration = longest := by
  intro greatest longest
  have hgreatest : greatest.InWords := ⟨by decide, fun _ _ => rfl⟩
  have hlongest : longest.InWords := ⟨by decide, fun h => absurd h (by decide)⟩
  have hcounts : MaxResponseCode.scale.Counts longest 127 := ⟨by decide, by decide, by decide⟩
  obtain ⟨⟨hrefused, -⟩, -⟩ := Duration.converts_exactly hgreatest
  obtain ⟨⟨hexact, -⟩, -⟩ := Duration.converts_exactly hlongest
  obtain ⟨c, hok⟩ := hexact.ok_iff.2 ⟨127, hcounts⟩
  refine ⟨hgreatest, by decide, ?_, hlongest, c, hok, hexact.code_eq c 127 hok hcounts,
    hexact.duration_eq c hok⟩
  rw [hrefused.ok_iff]
  rintro ⟨n, -, hn, hnanos⟩
  have hle : n ≤ 127 := hn
  have hsum : 18446744073709551615 * 1000000000 + 0 = n * 100000000 := hnanos
  omega

end Igmp
