import VhdlStyle.Text.Bytes

/-! # Durations and instants

Durations are nanoseconds in a signed 64-bit word: sums wrap around, rounding stops at the ends of
the range. Instants are points in time, counted from the start of 1970 in universal time, with their
calendar texts. -/

namespace VhdlStyle

/-! ## Durations -/

/-- A length of time. -/
structure Duration where
  nanos : Int
  deriving DecidableEq, Inhabited

namespace Duration

/-- The shortest duration. -/
def least : Int := -0x8000000000000000

/-- The longest duration. -/
def greatest : Int := 0x8000000000000000 - 1

/-- A number as a 64-bit word. -/
def ofInt (n : Int) : Duration := ⟨Int.bmod n 0x10000000000000000⟩

/-- The sum, wrapped around. -/
def add (a b : Duration) : Duration := ofInt (a.nanos + b.nanos)

/-- The nearest multiple of `unit` nanoseconds; halves go away from zero, and a multiple outside
the range gives way to the end of the range. -/
def round (unit : Nat) (d : Duration) : Duration :=
  let count := (2 * d.nanos.natAbs + unit) / (2 * unit) * unit
  let nearest : Int := if d.nanos < 0 then -(count : Int) else count
  ⟨min greatest (max least nearest)⟩

/-- Whole microseconds, cut toward zero. -/
def micros (d : Duration) : Int := d.nanos.tdiv 1000

/-- The decimals of `n` out of `10 ^ places`, after a point; none when `n` is zero. -/
def decimals (places n : Nat) : Bytes :=
  if n == 0 then []
  else '.' :: Bytes.trimRight (· == ('0' : UInt8)) (Bytes.padLeft places '0' (Bytes.ofNat n))

/-- A duration below a second in its largest unit, one above in hours, minutes and seconds. -/
def magnitude (n : Nat) : Bytes :=
  let scaled (places : Nat) (unit : Bytes) : Bytes :=
    List.flatten [Bytes.ofNat (n / Nat.pow 10 places), decimals places (n % Nat.pow 10 places), unit]
  if n == 0 then "0s"
  else if n < 1000 then scaled 0 "ns"
  else if n < 1000000 then scaled 3 "µs"
  else if n < 1000000000 then scaled 6 "ms"
  else
    let seconds := n / 1000000000
    let minutes := seconds / 60
    let hours := minutes / 60
    List.flatten [
      if hours == 0 then [] else Bytes.ofNat hours ++ Bytes.ofString "h",
      if minutes == 0 then [] else Bytes.ofNat (minutes % 60) ++ Bytes.ofString "m",
      Bytes.ofNat (seconds % 60), decimals 9 (n % 1000000000), "s"]

/-- The duration in words of units. -/
def text (d : Duration) : Bytes :=
  if d.nanos < 0 then '-' :: magnitude d.nanos.natAbs else magnitude d.nanos.natAbs

end Duration

/-! ## Instants -/

/-- Seconds since the start of 1970 and the nanoseconds after them. -/
structure Instant where
  seconds : Int := 0
  nanos : Nat := 0
  deriving DecidableEq, Inhabited

/-- A day of the calendar. -/
structure Date where
  year : Int
  month : Int
  day : Int
  deriving DecidableEq, Inhabited

/-- The day that lies `days` days after the first of 1970. Years begin in March here, so that leap
days come last, and are grouped in eras of four hundred. -/
def Date.ofDays (days : Int) : Date :=
  let shifted := days + 719468
  let era := shifted.fdiv 146097
  let dayOfEra := shifted - era * 146097
  let yearOfEra := (dayOfEra - dayOfEra / 1460 + dayOfEra / 36524 - dayOfEra / 146096) / 365
  let dayOfYear := dayOfEra - (365 * yearOfEra + yearOfEra / 4 - yearOfEra / 100)
  let marchMonth := (5 * dayOfYear + 2) / 153
  let month := if marchMonth < 10 then marchMonth + 3 else marchMonth - 9
  let year := yearOfEra + era * 400
  ⟨if month ≤ 2 then year + 1 else year, month, dayOfYear - (153 * marchMonth + 2) / 5 + 1⟩

namespace Instant

/-- The instant some seconds and nanoseconds after the start of 1970. -/
def ofUnix (seconds nanos : Int) : Instant :=
  ⟨seconds + nanos.fdiv 1000000000, (nanos.fmod 1000000000).toNat⟩

/-- The time that passed since an earlier instant. -/
def since (now earlier : Instant) : Duration :=
  Duration.ofInt ((now.seconds - earlier.seconds) * 1000000000 + now.nanos - earlier.nanos)

/-- A number with at least `width` digits. -/
def digits (width : Nat) (n : Int) : Bytes :=
  let text := Bytes.padLeft width '0' (Bytes.ofNat n.natAbs)
  if n < 0 then '-' :: text else text

/-- Date and time of day in universal time, with as many decimals as needed. -/
def text (t : Instant) : Bytes :=
  let date := Date.ofDays (t.seconds.fdiv 86400)
  let clock := t.seconds.fmod 86400
  List.flatten [digits 4 date.year, "-", digits 2 date.month, "-", digits 2 date.day, "T",
    digits 2 (clock / 3600), ":", digits 2 (clock / 60 % 60), ":", digits 2 (clock % 60),
    Duration.decimals 9 t.nanos, "Z"]

end Instant

end VhdlStyle
