import ReleaseCandidates.Calendar

set_option autoImplicit false

/-! # Instants

An instant is a second of universal time, counted from the start of 1970, and the nanoseconds into
it. A leap second is written as the sixtieth second of a minute; it is kept with the second before
it, with a nanosecond count of a full second or more, so that it lies after that second and before
the next one. -/

namespace ReleaseCandidates

/-- A point in universal time with nanoseconds. -/
structure Instant where
  /-- Seconds since the start of 1970, leap seconds not counted. -/
  second : Int
  /-- Nanoseconds into the second; a second or more only in a leap second. -/
  nanos : Nat
  nanos_lt : nanos < 2000000000 := by omega
  leap_at_minute_end : 1000000000 ≤ nanos → second % 60 = 59 := by omega
  deriving DecidableEq, Repr

namespace Instant

/-- The start of 1970. -/
def epoch : Instant := { second := 0, nanos := 0 }

/-- The instant `nanos` nanoseconds into second `second` of a minute, minutes counted from the
start of 1970. Second 60 is the leap second. -/
def ofMinute (minute : Int) (second nanos : Nat) : Option Instant :=
  if h : second ≤ 60 ∧ nanos < 1000000000 then
    if h60 : second = 60 then
      some { second := minute * 60 + 59, nanos := 1000000000 + nanos }
    else
      some { second := minute * 60 + second, nanos := nanos }
  else none

/-! ## Order -/

/-- Order in time: by the second, then by the nanoseconds into it. -/
def compare (a b : Instant) : Ordering :=
  (Ord.compare a.second b.second).then (Ord.compare a.nanos b.nanos)

instance : Ord Instant := ⟨Instant.compare⟩

/-! ## Calendar view -/

/-- The day number of the instant's day. -/
def day (t : Instant) : Int := t.second / 86400

/-- The civil date of the instant. -/
def date (t : Instant) : Date := Date.ofDay t.day

/-- The second of the day, from 0 to 86399. -/
def secondOfDay (t : Instant) : Nat := (t.second % 86400).toNat

/-- The hour of the day. -/
def hour (t : Instant) : Nat := t.secondOfDay / 3600

/-- The minute of the hour. -/
def minute (t : Instant) : Nat := t.secondOfDay / 60 % 60

/-- The second of the minute, 60 in a leap second. -/
def secondOfMinute (t : Instant) : Nat := t.secondOfDay % 60 + t.nanos / 1000000000

/-- The whole microseconds of the instant's second. -/
def micros (t : Instant) : Nat := t.nanos % 1000000000 / 1000

/-- The instant cut to whole microseconds. -/
def cutToMicros (t : Instant) : Instant where
  second := t.second
  nanos := t.nanos / 1000 * 1000
  nanos_lt := by have := t.nanos_lt; omega
  leap_at_minute_end := by intro h; exact t.leap_at_minute_end (by omega)

theorem cutToMicros_cutToMicros (t : Instant) : t.cutToMicros.cutToMicros = t.cutToMicros := by
  simp only [cutToMicros, mk.injEq, true_and]
  omega

end Instant

end ReleaseCandidates
