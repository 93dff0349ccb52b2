set_option autoImplicit false

/-! # The civil calendar: dates and day numbers

A day is numbered by its distance from 1 January 1970, negative before it. The calendar is the
proleptic Gregorian one with a year zero: every fourth year is a leap year, every hundredth is not,
every four-hundredth is. `Date.toDay` and `Date.ofDay` go between the two views. -/

namespace ReleaseCandidates

/-- Whether the year has a 29 February. -/
def isLeapYear (year : Int) : Bool :=
  year % 4 == 0 && (year % 100 != 0 || year % 400 == 0)

/-- The number of days in a month, months counted from 1; there is none outside 1 to 12. -/
def daysInMonth (leap : Bool) : Nat → Nat
  | 2 => if leap then 29 else 28
  | 4 | 6 | 9 | 11 => 30
  | 1 | 3 | 5 | 7 | 8 | 10 | 12 => 31
  | _ => 0

/-- The number of days of a year that lie before a month of it. -/
def daysBeforeMonth (leap : Bool) : Nat → Nat
  | 0 => 0
  | month + 1 => daysBeforeMonth leap month + daysInMonth leap month

/-- The day number of the first of January of a year, counted from the first of January of year
zero. -/
def daysBeforeYear (year : Int) : Int :=
  365 * year + (year + 3) / 4 - (year + 99) / 100 + (year + 399) / 400

/-- The day number of 1 January 1970 counted from 1 January of year zero. -/
def epochDay : Int := 719528

theorem daysBeforeYear_epoch : daysBeforeYear 1970 = epochDay := by decide

/-- The length of a year is the distance between the starts of it and of the next. -/
theorem daysBeforeYear_succ (year : Int) :
    daysBeforeYear (year + 1) = daysBeforeYear year + (if isLeapYear year then 366 else 365) := by
  simp only [daysBeforeYear, isLeapYear, Bool.and_eq_true, Bool.or_eq_true, bne_iff_ne, ne_eq,
    beq_iff_eq]
  split <;> omega

/-! ## Dates -/

/-- A year, a month from 1 to 12 and a day of the month from 1. -/
structure Date where
  year : Int
  month : Nat
  day : Nat
  deriving DecidableEq, Repr

namespace Date

/-- Whether the calendar has the date. -/
def Valid (d : Date) : Prop :=
  1 ≤ d.month ∧ d.month ≤ 12 ∧ 1 ≤ d.day ∧ d.day ≤ daysInMonth (isLeapYear d.year) d.month

instance (d : Date) : Decidable d.Valid := by
  unfold Valid; infer_instance

/-- The day number of a date. -/
def toDay (d : Date) : Int :=
  daysBeforeYear d.year + daysBeforeMonth (isLeapYear d.year) d.month + d.day - 1 - epochDay

/-- The year that holds the day `n` after 1 January of year zero: the average length of a year
gives it up to one year, and the starts of the years around decide. -/
def yearOf (n : Int) : Int :=
  let estimate := 400 * n / 146097
  if daysBeforeYear (estimate + 1) ≤ n then estimate + 1
  else if daysBeforeYear estimate ≤ n then estimate
  else estimate - 1

/-- The month that holds day `n` of a year, days counted from zero, looked for from `month` down. -/
def monthOf (leap : Bool) (n : Nat) : Nat → Nat
  | 0 => 0
  | month + 1 => if daysBeforeMonth leap (month + 1) ≤ n then month + 1 else monthOf leap n month

/-- The date with a day number. -/
def ofDay (day : Int) : Date :=
  let n := day + epochDay
  let year := yearOf n
  let leap := isLeapYear year
  let rest := (n - daysBeforeYear year).toNat
  let month := monthOf leap rest 12
  { year, month, day := rest - daysBeforeMonth leap month + 1 }

/-- The year found for a day starts on or before the day, and the next one after it. -/
theorem yearOf_bounds (n : Int) :
    daysBeforeYear (yearOf n) ≤ n ∧ n < daysBeforeYear (yearOf n + 1) := by
  simp only [yearOf]
  split
  · rename_i h
    refine ⟨h, ?_⟩
    simp only [daysBeforeYear] at *
    omega
  · split
    · rename_i h₁ h₂
      exact ⟨h₂, by omega⟩
    · rename_i h₁ h₂
      refine ⟨?_, ?_⟩
      · simp only [daysBeforeYear] at *
        omega
      · rw [Int.sub_add_cancel]
        omega

end Date

end ReleaseCandidates
