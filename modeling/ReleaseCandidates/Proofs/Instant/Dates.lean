import ReleaseCandidates.Calendar

set_option autoImplicit false

/-! # Dates and day numbers

The two views of a day agree: the date of a day number is one that the calendar has
(`Date.valid_ofDay`), and its day number is the one it came from (`Date.toDay_ofDay`). They agree on
the order of days as well: a day lies before another exactly if its date does, compared by year,
month and day (`Date.toDay_lt_iff`). -/

namespace ReleaseCandidates

/-! ## Years and months -/

theorem daysBeforeYear_mono {year year' : Int} (h : year ≤ year') :
    daysBeforeYear year ≤ daysBeforeYear year' := by
  unfold daysBeforeYear
  omega

theorem daysBeforeMonth_mono (leap : Bool) {month month' : Nat} (h : month ≤ month') :
    daysBeforeMonth leap month ≤ daysBeforeMonth leap month' := by
  induction h with
  | refl => exact Nat.le_refl _
  | step _ ih => exact Nat.le_trans ih (Nat.le_add_right _ _)

/-- All months together make the year. -/
theorem daysBeforeMonth_thirteen (leap : Bool) :
    daysBeforeMonth leap 13 = if leap then 366 else 365 := by
  cases leap <;> rfl

theorem daysInMonth_le (leap : Bool) (month : Nat) : daysInMonth leap month ≤ 31 := by
  unfold daysInMonth
  split
  · cases leap <;> decide
  all_goals omega

namespace Date

/-- The month found for a day of the year starts on or before the day, and the next one after
it, unless there is none. -/
theorem monthOf_bounds (leap : Bool) (n last : Nat) :
    1 ≤ monthOf leap n (last + 1) ∧ monthOf leap n (last + 1) ≤ last + 1 ∧
      daysBeforeMonth leap (monthOf leap n (last + 1)) ≤ n ∧
      (n < daysBeforeMonth leap (last + 2) →
        n < daysBeforeMonth leap (monthOf leap n (last + 1) + 1)) := by
  induction last with
  | zero =>
    have hfirst : daysBeforeMonth leap 1 = 0 := by cases leap <;> rfl
    have hmonth : monthOf leap n 1 = 1 := by rw [monthOf, if_pos (hfirst ▸ Nat.zero_le n)]
    rw [hmonth, hfirst]
    exact ⟨Nat.le_refl 1, Nat.le_refl 1, Nat.zero_le n, id⟩
  | succ last ih =>
    rw [monthOf]
    split
    · rename_i hle
      exact ⟨Nat.le_add_left 1 _, Nat.le_refl _, hle, id⟩
    · rename_i hlt
      obtain ⟨hpos, hlast, hstart, hend⟩ := ih
      exact ⟨hpos, Nat.le_succ_of_le hlast, hstart, fun _ => hend (Nat.lt_of_not_le hlt)⟩

/-! ## From a day number to its date and back -/

/-- What is known of the date of a day number: its month lies in the year, and the day in the
month. -/
theorem ofDay_bounds (day : Int) :
    1 ≤ (ofDay day).month ∧ (ofDay day).month ≤ 12 ∧ 1 ≤ (ofDay day).day ∧
      (ofDay day).day ≤ daysInMonth (isLeapYear (ofDay day).year) (ofDay day).month ∧
      daysBeforeYear (ofDay day).year +
        daysBeforeMonth (isLeapYear (ofDay day).year) (ofDay day).month + (ofDay day).day - 1 =
          day + epochDay := by
  obtain ⟨hstart, hend⟩ := yearOf_bounds (day + epochDay)
  rw [daysBeforeYear_succ] at hend
  simp only [ofDay]
  generalize yearOf (day + epochDay) = year at hstart hend ⊢
  generalize hrest : (day + epochDay - daysBeforeYear year).toNat = rest
  generalize isLeapYear year = leap at hend ⊢
  have hlength : rest < daysBeforeMonth leap 13 := by
    rw [daysBeforeMonth_thirteen]
    cases leap <;> simp only [Bool.false_eq_true, if_false, if_true] at hend ⊢ <;> omega
  obtain ⟨hpos, hlast, hbefore, hafter⟩ := monthOf_bounds leap rest 11
  have hafter := hafter hlength
  rw [daysBeforeMonth] at hafter
  generalize monthOf leap rest (11 + 1) = month at hpos hlast hbefore hafter ⊢
  exact ⟨hpos, hlast, by omega, by omega, by omega⟩

theorem valid_ofDay (day : Int) : (ofDay day).Valid := by
  obtain ⟨hpos, hlast, hfirst, hday, -⟩ := ofDay_bounds day
  exact ⟨hpos, hlast, hfirst, hday⟩

theorem toDay_ofDay (day : Int) : (ofDay day).toDay = day := by
  obtain ⟨-, -, -, -, hsum⟩ := ofDay_bounds day
  rw [toDay, hsum, Int.add_sub_cancel]

/-! ## Order -/

/-- Order of dates: by year, then by month, then by day. -/
def Before (a b : Date) : Prop :=
  a.year < b.year ∨ a.year = b.year ∧ (a.month < b.month ∨ a.month = b.month ∧ a.day < b.day)

theorem before_trichotomy (a b : Date) : a.Before b ∨ a = b ∨ b.Before a := by
  obtain ⟨year, month, day⟩ := a
  obtain ⟨year', month', day'⟩ := b
  simp only [Before, mk.injEq]
  omega

/-- A date lies within its year. -/
theorem toDay_bounds {d : Date} (h : d.Valid) :
    daysBeforeYear d.year - epochDay ≤ d.toDay ∧
      d.toDay < daysBeforeYear (d.year + 1) - epochDay := by
  obtain ⟨hpos, hlast, hfirst, hday⟩ := h
  have hmonth : daysBeforeMonth (isLeapYear d.year) (d.month + 1) ≤
      daysBeforeMonth (isLeapYear d.year) 13 := daysBeforeMonth_mono _ (by omega)
  rw [daysBeforeMonth_thirteen, daysBeforeMonth] at hmonth
  rw [daysBeforeYear_succ, toDay]
  generalize isLeapYear d.year = leap at hday hmonth ⊢
  cases leap <;> simp only [Bool.false_eq_true, if_false, if_true] at hmonth ⊢ <;> omega

theorem toDay_lt_of_before {a b : Date} (ha : a.Valid) (hb : b.Valid) (h : a.Before b) :
    a.toDay < b.toDay := by
  rcases h with hyear | ⟨hyear, hmonth | ⟨hmonth, hday⟩⟩
  · calc a.toDay < daysBeforeYear (a.year + 1) - epochDay := (toDay_bounds ha).2
      _ ≤ daysBeforeYear b.year - epochDay :=
        Int.sub_le_sub_right (daysBeforeYear_mono hyear) epochDay
      _ ≤ b.toDay := (toDay_bounds hb).1
  · have hnext : daysBeforeMonth (isLeapYear b.year) (a.month + 1) ≤
        daysBeforeMonth (isLeapYear b.year) b.month := daysBeforeMonth_mono _ hmonth
    obtain ⟨-, -, -, hlast⟩ := ha
    obtain ⟨-, -, hfirst, -⟩ := hb
    rw [hyear] at hlast
    rw [daysBeforeMonth] at hnext
    rw [toDay, toDay, hyear]
    omega
  · rw [toDay, toDay, hyear, hmonth]
    omega

/-- A day lies before another exactly if its date does. -/
theorem toDay_lt_iff {a b : Date} (ha : a.Valid) (hb : b.Valid) :
    a.toDay < b.toDay ↔ a.Before b := by
  refine ⟨fun h => ?_, toDay_lt_of_before ha hb⟩
  rcases before_trichotomy a b with hbefore | rfl | hafter
  · exact hbefore
  · exact absurd h (Int.lt_irrefl _)
  · exact absurd h (Int.lt_asymm (toDay_lt_of_before hb ha hafter))

/-- Days in order have dates in order. -/
theorem before_ofDay {day day' : Int} (h : day < day') : (ofDay day).Before (ofDay day') := by
  rw [← toDay_lt_iff (valid_ofDay day) (valid_ofDay day'), toDay_ofDay, toDay_ofDay]
  exact h

end Date

end ReleaseCandidates
