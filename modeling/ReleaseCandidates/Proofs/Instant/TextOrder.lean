import ReleaseCandidates.Proofs.Instant.Spelling

set_option autoImplicit false

/-! # The order of the stored spellings

The stored spelling goes from the year down to the microsecond, and each number has the same width
in every spelling. So the spellings are in the order of the numbers, and the numbers are in the
order of time: of two instants in plain years, the one that is earlier when both are cut to
microseconds has the smaller spelling (`Instant.format_lt_format`). -/

namespace ReleaseCandidates.Instant

variable {a b c : Instant}

/-! ## Order in time -/

/-- The instant lies before another one. -/
def Before (a b : Instant) : Prop :=
  a.second < b.second ∨ a.second = b.second ∧ a.nanos < b.nanos

theorem compare_eq_lt_iff : a.compare b = .lt ↔ a.Before b := by
  rw [compare, Ordering.then_eq_lt, Int.compare_eq_lt, Int.compare_eq_eq, Nat.compare_eq_lt, Before]

theorem compare_eq_gt_iff : a.compare b = .gt ↔ b.Before a := by
  rw [compare, Ordering.then_eq_gt, Int.compare_eq_gt, Int.compare_eq_eq, Nat.compare_eq_gt, Before,
    eq_comm]

theorem Before.trans (hab : a.Before b) (hbc : b.Before c) : a.Before c := by
  unfold Before at *
  omega

theorem not_before_trans (hab : ¬ a.Before b) (hbc : ¬ b.Before c) : ¬ a.Before c := by
  unfold Before at *
  omega

theorem Before.asymm (hab : a.Before b) : ¬ b.Before a := by
  unfold Before at *
  omega

theorem Before.ne (hab : a.Before b) : a ≠ b := by
  rintro rfl
  exact hab.asymm hab

theorem no_leap (second : Int) : 1000000000 ≤ 0 → second % 60 = 59 := by
  omega

/-- The start of a second. -/
def atSecond (second : Int) : Instant := ⟨second, 0, epoch.nanos_lt, no_leap second⟩

/-! ## Order of the numbers -/

/-- The numbers on the clock, in order of their weight. -/
def ClockBefore (a b : Instant) : Prop :=
  a.hour < b.hour ∨ a.hour = b.hour ∧ (a.minute < b.minute ∨ a.minute = b.minute ∧
    (a.secondOfMinute < b.secondOfMinute ∨
      a.secondOfMinute = b.secondOfMinute ∧ a.micros < b.micros))

theorem before_cutToMicros_iff : a.cutToMicros.Before b.cutToMicros ↔
    a.second < b.second ∨ a.second = b.second ∧ a.nanos / 1000 < b.nanos / 1000 := by
  show a.second < b.second ∨ a.second = b.second ∧ a.nanos / 1000 * 1000 < b.nanos / 1000 * 1000 ↔ _
  omega

theorem day_le_of_before (h : a.cutToMicros.Before b.cutToMicros) : a.day ≤ b.day := by
  rw [before_cutToMicros_iff] at h
  unfold day
  omega

/-- On one day the clock shows the order in time. -/
theorem clockBefore_of_day_eq (h : a.cutToMicros.Before b.cutToMicros) (hday : a.day = b.day) :
    ClockBefore a b := by
  have hsecond : a.secondOfDay < b.secondOfDay ∨
      a.secondOfDay = b.secondOfDay ∧ a.nanos / 1000 < b.nanos / 1000 := by
    rw [before_cutToMicros_iff] at h
    unfold day at hday
    unfold secondOfDay
    omega
  -- a leap second is the last one of its minute, so it is behind no second of a later minute
  have hleap : 1000000000 ≤ a.nanos → a.secondOfDay % 60 = 59 := by
    have := a.leap_at_minute_end
    unfold secondOfDay
    omega
  have hnanos := a.nanos_lt
  unfold ClockBefore hour minute secondOfMinute micros
  generalize a.secondOfDay = s at hsecond hleap ⊢
  generalize b.secondOfDay = s' at hsecond ⊢
  omega

/-- The numbers of the date decide, or they are the same and the clock decides. -/
theorem numbers_of_before (ha : a.InPlainYear) (h : a.cutToMicros.Before b.cutToMicros) :
    a.date.year.toNat < b.date.year.toNat ∨ a.date.year.toNat = b.date.year.toNat ∧
      (a.date.month < b.date.month ∨ a.date.month = b.date.month ∧
        (a.date.day < b.date.day ∨ a.date.day = b.date.day ∧ ClockBefore a b)) := by
  have hle := day_le_of_before h
  by_cases hlt : a.day < b.day
  · rcases Date.before_ofDay hlt with hyear | ⟨hyear, hmonth | ⟨hmonth, hday⟩⟩
    · have hpos := ha.1
      have hyear : a.date.year < b.date.year := hyear
      exact .inl (by omega)
    · exact .inr ⟨congrArg Int.toNat hyear, .inl hmonth⟩
    · exact .inr ⟨congrArg Int.toNat hyear, .inr ⟨hmonth, .inl hday⟩⟩
  · have hsame : a.day = b.day := by omega
    have hdate : a.date = b.date := congrArg Date.ofDay hsame
    rw [hdate]
    exact .inr ⟨rfl, .inr ⟨rfl, .inr ⟨rfl, clockBefore_of_day_eq h hsame⟩⟩⟩

/-! ## Order of the texts -/

theorem digitChar_lt {m n : Nat} (h : m % 10 < n % 10) : digitChar m < digitChar n := by
  have hm : (digitChar m).val.toNat = 48 + m % 10 := toNat_digitChar m
  have hn : (digitChar n).val.toNat = 48 + n % 10 := toNat_digitChar n
  rw [Char.lt_def, UInt32.lt_iff_toNat_lt, hm, hn]
  omega

/-- Of two texts that start with numbers of one width, the smaller number decides. -/
theorem fixedDigits_append_lt {width m n : Nat} (h : m < n) (hn : n < 10 ^ width)
    (rest rest' : List Char) : fixedDigits width m ++ rest < fixedDigits width n ++ rest' := by
  induction width generalizing m n rest rest' with
  | zero => omega
  | succ width ih =>
    simp only [fixedDigits, List.append_assoc, List.singleton_append]
    by_cases hfront : m / 10 < n / 10
    · have hfits : n / 10 < 10 ^ width := by
        rw [Nat.pow_succ] at hn
        omega
      exact ih hfront hfits _ _
    · have hsame : m / 10 = n / 10 := by omega
      have hlast : m % 10 < n % 10 := by omega
      rw [hsame]
      exact List.append_left_lt (List.cons_lt_cons_iff.2 (.inl (digitChar_lt hlast)))

/-- Of two texts that start with numbers of one width and a mark, the smaller number decides, and
what follows the mark if the numbers are the same. -/
theorem fixedDigits_mark_lt {width m n : Nat} {mark : Char} {rest rest' : List Char}
    (hn : n < 10 ^ width) (h : m < n ∨ m = n ∧ rest < rest') :
    fixedDigits width m ++ mark :: rest < fixedDigits width n ++ mark :: rest' := by
  rcases h with hlt | ⟨rfl, hrest⟩
  · exact fixedDigits_append_lt hlt hn _ _
  · exact List.append_left_lt (List.cons_lt_cons_iff.2 (.inr ⟨rfl, hrest⟩))

theorem clockChars_lt (hb : b.InPlainYear) (h : ClockBefore a b) : a.clockChars < b.clockChars := by
  obtain ⟨-, -, -, hhour, hminute, hsecond, hmicros⟩ := fields_lt hb
  unfold clockChars
  refine fixedDigits_mark_lt hhour (h.imp_right (And.imp_right fun h => ?_))
  refine fixedDigits_mark_lt hminute (h.imp_right (And.imp_right fun h => ?_))
  refine fixedDigits_mark_lt hsecond (h.imp_right (And.imp_right fun h => ?_))
  exact fixedDigits_append_lt h hmicros _ _

theorem formatChars_lt (ha : a.InPlainYear) (hb : b.InPlainYear)
    (h : a.cutToMicros.Before b.cutToMicros) : a.formatChars < b.formatChars := by
  have hnumbers := numbers_of_before ha h
  obtain ⟨hyear, hmonth, hday, -⟩ := fields_lt hb
  rw [formatChars_eq ha, formatChars_eq hb]
  refine fixedDigits_mark_lt hyear (hnumbers.imp_right (And.imp_right fun h => ?_))
  refine fixedDigits_mark_lt hmonth (h.imp_right (And.imp_right fun h => ?_))
  exact fixedDigits_mark_lt hday (h.imp_right (And.imp_right (clockChars_lt hb)))

/-- **The stored spellings are in the order of time.** -/
theorem format_lt_format (ha : a.InPlainYear) (hb : b.InPlainYear)
    (h : a.cutToMicros.Before b.cutToMicros) : a.format < b.format := by
  rw [String.lt_iff, format, format, String.toList_ofList, String.toList_ofList]
  exact formatChars_lt ha hb h

end ReleaseCandidates.Instant
