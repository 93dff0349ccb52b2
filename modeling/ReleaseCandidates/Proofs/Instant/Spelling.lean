import Mathlib.Algebra.Group.Nat.Defs
import ReleaseCandidates.Instant.Text
import ReleaseCandidates.Proofs.Instant.Dates

set_option autoImplicit false

/-! # The stored spelling is read back

Within the years 0 to 9999 the spelling that is stored has a fixed width for every number, and
reading it gives the instant it was written for, cut to microseconds (`Instant.parse?_format`). The
proof follows the reader from number to number; what is left to the end is that the numbers of an
instant make up the instant (`Instant.ofFields_fields`), where the calendar comes in. -/

namespace ReleaseCandidates.Instant

/-! ## Digits -/

theorem toNat_digitChar (n : Nat) : (digitChar n).toNat = 48 + n % 10 := by
  have hall : ∀ k < 10, (Char.ofNat (48 + k)).toNat = 48 + k := by decide
  exact hall (n % 10) (Nat.mod_lt n (by decide))

theorem isDigit_digitChar (n : Nat) : (digitChar n).isDigit = true := by
  have hall : ∀ k < 10, (Char.ofNat (48 + k)).isDigit = true := by decide
  exact hall (n % 10) (Nat.mod_lt n (by decide))

theorem isDigit_of_mem_fixedDigits {width n : Nat} {c : Char} (h : c ∈ fixedDigits width n) :
    c.isDigit = true := by
  induction width generalizing n with
  | zero => cases h
  | succ width ih =>
    rw [fixedDigits, List.mem_append, List.mem_singleton] at h
    rcases h with h | rfl
    · exact ih h
    · exact isDigit_digitChar n

theorem digitsValue_concat (acc : Nat) (digits : List Char) (c : Char) :
    digitsValue acc (digits ++ [c]) = 10 * digitsValue acc digits + (c.toNat - 48) := by
  induction digits generalizing acc with
  | nil => rfl
  | cons d digits ih => exact ih _

theorem digitsValue_fixedDigits (width n : Nat) :
    digitsValue 0 (fixedDigits width n) = n % 10 ^ width := by
  induction width generalizing n with
  | zero => exact (Nat.mod_one n).symm
  | succ width ih =>
    rw [fixedDigits, digitsValue_concat, ih, toNat_digitChar, Nat.add_sub_cancel_left,
      Nat.pow_succ', Nat.mod_mul, Nat.add_comm]

/-- All digits are taken if the limit allows it and nothing behind them can be taken too. -/
theorem takeDigits_append {limit : Nat} {digits rest : List Char}
    (hdigits : ∀ c ∈ digits, c.isDigit = true) (hlimit : digits.length ≤ limit)
    (hrest : digits.length = limit ∨ ∀ c ∈ rest.head?, c.isDigit = false) :
    takeDigits limit (digits ++ rest) = (digits, rest) := by
  induction digits generalizing limit with
  | nil =>
    cases rest with
    | nil => cases limit <;> rfl
    | cons c rest =>
      rcases hrest with rfl | hrest
      · rfl
      · have hc : c.isDigit = false := hrest c rfl
        cases limit with
        | zero => rfl
        | succ limit => rw [List.nil_append, takeDigits, hc, if_neg Bool.false_ne_true]
  | cons d digits ih =>
    cases limit with
    | zero => cases hlimit
    | succ limit =>
      have hd : d.isDigit = true := hdigits d List.mem_cons_self
      have htail : takeDigits limit (digits ++ rest) = (digits, rest) :=
        ih (fun c hc => hdigits c (List.mem_cons_of_mem d hc)) (Nat.le_of_succ_le_succ hlimit)
          (hrest.imp_left Nat.succ.inj)
      rw [List.cons_append, takeDigits, if_pos hd, htail]

/-- A number written with a fixed width is read back with that width. -/
theorem readNumber_fixedDigits {width n : Nat} (h : n < 10 ^ width) (rest : List Char) :
    readNumber width width (fixedDigits width n ++ rest) = some (n, rest) := by
  have hlength := length_fixedDigits width n
  rw [readNumber, takeDigits_append (fun c => isDigit_of_mem_fixedDigits) (Nat.le_of_eq hlength)
    (.inl hlength)]
  simp only [hlength, Nat.lt_irrefl, if_false, digitsValue_fixedDigits, Nat.mod_eq_of_lt h]

theorem readChar_cons (c : Char) (rest : List Char) : readChar c (c :: rest) = some rest :=
  if_pos rfl

theorem readSeparator_cons (rest : List Char) : readSeparator ('T' :: rest) = some rest :=
  rfl

theorem readOffset_z : readOffset ['Z'] = some (0, []) :=
  rfl

/-- Six digits of a second are microseconds. -/
theorem readFraction_micros {micros : Nat} (h : micros < 10 ^ 6) :
    readFraction ('.' :: (fixedDigits 6 micros ++ ['Z'])) = some (micros * 1000, ['Z']) := by
  have hlength := length_fixedDigits 6 micros
  have htake : takeDigits 9 (fixedDigits 6 micros ++ ['Z']) = (fixedDigits 6 micros, ['Z']) :=
    takeDigits_append (fun c => isDigit_of_mem_fixedDigits) (by rw [hlength]; decide)
      (.inr fun c hc => by cases hc; rfl)
  have hempty : (fixedDigits 6 micros).isEmpty = false := by
    rw [List.isEmpty_eq_false_iff, ← List.length_pos_iff, hlength]
    decide
  rw [readFraction, readNanos, htake]
  simp only [hempty, hlength, digitsValue_fixedDigits, Nat.mod_eq_of_lt h]
  rfl

/-! ## The numbers of an instant -/

/-- Whether the instant lies in a year that is written with four digits and no sign. -/
def InPlainYear (t : Instant) : Prop :=
  0 ≤ t.date.year ∧ t.date.year ≤ 9999

instance (t : Instant) : Decidable t.InPlainYear := by
  unfold InPlainYear; infer_instance

theorem secondOfDay_lt (t : Instant) : t.secondOfDay < 86400 := by
  unfold secondOfDay
  omega

theorem month_le (t : Instant) : t.date.month ≤ 12 :=
  (Date.valid_ofDay t.day).2.1

theorem day_le (t : Instant) : t.date.day ≤ 31 :=
  Nat.le_trans (Date.valid_ofDay t.day).2.2.2 (daysInMonth_le _ _)

theorem hour_le (t : Instant) : t.hour ≤ 23 := by
  have := t.secondOfDay_lt
  unfold hour
  omega

theorem minute_le (t : Instant) : t.minute ≤ 59 := by
  unfold minute
  omega

theorem secondOfMinute_le (t : Instant) : t.secondOfMinute ≤ 60 := by
  have hleap := t.leap_at_minute_end
  have hnanos := t.nanos_lt
  unfold secondOfMinute secondOfDay
  omega

theorem micros_lt (t : Instant) : t.micros < 1000000 := by
  unfold micros
  omega

/-- The numbers of an instant make up the instant, cut to microseconds. -/
theorem ofFields_fields {t : Instant} (h : t.InPlainYear) :
    ofFields t.date t.hour t.minute t.secondOfMinute (t.micros * 1000) 0 = some t.cutToMicros := by
  have hclock : t.date.Valid ∧ -262143 ≤ t.date.year ∧ t.date.year ≤ 262142 ∧ t.hour ≤ 23 ∧
      t.minute ≤ 59 :=
    ⟨Date.valid_ofDay t.day, by have := h.1; omega, by have := h.2; omega, t.hour_le, t.minute_le⟩
  have hleap := t.leap_at_minute_end
  have hnanos := t.nanos_lt
  have hday : t.date.toDay = t.second / 86400 := Date.toDay_ofDay t.day
  have hminute : t.date.toDay * 1440 + t.hour * 60 + t.minute - 0 = t.second / 60 := by
    rw [hday]
    unfold hour minute secondOfDay
    omega
  have hrange : t.secondOfMinute ≤ 60 ∧ t.micros * 1000 < 1000000000 :=
    ⟨t.secondOfMinute_le, by have := t.micros_lt; omega⟩
  rw [ofFields, if_pos hclock, hminute, ofMinute, dif_pos hrange]
  -- second 60 is the leap second, which is kept with the second before it
  split
  · rename_i h60
    simp only [cutToMicros, Option.some.injEq, mk.injEq]
    unfold secondOfMinute secondOfDay at h60
    unfold micros
    omega
  · rename_i h60
    simp only [cutToMicros, Option.some.injEq, mk.injEq]
    unfold secondOfMinute secondOfDay at h60 ⊢
    unfold micros
    omega

/-! ## The whole spelling -/

/-- Each number of an instant in a plain year has a place in the width it is written with. -/
theorem fields_lt {t : Instant} (h : t.InPlainYear) :
    t.date.year.toNat < 10 ^ 4 ∧ t.date.month < 10 ^ 2 ∧ t.date.day < 10 ^ 2 ∧ t.hour < 10 ^ 2 ∧
      t.minute < 10 ^ 2 ∧ t.secondOfMinute < 10 ^ 2 ∧ t.micros < 10 ^ 6 := by
  have hyear := h.2
  have hmonth := t.month_le
  have hday := t.day_le
  have hhour := t.hour_le
  have hminute := t.minute_le
  have hsecond := t.secondOfMinute_le
  have hmicros := t.micros_lt
  omega

/-- What the stored spelling says about the clock. -/
def clockChars (t : Instant) : List Char :=
  fixedDigits 2 t.hour ++ ':' :: (fixedDigits 2 t.minute ++
    ':' :: (fixedDigits 2 t.secondOfMinute ++ '.' :: (fixedDigits 6 t.micros ++ ['Z'])))

/-- The stored spelling of an instant in a plain year, number by number. -/
theorem formatChars_eq {t : Instant} (h : t.InPlainYear) :
    t.formatChars = fixedDigits 4 t.date.year.toNat ++ '-' :: (fixedDigits 2 t.date.month ++
      '-' :: (fixedDigits 2 t.date.day ++ 'T' :: t.clockChars)) := by
  rw [formatChars, yearDigits, if_pos (show 0 ≤ t.date.year ∧ t.date.year ≤ 9999 from h)]
  simp only [clockChars, List.append_assoc, List.cons_append]

theorem readInternet_formatChars {t : Instant} (h : t.InPlainYear) :
    readInternet t.formatChars = some t.cutToMicros := by
  obtain ⟨hyear, hmonth, hday, hhour, hminute, hsecond, hmicros⟩ := fields_lt h
  have hyearBack : ((t.date.year.toNat : Nat) : Int) = t.date.year := Int.toNat_of_nonneg h.1
  rw [formatChars_eq h, readInternet]
  simp only [clockChars, readNumber_fixedDigits, readChar_cons, readSeparator_cons,
    readFraction_micros, readOffset_z, hyear, hmonth, hday, hhour, hminute, hsecond, hmicros,
    hyearBack, Option.bind_some, Option.bind_eq_bind, List.isEmpty_nil, if_true]
  exact ofFields_fields h

/-- **The stored spelling of an instant is read back** as the instant cut to microseconds. -/
theorem parse?_format {t : Instant} (h : t.InPlainYear) : parse? t.format = some t.cutToMicros := by
  rw [parse?, format, String.toList_ofList, readInternet_formatChars h]
  rfl

end ReleaseCandidates.Instant
