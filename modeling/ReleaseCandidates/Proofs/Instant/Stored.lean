import Mathlib.Data.String.Basic
import ReleaseCandidates.Proofs.Instant.TextOrder

set_option autoImplicit false

/-! # Instants that go through their text

An instant is stored as its spelling, which ends with the microsecond. What is read back is the
instant cut to microseconds, and that has the same spelling (`Instant.format_cutToMicros`), so
nothing more is lost when it is stored again. To compare two spellings as texts is to compare what
is read back from them.

Main statement: `Instant.stored_faithfully`. -/

namespace ReleaseCandidates.Instant

variable {a b t : Instant}

/-! ## What the spelling leaves out -/

/-- The spelling says nothing that is finer than a microsecond. -/
theorem format_cutToMicros (t : Instant) : t.cutToMicros.format = t.format := by
  have hsecond : t.cutToMicros.secondOfMinute = t.secondOfMinute := by
    show t.secondOfDay % 60 + t.nanos / 1000 * 1000 / 1000000000 =
      t.secondOfDay % 60 + t.nanos / 1000000000
    omega
  have hmicros : t.cutToMicros.micros = t.micros := by
    show t.nanos / 1000 * 1000 % 1000000000 / 1000 = t.nanos % 1000000000 / 1000
    omega
  rw [format, formatChars, hsecond, hmicros]
  rfl

/-! ## Order of spellings and order in time -/

theorem before_trichotomy (a b : Instant) : a.Before b ∨ a = b ∨ b.Before a := by
  obtain ⟨second, nanos, _, _⟩ := a
  obtain ⟨second', nanos', _, _⟩ := b
  simp only [Before, mk.injEq]
  omega

theorem compare_self (a : Instant) : a.compare a = .eq := by
  rw [compare, Ordering.then_eq_eq, Int.compare_eq_eq, Nat.compare_eq_eq]
  exact ⟨rfl, rfl⟩

/-- The spellings of two instants compare as the instants do when both are cut. -/
theorem compare_format (ha : a.InPlainYear) (hb : b.InPlainYear) :
    Ord.compare a.format b.format = a.cutToMicros.compare b.cutToMicros := by
  rcases before_trichotomy a.cutToMicros b.cutToMicros with hbefore | hsame | hafter
  · rw [compare_eq_lt_iff.2 hbefore]
    exact compare_lt_iff_lt.2 (format_lt_format ha hb hbefore)
  · have htext : a.format = b.format :=
      calc a.format = a.cutToMicros.format := (format_cutToMicros a).symm
        _ = b.cutToMicros.format := by rw [hsame]
        _ = b.format := format_cutToMicros b
    rw [htext, hsame, compare_self]
    exact compare_eq_iff_eq.2 rfl
  · rw [compare_eq_gt_iff.2 hafter]
    exact compare_gt_iff_gt.2 (format_lt_format hb ha hafter)

/-! ## Stored instants -/

/-- **Instants are stored faithfully.** Let an instant lie in the years 0 to 9999. Its spelling is
read back as the instant cut to microseconds, and what is read back has this spelling again. And
for any other instant in these years, the two spellings are in the same order, as texts, as the two
instants are in time when both are cut to microseconds. -/
theorem stored_faithfully (ha : a.InPlainYear) :
    parse? a.format = some a.cutToMicros ∧ (parse? a.format).map format = some a.format ∧
      ∀ b : Instant, b.InPlainYear →
        Ord.compare a.format b.format = a.cutToMicros.compare b.cutToMicros := by
  refine ⟨parse?_format ha, ?_, fun b hb => compare_format ha hb⟩
  rw [parse?_format ha, Option.map_some, format_cutToMicros]

theorem leapDayEnd_nanos_lt : 1999999999 < 2000000000 := by
  omega

theorem leapDayEnd_at_minute_end : 1000000000 ≤ 1999999999 → (-62162035201 : Int) % 60 = 59 := by
  omega

/-- The last nanosecond of 29 February of the year zero, in a leap second. -/
def leapDayEnd : Instant :=
  ⟨-62162035201, 1999999999, leapDayEnd_nanos_lt, leapDayEnd_at_minute_end⟩

theorem leapDayEnd_stored_faithfully :
    parse? "0000-02-29T23:59:60.999999Z" = some leapDayEnd.cutToMicros ∧
      Ord.compare "0000-02-29T23:59:60.999999Z" "0000-03-01T00:00:00.000000Z" = .lt := by
  have hfirst : leapDayEnd.format = "0000-02-29T23:59:60.999999Z" := by decide +kernel
  have hnext : (atSecond (-62162035200)).format = "0000-03-01T00:00:00.000000Z" := by
    decide +kernel
  obtain ⟨hread, -, horder⟩ := stored_faithfully (a := leapDayEnd) (by decide +kernel)
  rw [← hfirst, ← hnext]
  exact ⟨hread, (horder (atSecond (-62162035200)) (by decide +kernel)).trans (by decide +kernel)⟩

end ReleaseCandidates.Instant
