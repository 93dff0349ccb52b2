import Mathlib.Data.List.TakeWhile
import ReleaseCandidates.Proofs.Instant.Stored

set_option autoImplicit false

/-! # Years that are written with a sign

Before the year 0 and after the year 9999 the spelling of an instant starts with a sign. The
internet date-time has no place for a sign, and the form that has one names no offset: each of its
numbers and marks leaves the closing `Z` alone (`ClosesWithZ`), so that the `Z` is still there when
the text should be over. Such a spelling is not read back, and the years in which an instant can go
through its text are just the plain ones (`Instant.parse?_format_eq`). -/

namespace ReleaseCandidates.Instant

variable {t : Instant} {cs rest front : List Char} {n least most limit : Nat} {c : Char}

/-! ## Numbers leave what is no digit -/

theorem append_takeDigits (limit : Nat) (cs : List Char) :
    (takeDigits limit cs).1 ++ (takeDigits limit cs).2 = cs := by
  induction limit generalizing cs with
  | zero => rfl
  | succ limit ih =>
    cases cs with
    | nil => rfl
    | cons c cs =>
      rw [takeDigits]
      split
      · exact congrArg (c :: ·) (ih cs)
      · rfl

theorem isDigit_of_mem_takeDigits (h : c ∈ (takeDigits limit cs).1) : c.isDigit = true := by
  induction limit generalizing cs with
  | zero => cases h
  | succ limit ih =>
    cases cs with
    | nil => cases h
    | cons d cs =>
      rw [takeDigits] at h
      split at h
      · rename_i hd
        rcases List.mem_cons.1 h with rfl | h
        · exact hd
        · exact ih h
      · cases h

/-- A number does not start with what is no digit. -/
theorem readNumber_eq_none (hleast : 0 < least) (hc : c.isDigit = false) :
    readNumber least most (c :: cs) = none := by
  have hdigits : takeDigits most (c :: cs) = ([], c :: cs) := by
    cases most with
    | zero => rfl
    | succ most => rw [takeDigits, if_neg (ne_true_of_eq_false hc)]
  rw [readNumber, hdigits]
  exact if_pos hleast

/-! ## The closing mark stays -/

/-- The text ends with the mark of universal time. -/
def ClosesWithZ (cs : List Char) : Prop :=
  cs.getLast? = some 'Z'

namespace ClosesWithZ

/-- What is taken off the front without the mark leaves it behind. -/
theorem of_append (h : ClosesWithZ (front ++ rest)) (hfront : 'Z' ∉ front) :
    ClosesWithZ rest := by
  rw [ClosesWithZ, List.getLast?_append] at h
  cases hlast : rest.getLast? with
  | none =>
    rw [hlast] at h
    exact absurd (List.mem_of_getLast? h) hfront
  | some d =>
    rw [hlast] at h
    exact hlast.trans h

theorem of_cons (h : ClosesWithZ (c :: cs)) (hc : c ≠ 'Z') : ClosesWithZ cs := by
  rw [← List.singleton_append] at h
  exact h.of_append (by simpa using hc.symm)

theorem dropWhile {p : Char → Bool} (h : ClosesWithZ cs) (hp : p 'Z' = false) :
    ClosesWithZ (cs.dropWhile p) := by
  rw [← List.takeWhile_append_dropWhile (p := p) (l := cs)] at h
  refine h.of_append fun hmem => ?_
  have hz : p 'Z' = true := List.mem_takeWhile_imp hmem
  exact Bool.false_ne_true (hp.symm.trans hz)

theorem takeDigits (h : ClosesWithZ cs) (limit : Nat) :
    ClosesWithZ (Instant.takeDigits limit cs).2 := by
  rw [← append_takeDigits limit cs] at h
  exact h.of_append fun hmem => absurd (isDigit_of_mem_takeDigits hmem) (by decide)

theorem readNumber (h : ClosesWithZ cs) (hread : readNumber least most cs = some (n, rest)) :
    ClosesWithZ rest := by
  simp only [Instant.readNumber] at hread
  split at hread
  · cases hread
  · obtain ⟨-, rfl⟩ : _ ∧ (Instant.takeDigits most cs).2 = rest := by simpa using hread
    exact h.takeDigits most

theorem readChar (h : ClosesWithZ cs) (hc : c ≠ 'Z') (hread : readChar c cs = some rest) :
    ClosesWithZ rest := by
  cases cs with
  | nil => cases hread
  | cons d cs =>
    rw [Instant.readChar] at hread
    split at hread
    · rename_i hd
      obtain rfl : cs = rest := by simpa using hread
      exact h.of_cons (hd ▸ hc)
    · cases hread

theorem readShort (h : ClosesWithZ cs) (hread : readShort cs = some (n, rest)) :
    ClosesWithZ rest :=
  (h.dropWhile (by decide)).readNumber hread

theorem readYear {year : Int} (h : ClosesWithZ cs) (hread : readYear cs = some (year, rest)) :
    ClosesWithZ rest := by
  have hstart : ClosesWithZ (Text.trimStart cs) := h.dropWhile (by decide)
  rw [Instant.readYear] at hread
  split at hread
  all_goals
    obtain ⟨⟨n, after⟩, hnumber, hpair⟩ := Option.map_eq_some_iff.1 hread
    obtain ⟨-, rfl⟩ : _ ∧ after = rest := by simpa using hpair
  · rename_i cs hsign
    rw [hsign] at hstart
    exact (hstart.of_cons (by decide)).readNumber hnumber
  · rename_i cs hsign
    rw [hsign] at hstart
    exact (hstart.of_cons (by decide)).readNumber hnumber
  · exact hstart.readNumber hnumber

theorem readFraction (h : ClosesWithZ cs) (hread : readFraction cs = some (n, rest)) :
    ClosesWithZ rest := by
  unfold Instant.readFraction at hread
  split at hread
  · rename_i cs
    simp only [readNanos] at hread
    split at hread
    · cases hread
    · obtain ⟨-, rfl⟩ : _ ∧ (Instant.takeDigits 9 cs).2.dropWhile Char.isDigit = rest := by
        simpa using hread
      exact ((h.of_cons (by decide)).takeDigits 9).dropWhile (by decide)
  · obtain ⟨-, rfl⟩ : _ ∧ cs = rest := by simpa using hread
    exact h

/-- A date-time that names no offset does not close with the mark of one. -/
theorem readPlain (h : ClosesWithZ cs) : readPlain cs = none := by
  rw [Option.eq_none_iff_forall_ne_some]
  intro t hread
  simp only [Instant.readPlain, Option.bind_eq_bind, Option.bind_eq_some_iff, Prod.exists] at hread
  obtain ⟨year, _, hyear, _, hdash, month, _, hmonth, _, hdash', day, _, hday, _, hmark, hour, _,
    hhour, _, hcolon, minute, _, hminute, _, hcolon', second, _, hsecond, nanos, rest, hfraction,
    hend⟩ := hread
  have hrest : ClosesWithZ rest :=
    h.readYear hyear |>.readChar (by decide) hdash |>.readShort hmonth
      |>.readChar (by decide) hdash' |>.readShort hday |>.readChar (by decide) hmark
      |>.readShort hhour |>.readChar (by decide) hcolon |>.readShort hminute
      |>.readChar (by decide) hcolon' |>.readShort hsecond |>.readFraction hfraction
  cases rest with
  | nil => cases hrest
  | cons c cs => cases hend

end ClosesWithZ

/-! ## What is read back -/

theorem closesWithZ_formatChars (t : Instant) : ClosesWithZ t.formatChars := by
  rw [ClosesWithZ, formatChars, List.getLast?_append]
  rfl

/-- Outside the plain years the spelling starts with a sign. -/
theorem exists_formatChars_eq_sign (h : ¬ t.InPlainYear) :
    ∃ sign rest, t.formatChars = sign :: rest ∧ sign.isDigit = false := by
  rw [formatChars, yearDigits, if_neg (show ¬ (0 ≤ t.date.year ∧ t.date.year ≤ 9999) from h)]
  refine ⟨if t.date.year < 0 then '-' else '+', _, rfl, ?_⟩
  split <;> rfl

/-- What is read back from the spelling of an instant: the instant cut to microseconds in the years
0 to 9999, and nothing in any other year. -/
theorem parse?_format_eq (t : Instant) :
    parse? t.format = if t.InPlainYear then some t.cutToMicros else none := by
  split
  · rename_i h
    exact parse?_format h
  · rename_i h
    obtain ⟨sign, rest, hsign, hdigit⟩ := exists_formatChars_eq_sign h
    have hinternet : readInternet t.formatChars = none := by
      rw [hsign, readInternet, readNumber_eq_none (by decide) hdigit]
      rfl
    rw [parse?, format, String.toList_ofList, hinternet,
      (closesWithZ_formatChars t).readPlain]
    rfl

end ReleaseCandidates.Instant
