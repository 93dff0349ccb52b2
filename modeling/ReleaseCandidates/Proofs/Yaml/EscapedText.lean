import Mathlib.Algebra.Group.Nat.Defs
import ReleaseCandidates.Proofs.Yaml.QuotedText

set_option autoImplicit false

/-! # Reading escaped text back

Between double quotes a character that is not plainly visible is written as a backslash and a letter
or a number in hexadecimal digits. The reader gives the character back (`readEscape_escapeTail`), so
every text at all is read back from between double quotes (`readQuoted_doubleQuoted`). -/

namespace ReleaseCandidates.Yaml

/-! ## Hexadecimal digits -/

theorem hexValue_hexDigit : ∀ n < 16, hexValue? (hexDigit n) = some n := by
  decide

/-- A digit is a visible character. -/
theorem visible_hexDigit :
    ∀ n < 16, isPrintable (hexDigit n) = true ∧ isBreak (hexDigit n) = false := by
  decide

theorem length_hexDigits (width n : Nat) : (hexDigits width n).length = width := by
  induction width generalizing n with
  | zero => rfl
  | succ width ih => simp [hexDigits, ih]

theorem mem_hexDigits {width n : Nat} {x : Char} (h : x ∈ hexDigits width n) :
    ∃ d < 16, x = hexDigit d := by
  induction width generalizing n with
  | zero => cases h
  | succ width ih =>
    rcases List.mem_append.mp h with h | h
    · exact ih h
    · exact ⟨n % 16, Nat.mod_lt _ (by decide), List.mem_singleton.mp h⟩

theorem hexDigits?_append (acc : Nat) (digits rest : List Char) (width : Nat) :
    hexDigits? acc (digits.length + width) (digits ++ rest) =
      (hexDigits? acc digits.length digits).bind fun v => hexDigits? v width rest := by
  induction digits generalizing acc with
  | nil =>
    rw [List.length_nil, Nat.zero_add]
    rfl
  | cons d digits ih =>
    rw [List.length_cons, Nat.add_right_comm, List.cons_append, hexDigits?, hexDigits?]
    cases hexValue? d with
    | none => rfl
    | some v => exact ih _

/-- The digits of a number are read as the number, as far as the width allows. -/
theorem hexDigits?_hexDigits (width n : Nat) (rest : List Char) :
    hexDigits? 0 width (hexDigits width n ++ rest) = some (n % 16 ^ width) := by
  induction width generalizing n rest with
  | zero => simp [hexDigits?, Nat.mod_one]
  | succ width ih =>
    have happend := hexDigits?_append 0 (hexDigits width (n / 16)) (hexDigit (n % 16) :: rest) 1
    have hdigits := ih (n / 16) []
    rw [length_hexDigits] at happend
    rw [List.append_nil] at hdigits
    have hlast : ∀ v, hexDigits? v 1 (hexDigit (n % 16) :: rest) = some (16 * v + n % 16) := by
      intro v
      rw [hexDigits?, hexValue_hexDigit _ (Nat.mod_lt _ (by decide))]
      rfl
    rw [hexDigits, List.append_assoc, List.singleton_append, happend, hdigits]
    show hexDigits? _ 1 _ = _
    rw [hlast, Nat.pow_succ, Nat.mul_comm (16 ^ width) 16, Nat.mod_mul, Nat.add_comm]

/-! ## Escapes -/

theorem not_surrogate_toNat (x : Char) :
    ¬((0xD800 ≤ x.toNat ∧ x.toNat ≤ 0xDFFF) ∨ 0x10FFFF < x.toNat) := by
  have hvalid : x.toNat < 0xD800 ∨ 0xDFFF < x.toNat ∧ x.toNat < 0x110000 := x.valid
  omega

/-- What stands after a backslash are visible characters. -/
theorem visible_of_mem_escapeTail {x y : Char} (h : y ∈ escapeTail x) :
    isPrintable y = true ∧ isBreak y = false := by
  have hdigits : ∀ {letter : Char} {width n : Nat}, isPrintable letter = true →
      isBreak letter = false → y ∈ letter :: hexDigits width n →
      isPrintable y = true ∧ isBreak y = false := by
    intro letter width n hprint hbreak hy
    rcases List.mem_cons.mp hy with rfl | hy
    · exact ⟨hprint, hbreak⟩
    · obtain ⟨d, hd, rfl⟩ := mem_hexDigits hy
      exact visible_hexDigit d hd
  unfold escapeTail at h
  split at h
  case h_16 =>
    split at h
    · exact hdigits rfl rfl h
    · split at h
      · exact hdigits rfl rfl h
      · exact hdigits rfl rfl h
  all_goals
    rw [List.mem_singleton.mp h]
    exact ⟨rfl, rfl⟩

theorem escapeTail_ne_nil (x : Char) : escapeTail x ≠ [] := by
  unfold escapeTail
  split
  case h_16 =>
    split
    · simp
    · split <;> simp
  all_goals simp

variable {c : Cursor} {x : Char} {rest : List Char}

/-- A letter that needs no digits after it is read as what it stands for. -/
theorem readEscape_simple {letter : Char} (hc : c.rest = '\\' :: letter :: rest)
    (h : simpleEscape? letter = some x) : readEscape c = some (x, c.skip 2) := by
  have hpeek : c.peek 1 = some letter := by simp [Cursor.peek, hc]
  simp [readEscape, hpeek, h]

/-- A letter with digits after it is read as the character with that number. -/
theorem readEscape_digits {letter : Char} {width : Nat}
    (hc : c.rest = '\\' :: letter :: (hexDigits width x.toNat ++ rest))
    (hsimple : simpleEscape? letter = none) (hwidth : escapeWidth? letter = some width)
    (hx : x.toNat < 16 ^ width) : readEscape c = some (x, c.skip (2 + width)) := by
  have hpeek : c.peek 1 = some letter := by simp [Cursor.peek, hc]
  have hdigits : hexDigits? 0 width (c.rest.drop 2) = some x.toNat := by
    rw [hc]
    show hexDigits? 0 width (hexDigits width x.toNat ++ rest) = _
    rw [hexDigits?_hexDigits, Nat.mod_eq_of_lt hx]
  unfold readEscape
  simp only [hpeek, hsimple, hwidth, hdigits]
  rw [if_neg (not_surrogate_toNat x), Char.ofNat_toNat]

/-- **An escaped character is read back.** -/
theorem readEscape_escapeTail (hc : c.rest = '\\' :: (escapeTail x ++ rest)) :
    readEscape c = some (x, c.skip (1 + (escapeTail x).length)) := by
  generalize htail : escapeTail x = tail at hc ⊢
  unfold escapeTail at htail
  split at htail
  case h_16 =>
    split at htail
    · next hle =>
      subst htail
      rw [readEscape_digits hc rfl rfl (by omega), List.length_cons, length_hexDigits]
    · split at htail
      · next hle =>
        subst htail
        rw [readEscape_digits hc rfl rfl (by omega), List.length_cons, length_hexDigits]
      · subst htail
        have hx := not_surrogate_toNat x
        rw [readEscape_digits hc rfl rfl (by omega), List.length_cons, length_hexDigits]
  all_goals
    next hx =>
      have hchar := Char.ofNat_toNat x
      rw [hx] at hchar
      subst htail hchar
      exact readEscape_simple hc rfl

/-! ## Double quotes -/

/-- Whether the character is escaped between double quotes. -/
def isEscaped (x : Char) : Bool :=
  !isPrintable x || isBreak x || x == '"' || x == '\\'

/-- What is written for a character between double quotes. -/
def escapedChar (x : Char) : List Char :=
  if isEscaped x then '\\' :: escapeTail x else [x]

theorem doubleQuoted_eq (text : List Char) : doubleQuoted text = text.flatMap escapedChar := by
  induction text with
  | nil => rfl
  | cons x text ih =>
    rw [doubleQuoted, ih]
    rfl

theorem visible_of_mem_escapedChar {x y : Char} (h : y ∈ escapedChar x) :
    isPrintable y = true ∧ isBreak y = false := by
  unfold escapedChar at h
  split at h
  · rcases List.mem_cons.mp h with rfl | h
    · exact ⟨rfl, rfl⟩
    · exact visible_of_mem_escapeTail h
  · next hx =>
    rw [List.mem_singleton.mp h]
    simp only [isEscaped, Bool.or_eq_true, not_or, Bool.not_eq_true, Bool.not_eq_false'] at hx
    exact hx.1.1

theorem escapedChar_space : escapedChar ' ' = [' '] := by
  decide

/-- One turn of the reader gives one character, escaped or not. -/
theorem readQuotedRun_escapedChar {fuel : Nat} {acc : List Char} (hx : x ≠ ' ')
    (hc : c.rest = escapedChar x ++ rest) :
    readQuotedRun false (fuel + 1) c acc =
      readQuotedRun false fuel (c.walk (escapedChar x)) (x :: acc) := by
  by_cases hescaped : isEscaped x = true
  · have hchar : escapedChar x = '\\' :: escapeTail x := if_pos hescaped
    rw [hchar] at hc ⊢
    obtain ⟨letter, tail, htail⟩ := List.exists_cons_of_ne_nil (escapeTail_ne_nil x)
    have hescape := readEscape_escapeTail hc
    have hletter : c.test 1 isBreak = false := by
      have hbreak : isBreak letter = false := (visible_of_mem_escapeTail (x := x) (by simp [htail])).2
      simp [Cursor.test, Cursor.peek, hc, htail, hbreak]
    have hskip : c.walk ('\\' :: escapeTail x) = c.skip (1 + (escapeTail x).length) := by
      rw [Cursor.walk_eq_skip, List.length_cons, Nat.add_comm]
      intro y hy
      rcases List.mem_cons.mp hy with rfl | hy
      · rfl
      · exact (visible_of_mem_escapeTail hy).2
    rw [readQuotedRun, Cursor.peek_zero hc, hskip]
    simp only [hletter, hescape]
    rfl
  · have hchar : escapedChar x = [x] := if_neg hescaped
    rw [hchar] at hc ⊢
    simp only [isEscaped, Bool.or_eq_true, not_or, Bool.not_eq_true, Bool.not_eq_false'] at hescaped
    obtain ⟨⟨⟨hprint, hbreak⟩, hquote⟩, hslash⟩ := hescaped
    have hgap : isGap x = false := by
      rw [Bool.eq_false_iff]
      exact fun h => hx (eq_space_of_isPrintable h hprint)
    rw [readQuotedRun, Cursor.peek_zero hc, Cursor.walk_singleton hbreak]
    simp [hgap, hbreak, hquote, hslash]

/-- What ends a word between double quotes. -/
def EndsEscapedWord (rest : List Char) : Prop :=
  ∃ x tail, rest = x :: tail ∧ (x = ' ' ∨ x = '"')

/-- The reader takes the characters of a word without spaces. -/
theorem readQuotedRun_double {word rest : List Char} (hword : ∀ x ∈ word, x ≠ ' ')
    (hrest : EndsEscapedWord rest) :
    ∀ {fuel : Nat} {c : Cursor} {acc : List Char}, c.rest = doubleQuoted word ++ rest →
      word.length ≤ fuel →
      readQuotedRun false fuel c acc =
        some (word.reverse ++ acc, false, c.walk (doubleQuoted word)) := by
  induction word with
  | nil =>
    intro fuel c acc hc _
    obtain ⟨x, tail, rfl, hx⟩ := hrest
    have hc' : c.rest = x :: tail := hc
    cases fuel with
    | zero => rfl
    | succ fuel =>
      rw [readQuotedRun, Cursor.peek_zero hc']
      rcases hx with rfl | rfl <;> rfl
  | cons x word ih =>
    intro fuel c acc hc hfuel
    obtain ⟨fuel, rfl⟩ : ∃ k, fuel = k + 1 := ⟨fuel - 1, by simp at hfuel; omega⟩
    have hwritten : doubleQuoted (x :: word) = escapedChar x ++ doubleQuoted word := rfl
    rw [hwritten, List.append_assoc] at hc
    rw [readQuotedRun_escapedChar (hword x (by simp)) hc,
      ih (fun y hy => hword y (by simp [hy])) (Cursor.rest_walk hc) (by simpa using hfuel),
      hwritten, Cursor.walk_append, List.reverse_cons, List.append_assoc]
    rfl

theorem isPrintable_of_mem_doubleQuoted {text : List Char} {x : Char}
    (h : x ∈ doubleQuoted text) : isPrintable x = true := by
  rw [doubleQuoted_eq] at h
  obtain ⟨y, -, hy⟩ := List.mem_flatMap.mp h
  exact (visible_of_mem_escapedChar hy).1

theorem isBlank_head_doubleQuoted {rest : List Char} (hrest : ∀ x ∈ rest.head?, x ≠ ' ')
    (after : List Char) :
    ∀ x ∈ (doubleQuoted rest ++ '"' :: after).head?, isGap x = false ∧ isBreak x = false := by
  intro x hx
  cases rest with
  | nil =>
    obtain rfl : '"' = x := by simpa [doubleQuoted] using hx
    exact ⟨rfl, rfl⟩
  | cons y rest =>
    have hwritten : doubleQuoted (y :: rest) = escapedChar y ++ doubleQuoted rest := rfl
    rw [hwritten] at hx
    by_cases hescaped : isEscaped y = true
    · obtain rfl : '\\' = x := by simpa [escapedChar, hescaped] using hx
      exact ⟨rfl, rfl⟩
    · obtain rfl : y = x := by simpa [escapedChar, hescaped] using hx
      simp only [isEscaped, Bool.or_eq_true, not_or, Bool.not_eq_true, Bool.not_eq_false'] at hescaped
      refine ⟨?_, hescaped.1.1.2⟩
      rw [Bool.eq_false_iff]
      exact fun hgap => hrest y (by simp) (eq_space_of_isPrintable hgap hescaped.1.1.1)

theorem doubleQuoted_append (text text' : List Char) :
    doubleQuoted (text ++ text') = doubleQuoted text ++ doubleQuoted text' := by
  simp only [doubleQuoted_eq, List.flatMap_append]

theorem doubleQuoted_spaces (n : Nat) : doubleQuoted (spaces n) = spaces n := by
  induction n with
  | zero => rfl
  | succ n ih =>
    show escapedChar ' ' ++ doubleQuoted (spaces n) = spaces (n + 1)
    rw [ih, escapedChar_space]
    rfl

theorem length_le_doubleQuoted (text : List Char) : text.length ≤ (doubleQuoted text).length := by
  induction text with
  | nil => exact Nat.le_refl _
  | cons x text ih =>
    have hwritten : doubleQuoted (x :: text) = escapedChar x ++ doubleQuoted text := rfl
    have hpos : 0 < (escapedChar x).length := by
      unfold escapedChar
      split <;> simp
    rw [hwritten, List.length_append, List.length_cons]
    omega

/-- **A text between double quotes is read back**, whatever its characters. -/
theorem readQuoted_doubleQuoted {after : List Char} (text : List Char) :
    ∀ (fuel : Nat) (c : Cursor) (acc : List Char), 0 < c.column →
      c.rest = doubleQuoted text ++ '"' :: after → c.rest.length ≤ fuel →
      readQuoted false fuel c acc =
        some (acc.reverse ++ text, c.walk (doubleQuoted text ++ ['"'])) := by
  induction text using runs_induction (· == ' ') with
  | last word hword =>
    intro fuel c acc hcolumn hc hfuel
    have hlength := length_le_doubleQuoted word
    have hrest : c.rest.length = (doubleQuoted word).length + (after.length + 1) := by simp [hc]
    obtain ⟨fuel, rfl⟩ : ∃ k, fuel = k + 1 := ⟨fuel - 1, by omega⟩
    have hrun : readQuotedRun false fuel c acc =
        some (word.reverse ++ acc, false, c.walk (doubleQuoted word)) :=
      readQuotedRun_double (fun x hx => by simpa using hword x hx) ⟨_, _, rfl, .inr rfl⟩ hc
        (by omega)
    rw [readQuoted_last hcolumn hc hrun]
    simp [quoteMark]
  | next word gap rest hword hne hspaces hrest ih =>
    intro fuel c acc hcolumn hc hfuel
    obtain ⟨k, rfl⟩ := exists_eq_spaces hne fun x hx => by simpa using hspaces x hx
    have hall : doubleQuoted (word ++ (spaces (k + 1) ++ rest)) =
        doubleQuoted word ++ (spaces (k + 1) ++ doubleQuoted rest) := by
      rw [doubleQuoted_append, doubleQuoted_append, doubleQuoted_spaces]
    have hc' : c.rest =
        doubleQuoted word ++ (spaces (k + 1) ++ (doubleQuoted rest ++ '"' :: after)) := by
      rw [hc, hall]
      simp only [List.append_assoc]
    have hlength := length_le_doubleQuoted word
    have hlengthAll : c.rest.length = (doubleQuoted word).length +
        ((k + 1) + ((doubleQuoted rest).length + (after.length + 1))) := by
      rw [hc']
      simp only [List.length_append, List.length_cons, length_spaces]
    obtain ⟨fuel, rfl⟩ : ∃ k, fuel = k + 1 := ⟨fuel - 1, by omega⟩
    have hends : EndsEscapedWord (spaces (k + 1) ++ (doubleQuoted rest ++ '"' :: after)) :=
      ⟨_, _, rfl, .inl rfl⟩
    have hrun : readQuotedRun false fuel c acc =
        some (word.reverse ++ acc, false, c.walk (doubleQuoted word)) :=
      readQuotedRun_double (fun x hx => by simpa using hword x hx) hends hc' (by omega)
    have hplace : (c.walk (doubleQuoted word ++ spaces (k + 1))).rest =
        doubleQuoted rest ++ '"' :: after := by
      rw [Cursor.walk_append]
      exact Cursor.rest_walk (Cursor.rest_walk hc')
    have hcolumn' : 0 < (c.walk (doubleQuoted word ++ spaces (k + 1))).column := by
      rw [Cursor.walk_append, Cursor.column_walk fun _ => not_isBreak_of_mem_spaces, length_spaces]
      omega
    have hafter := isBlank_head_doubleQuoted (fun x hx => by simpa using hrest x hx) after
    rw [readQuoted_next hcolumn hc' hrun hne (fun x hx => .inl (List.eq_of_mem_replicate hx)) hafter
      (by rw [length_spaces]; omega), Gap.text_spaces, ih fuel _ _ hcolumn' hplace
      (by rw [hplace, List.length_append, List.length_cons]; omega), hall, ← Cursor.walk_append]
    simp only [List.reverse_append, List.reverse_reverse, List.append_assoc]

end ReleaseCandidates.Yaml
