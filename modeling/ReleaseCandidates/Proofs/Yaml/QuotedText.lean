import ReleaseCandidates.Proofs.Yaml.Walking

set_option autoImplicit false

/-! # Reading quoted text back

A text between quotes is read back as the text that was written (`readQuoted_singleQuoted`,
`readQuoted_doubleQuoted`). The reader alternates between words and gaps, and one turn of it is the
same for both kinds of quotes. Between single quotes a quote is doubled and the lines after a
separator are indented; between double quotes everything that is not plainly visible is escaped. -/

namespace ReleaseCandidates.Yaml

variable {c : Cursor} {acc acc' : List Char} {fuel : Nat}

/-- The quote around a text. -/
def quoteMark (single : Bool) : Char := if single then '\x27' else '"'

theorem atDocumentMark_eq_false (h : 0 < c.column) : c.atDocumentMark = false := by
  have hcolumn : (c.column == 0) = false := by simp; omega
  simp [Cursor.atDocumentMark, Cursor.atMark, hcolumn]

/-! ## Turns of the reader -/

/-- The reader stops at the closing quote. -/
theorem readQuoted_last {single : Bool} {written after : List Char} (hcolumn : 0 < c.column)
    (hc : c.rest = written ++ quoteMark single :: after)
    (hrun : readQuotedRun single fuel c acc = some (acc', false, c.walk written)) :
    readQuoted single (fuel + 1) c acc =
      some (acc'.reverse, c.walk (written ++ [quoteMark single])) := by
  have hend : c.endsAt 0 = false := by
    cases written <;> simp [Cursor.endsAt, Cursor.peek, hc]
  have hquote : (c.walk written).has 0 (quoteMark single) = true := by
    simp [Cursor.has, Cursor.peek_zero (Cursor.rest_walk hc)]
  have hbreak : isBreak (quoteMark single) = false := by cases single <;> rfl
  rw [readQuoted, atDocumentMark_eq_false hcolumn, hend]
  simp only [hrun, Bool.or_self, Bool.false_eq_true, if_false]
  rw [← quoteMark, hquote, Cursor.walk_append, Cursor.walk_singleton hbreak]
  rfl

/-- The reader goes on after a gap. -/
theorem readQuoted_next {single : Bool} {written gap after : List Char} (hcolumn : 0 < c.column)
    (hc : c.rest = written ++ (gap ++ after))
    (hrun : readQuotedRun single fuel c acc = some (acc', false, c.walk written))
    (hne : gap ≠ []) (hgap : ∀ x ∈ gap, x = ' ' ∨ isKeptBreak x = true)
    (hafter : ∀ x ∈ after.head?, isGap x = false ∧ isBreak x = false)
    (hfuel : gap.length ≤ fuel) :
    readQuoted single (fuel + 1) c acc =
      readQuoted single fuel (c.walk (written ++ gap))
        ((gap.foldl Gap.add Gap.none).text.reverse ++ acc') := by
  obtain ⟨x, gap', rfl⟩ : ∃ x gap', gap = x :: gap' := List.exists_cons_of_ne_nil hne
  have hend : c.endsAt 0 = false := by
    cases written <;> simp [Cursor.endsAt, Cursor.peek, hc]
  have hx : (x == quoteMark single) = false := by
    rcases hgap x (by simp) with rfl | hx
    · cases single <;> rfl
    · have hne : x ≠ quoteMark single := by
        rintro rfl
        cases single <;> cases hx
      simp [hne]
  have hquote : (c.walk written).has 0 (quoteMark single) = false := by
    simpa [Cursor.has, Cursor.peek_zero (Cursor.rest_walk hc)] using hx
  rw [readQuoted, atDocumentMark_eq_false hcolumn, hend]
  simp only [hrun, Bool.or_self, Bool.false_eq_true, if_false]
  rw [← quoteMark, hquote, Gap.read_walk _ hgap hafter Gap.none (Cursor.rest_walk hc) hfuel,
    Cursor.walk_append]
  rfl

/-! ## Neighbours -/

section Neighbours

variable {p q : Char → Bool}

theorem hasNeighbours_of_append {text text' : List Char}
    (h : hasNeighbours p q (text ++ text') = false) :
    hasNeighbours p q text = false ∧ hasNeighbours p q text' = false := by
  induction text with
  | nil => exact ⟨rfl, h⟩
  | cons x text ih =>
    cases text with
    | nil =>
      refine ⟨rfl, ?_⟩
      cases text' with
      | nil => rfl
      | cons y text' =>
        simp only [List.singleton_append, hasNeighbours, Bool.or_eq_false_iff] at h
        exact h.2
    | cons y text =>
      simp only [List.cons_append, hasNeighbours, Bool.or_eq_false_iff] at h ih ⊢
      exact ⟨⟨h.1, (ih h.2).1⟩, (ih h.2).2⟩

/-- Of a text of two kinds of characters that are never neighbours, all characters are of one
kind. -/
theorem all_of_not_hasNeighbours {text : List Char} (htext : ∀ x ∈ text, p x = true ∨ q x = true)
    (hpq : hasNeighbours p q text = false) (hqp : hasNeighbours q p text = false) :
    (∀ x ∈ text, p x = true) ∨ ∀ x ∈ text, q x = true := by
  induction text with
  | nil => exact .inl (by simp)
  | cons x text ih =>
    cases text with
    | nil =>
      rcases htext x (by simp) with hx | hx
      · exact .inl (by simpa using hx)
      · exact .inr (by simpa using hx)
    | cons y text =>
      simp only [hasNeighbours, Bool.or_eq_false_iff, Bool.and_eq_false_iff] at hpq hqp
      have ih := ih (fun z hz => htext z (by simp [hz])) hpq.2 hqp.2
      have hx := htext x (by simp)
      rcases ih with hall | hall
      · have hy := hall y (by simp)
        refine .inl fun z hz => ?_
        rcases List.mem_cons.mp hz with rfl | hz
        · rcases hx with hx | hx
          · exact hx
          · simp [hx, hy] at hqp
        · exact hall z hz
      · have hy := hall y (by simp)
        refine .inr fun z hz => ?_
        rcases List.mem_cons.mp hz with rfl | hz
        · rcases hx with hx | hx
          · simp [hx, hy] at hpq
          · exact hx
        · exact hall z hz

end Neighbours

/-! ## Single quotes -/

/-- A text without line breaks between single quotes. -/
def quotesDoubled (text : List Char) : List Char :=
  text.flatMap fun x => if x == '\x27' then ['\x27', '\x27'] else [x]

theorem quotesDoubled_quote (text : List Char) :
    quotesDoubled ('\x27' :: text) = ['\x27', '\x27'] ++ quotesDoubled text := rfl

theorem quotesDoubled_cons {x : Char} (h : x ≠ '\x27') (text : List Char) :
    quotesDoubled (x :: text) = [x] ++ quotesDoubled text := by
  simp [quotesDoubled, h]

theorem length_le_quotesDoubled (text : List Char) : text.length ≤ (quotesDoubled text).length := by
  induction text with
  | nil => exact Nat.le_refl _
  | cons x text ih =>
    by_cases hx : x = '\x27'
    · subst hx
      simp only [quotesDoubled_quote, List.length_append, List.length_cons]
      omega
    · simp only [quotesDoubled_cons hx, List.length_append, List.length_cons]
      omega

theorem not_isBreak_of_mem_quotesDoubled {word : List Char} (h : ∀ x ∈ word, isBreak x = false) :
    ∀ x ∈ quotesDoubled word, isBreak x = false := by
  intro x hx
  obtain ⟨y, hy, hxy⟩ := List.mem_flatMap.mp hx
  split at hxy
  · obtain rfl : x = '\x27' := by simpa using hxy
    rfl
  · obtain rfl : x = y := by simpa using hxy
    exact h x hy

theorem quotesDoubled_of_not_mem {text : List Char} (h : '\x27' ∉ text) :
    quotesDoubled text = text := by
  induction text with
  | nil => rfl
  | cons x text ih =>
    rw [List.mem_cons, not_or] at h
    rw [quotesDoubled_cons (Ne.symm h.1), ih h.2]
    rfl

theorem singleQuoted_append (n : Nat) {word : List Char} (h : ∀ x ∈ word, isBreak x = false)
    (rest : List Char) :
    singleQuoted n false (word ++ rest) = quotesDoubled word ++ singleQuoted n false rest := by
  induction word with
  | nil => rfl
  | cons x word ih =>
    rw [List.cons_append, singleQuoted, ih fun y hy => h y (by simp [hy])]
    simp [h x (by simp), quotesDoubled]

theorem singleQuoted_breaks (n : Nat) (b : Bool) {gap : List Char} (hne : gap ≠ [])
    (h : ∀ x ∈ gap, isBreak x = true) {rest : List Char}
    (hrest : ∀ x ∈ rest.head?, isBreak x = false) :
    singleQuoted n b (gap ++ rest) = gap ++ spaces n ++ singleQuoted n false rest := by
  induction gap generalizing b with
  | nil => exact absurd rfl hne
  | cons x gap ih =>
    rw [List.cons_append, singleQuoted, if_pos (h x (by simp))]
    cases gap with
    | nil =>
      cases rest with
      | nil => simp [singleQuoted]
      | cons y rest => simp [singleQuoted, hrest y (by simp)]
    | cons y gap =>
      rw [ih true (by simp) fun z hz => h z (by simp [hz])]
      simp

/-- What ends a word between single quotes: a gap, or a quote with no other one after it. -/
def EndsQuotedWord (rest : List Char) : Prop :=
  ∃ x tail, rest = x :: tail ∧
    (isGap x = true ∨ isBreak x = true ∨ x = '\x27' ∧ tail.head? ≠ some '\x27')

theorem readQuotedRun_of_endsQuotedWord {rest : List Char} (hc : c.rest = rest)
    (hrest : EndsQuotedWord rest) :
    readQuotedRun true fuel c acc = some (acc, false, c) := by
  obtain ⟨x, tail, rfl, hx⟩ := hrest
  cases fuel with
  | zero => rfl
  | succ fuel =>
    rw [readQuotedRun, Cursor.peek_zero hc]
    by_cases hblank : isGap x = true ∨ isBreak x = true
    · simp [hblank]
    · rw [not_or, Bool.not_eq_true, Bool.not_eq_true] at hblank
      obtain ⟨rfl, htail⟩ : x = '\x27' ∧ tail.head? ≠ some '\x27' := by
        simpa [hblank.1, hblank.2] using hx
      have hnext : c.has 1 '\x27' = false := by
        simpa [Cursor.has, Cursor.peek, hc, List.head?_eq_getElem?] using htail
      simp [hblank.1, hblank.2, hnext]

/-- The reader takes the characters of a word, two quotes for one. -/
theorem readQuotedRun_single {word rest : List Char}
    (hword : ∀ x ∈ word, isGap x = false ∧ isBreak x = false) (hrest : EndsQuotedWord rest) :
    ∀ {fuel : Nat} {c : Cursor} {acc : List Char}, c.rest = quotesDoubled word ++ rest →
      word.length ≤ fuel →
      readQuotedRun true fuel c acc =
        some (word.reverse ++ acc, false, c.walk (quotesDoubled word)) := by
  induction word with
  | nil =>
    intro fuel c acc hc _
    exact readQuotedRun_of_endsQuotedWord hc hrest
  | cons x word ih =>
    intro fuel c acc hc hfuel
    obtain ⟨fuel, rfl⟩ : ∃ k, fuel = k + 1 := ⟨fuel - 1, by simp at hfuel; omega⟩
    have hfuel' : word.length ≤ fuel := by simpa using hfuel
    obtain ⟨hgap, hbreak⟩ := hword x (by simp)
    have ih := @ih fun y hy => hword y (by simp [hy])
    by_cases hquote : x = '\x27'
    · subst hquote
      have hc' : c.rest = ['\x27', '\x27'] ++ (quotesDoubled word ++ rest) := hc
      have hskip : c.walk ['\x27', '\x27'] = c.skip 2 :=
        Cursor.walk_eq_skip (List.forall_mem_cons.2 ⟨rfl, List.forall_mem_singleton.2 rfl⟩)
      have hnext : c.has 1 '\x27' = true := by simp [Cursor.has, Cursor.peek, hc']
      rw [readQuotedRun, Cursor.peek_zero hc', ← hskip]
      simp only [hgap, hbreak, hnext, ih (Cursor.rest_walk hc') hfuel', Bool.or_self,
        Bool.false_eq_true, if_false, beq_self_eq_true, Bool.and_self, if_true]
      rw [← Cursor.walk_append, List.reverse_cons, List.append_assoc]
      rfl
    · have hc' : c.rest = [x] ++ (quotesDoubled word ++ rest) := by
        rw [hc, quotesDoubled_cons hquote, List.append_assoc]
      have hbeq : (x == '\x27') = false := by simpa using hquote
      rw [readQuotedRun, Cursor.peek_zero hc', ← Cursor.walk_singleton hbreak]
      simp only [hgap, hbreak, hbeq, ih (Cursor.rest_walk hc') hfuel', Bool.or_self,
        Bool.false_eq_true, if_false, Bool.and_false, Bool.false_and, Bool.not_true, if_true]
      rw [← Cursor.walk_append, ← quotesDoubled_cons hquote, List.reverse_cons, List.append_assoc]
      rfl

/-- Whether the character is a gap or a line break. -/
def isBlank (x : Char) : Bool := isGap x || isBreak x

theorem isBlank_eq_false {x : Char} : isBlank x = false ↔ isGap x = false ∧ isBreak x = false := by
  simp [isBlank]

/-- What stands between single quotes for a gap: the gap, and after breaks the indentation of the
next line. The reader makes the gap of it, and is then not at the start of a line. -/
theorem singleQuoted_gap {n : Nat} (hn : 0 < n) {gap : List Char} (hne : gap ≠ [])
    (hblank : ∀ x ∈ gap, isBlank x = true) (hprint : ∀ x ∈ gap, isPrintable x = true ∧ x ≠ '\n')
    (hspace : hasNeighbours (· == ' ') isBreak gap = false)
    (hbreak : hasNeighbours isBreak (· == ' ') gap = false) :
    ∃ written, written ≠ [] ∧ (∀ x ∈ written, x = ' ' ∨ isKeptBreak x = true) ∧
      (written.foldl Gap.add Gap.none).text = gap ∧
      (∀ c : Cursor, 0 < c.column → 0 < (c.walk written).column) ∧
      ∀ rest : List Char, (∀ x ∈ rest.head?, isBlank x = false) →
        singleQuoted n false (gap ++ rest) = written ++ singleQuoted n false rest := by
  have hkinds : ∀ x ∈ gap, (x == ' ') = true ∨ isBreak x = true := by
    intro x hx
    rcases Bool.or_eq_true _ _ ▸ hblank x hx with hgap | hb
    · exact .inl (by simp [eq_space_of_isPrintable hgap (hprint x hx).1])
    · exact .inr hb
  rcases all_of_not_hasNeighbours hkinds hspace hbreak with hall | hall
  · obtain ⟨k, rfl⟩ := exists_eq_spaces hne fun x hx => by simpa using hall x hx
    refine ⟨_, hne, fun x hx => .inl (List.eq_of_mem_replicate hx), ?_, ?_, ?_⟩
    · exact Gap.text_spaces (k + 1)
    · intro c hc
      rw [Cursor.column_walk fun _ => not_isBreak_of_mem_spaces]
      omega
    · intro rest _
      rw [singleQuoted_append n fun _ => not_isBreak_of_mem_spaces, quotesDoubled_of_not_mem]
      intro hmem
      cases List.eq_of_mem_replicate hmem
  · refine ⟨gap ++ spaces n, by simp [hne], ?_, ?_, ?_, ?_⟩
    · intro x hx
      rcases List.mem_append.mp hx with hx | hx
      · exact .inr (isKeptBreak_of_isPrintable (hall x hx) (hprint x hx).1)
      · exact .inl (List.eq_of_mem_replicate hx)
    · obtain ⟨x, gap, rfl⟩ := List.exists_cons_of_ne_nil hne
      exact Gap.text_breaks (hall x (by simp)) (hprint x (by simp)).2
        (fun y hy => hall y (by simp [hy])) n
    · intro c _
      obtain ⟨gap, x, rfl⟩ := List.eq_nil_or_concat gap |>.resolve_left hne
      rw [List.concat_eq_append, List.append_assoc, List.singleton_append,
        Cursor.column_walk_break _ _ (hall x (by simp))]
      exact hn
    · intro rest hrest
      exact singleQuoted_breaks n false hne hall fun x hx => (isBlank_eq_false.mp (hrest x hx)).2

theorem endsQuotedWord_of_gap {gap rest : List Char} (hne : gap ≠ [])
    (hgap : ∀ x ∈ gap, x = ' ' ∨ isKeptBreak x = true) : EndsQuotedWord (gap ++ rest) := by
  obtain ⟨x, gap, rfl⟩ := List.exists_cons_of_ne_nil hne
  refine ⟨x, gap ++ rest, rfl, ?_⟩
  rcases hgap x (by simp) with rfl | hx
  · exact .inl rfl
  · exact .inr (.inl (isBreak_of_isKeptBreak hx))

theorem isBlank_head_singleQuoted {n : Nat} {rest : List Char}
    (hrest : ∀ x ∈ rest.head?, isBlank x = false) (after : List Char) :
    ∀ x ∈ (singleQuoted n false rest ++ '\x27' :: after).head?,
      isGap x = false ∧ isBreak x = false := by
  intro x hx
  cases rest with
  | nil =>
    obtain rfl : '\x27' = x := by simpa [singleQuoted] using hx
    exact ⟨rfl, rfl⟩
  | cons y rest =>
    have hy := isBlank_eq_false.mp (hrest y (by simp))
    rw [singleQuoted, if_neg (by simp [hy.2])] at hx
    by_cases hquote : y = '\x27'
    · obtain rfl : '\x27' = x := by simpa [hquote] using hx
      exact ⟨rfl, rfl⟩
    · obtain rfl : y = x := by simpa [hquote] using hx
      exact hy

/-- **A text between single quotes is read back.** -/
theorem readQuoted_singleQuoted {n : Nat} (hn : 0 < n) {after : List Char}
    (hafter : after.head? ≠ some '\x27') (text : List Char) :
    (∀ x ∈ text, isPrintable x = true ∧ x ≠ '\n') →
    hasNeighbours (· == ' ') isBreak text = false → hasNeighbours isBreak (· == ' ') text = false →
    ∀ (fuel : Nat) (c : Cursor) (acc : List Char), 0 < c.column →
      c.rest = singleQuoted n false text ++ '\x27' :: after → c.rest.length ≤ fuel →
      readQuoted true fuel c acc =
        some (acc.reverse ++ text, c.walk (singleQuoted n false text ++ ['\x27'])) := by
  have hquote : EndsQuotedWord ('\x27' :: after) := ⟨_, _, rfl, .inr (.inr ⟨rfl, hafter⟩)⟩
  induction text using runs_induction isBlank with
  | last word hword =>
    intro _ _ _ fuel c acc hcolumn hc hfuel
    have hword' := fun x hx => isBlank_eq_false.mp (hword x hx)
    have hwritten : singleQuoted n false word = quotesDoubled word := by
      simpa [singleQuoted] using singleQuoted_append n (fun x hx => (hword' x hx).2) []
    rw [hwritten] at hc ⊢
    have hlength := length_le_quotesDoubled word
    have hrest : c.rest.length = (quotesDoubled word).length + (after.length + 1) := by simp [hc]
    obtain ⟨fuel, rfl⟩ : ∃ k, fuel = k + 1 := ⟨fuel - 1, by omega⟩
    rw [readQuoted_last hcolumn hc (readQuotedRun_single hword' hquote hc (by omega))]
    simp [quoteMark]
  | next word gap rest hword hne hblank hrest ih =>
    intro hprint hspace hbreak fuel c acc hcolumn hc hfuel
    have hword' := fun x hx => isBlank_eq_false.mp (hword x hx)
    -- neither the gap nor the rest has a space beside a break, since the text has none
    obtain ⟨-, hspace⟩ := hasNeighbours_of_append hspace
    obtain ⟨-, hbreak⟩ := hasNeighbours_of_append hbreak
    obtain ⟨hspaceGap, hspaceRest⟩ := hasNeighbours_of_append hspace
    obtain ⟨hbreakGap, hbreakRest⟩ := hasNeighbours_of_append hbreak
    obtain ⟨written, hwrittenNe, hchars, htext, hcolumnGap, hwritten⟩ :=
      singleQuoted_gap hn hne hblank (fun x hx => hprint x (by simp [hx])) hspaceGap hbreakGap
    have hall : singleQuoted n false (word ++ (gap ++ rest)) =
        quotesDoubled word ++ (written ++ singleQuoted n false rest) := by
      rw [singleQuoted_append n (fun x hx => (hword' x hx).2), hwritten rest hrest]
    have hc' : c.rest =
        quotesDoubled word ++ (written ++ (singleQuoted n false rest ++ '\x27' :: after)) := by
      rw [hc, hall]
      simp only [List.append_assoc]
    have hlength := length_le_quotesDoubled word
    have hlengthAll : c.rest.length = (quotesDoubled word).length +
        (written.length + ((singleQuoted n false rest).length + (after.length + 1))) := by
      rw [hc']
      simp only [List.length_append, List.length_cons]
    have hpos := List.length_pos_iff.mpr hwrittenNe
    obtain ⟨fuel, rfl⟩ : ∃ k, fuel = k + 1 := ⟨fuel - 1, by omega⟩
    have hrun : readQuotedRun true fuel c acc =
        some (word.reverse ++ acc, false, c.walk (quotesDoubled word)) :=
      readQuotedRun_single hword' (endsQuotedWord_of_gap hwrittenNe hchars) hc' (by omega)
    have hplace : (c.walk (quotesDoubled word ++ written)).rest =
        singleQuoted n false rest ++ '\x27' :: after := by
      rw [Cursor.walk_append]
      exact Cursor.rest_walk (Cursor.rest_walk hc')
    have hcolumn' : 0 < (c.walk (quotesDoubled word ++ written)).column := by
      rw [Cursor.walk_append]
      apply hcolumnGap
      rw [Cursor.column_walk (not_isBreak_of_mem_quotesDoubled fun x hx => (hword' x hx).2)]
      omega
    rw [readQuoted_next hcolumn hc' hrun hwrittenNe hchars (isBlank_head_singleQuoted hrest after)
      (by omega), htext, ih (fun x hx => hprint x (by simp [hx])) hspaceRest hbreakRest fuel _ _
      hcolumn' hplace (by rw [hplace, List.length_append, List.length_cons]; omega), hall,
      ← Cursor.walk_append]
    simp only [List.reverse_append, List.reverse_reverse, List.append_assoc]

end ReleaseCandidates.Yaml
