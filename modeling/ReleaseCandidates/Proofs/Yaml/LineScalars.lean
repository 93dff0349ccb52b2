import ReleaseCandidates.Proofs.Yaml.LineTokens

set_option autoImplicit false

/-! # Scalars in a line

The scan takes a scalar together with the rest of its line, whatever style it is written in, and is
then ready for the next line (`Scanner.leads_scalar`). The writer picks the style, and each style is
picked only for texts that it can hold. -/

namespace ReleaseCandidates.Yaml

/-! ## What the styles are picked for -/

/-- A text of the style that the writer picks can be held by it. -/
theorem writtenStyle_cases (text : String) :
    (writtenStyle text = .literal ∧ '\n' ∈ text.toList ∧ allowsLiteral text.toList = true) ∨
      (writtenStyle text = .plain ∧ text.toList ≠ [] ∧ allowsPlain text.toList = true) ∨
      (writtenStyle text = .singleQuoted ∧ '\n' ∉ text.toList ∧ allowsSingle text.toList = true) ∨
      writtenStyle text = .doubleQuoted := by
  unfold writtenStyle
  simp only
  split
  · next hline =>
    split
    · next hallows => exact .inl ⟨rfl, by simpa using hline, hallows⟩
    · exact .inr (.inr (.inr rfl))
  · next hline =>
    split
    · next hplain =>
      simp only [Bool.and_eq_true, decide_eq_true_eq] at hplain
      refine .inr (.inl ⟨rfl, ?_, hplain.2⟩)
      intro hempty
      obtain rfl : text = "" := String.toList_eq_nil_iff.mp hempty
      exact absurd hplain.1.1 (by decide)
    · split
      · next hallows => exact .inr (.inr (.inl ⟨rfl, by simpa using hline, hallows⟩))
      · exact .inr (.inr (.inr rfl))

theorem isPrintable_of_not_needsEscapes {text : List Char} (h : needsEscapes text = false) :
    ∀ x ∈ text, isPrintable x = true := by
  simp only [needsEscapes, Bool.or_eq_false_iff, Bool.not_eq_false', List.all_eq_true] at h
  exact h.1

/-- What the writer makes sure of before it leaves a text plain. -/
structure PlainText (text : List Char) : Prop where
  printable : ∀ x ∈ text, isPrintable x = true
  not_break : ∀ x ∈ text, isBreak x = false
  not_mark : hasMark text = false
  head : text.head? ≠ some ' '
  last : text.getLast? ≠ some ' '

theorem plainText_of_allowsPlain {text : List Char} (h : allowsPlain text = true) :
    PlainText text := by
  simp only [allowsPlain, Bool.and_eq_true, Bool.not_eq_true'] at h
  obtain ⟨⟨⟨⟨hescapes, hbreaks⟩, hmark⟩, hhead⟩, hlast⟩ := h
  refine ⟨isPrintable_of_not_needsEscapes hescapes, by simpa using hbreaks, hmark, ?_, ?_⟩
  · intro h
    simp [h] at hhead
  · intro h
    simp [h] at hlast

theorem PlainText.not_isBlank_head {x : Char} {text : List Char} (h : PlainText (x :: text)) :
    isBlank x = false := by
  refine isBlank_eq_false.mpr ⟨?_, h.not_break x (by simp)⟩
  rw [Bool.eq_false_iff]
  intro hgap
  apply h.head
  rw [eq_space_of_isPrintable hgap (h.printable x (by simp))]
  rfl

namespace Scanner

variable {s : Scanner} {c : Cursor} {indent : Int} {outer : List Int} {found : List Token}
  {next : List Char}

/-! ## Quoted scalars -/

theorem take_quoted {text : List Char} {single : Bool} {c' : Cursor} {fuel : Nat}
    {rest : List Char} (hc : c.rest = quoteMark single :: rest)
    (hread : readQuoted single fuel (c.skip 1) [] = some (text, c')) :
    take fuel (between c false indent outer found) =
      some (between c' false indent outer
        (.scalar (String.ofList text) (if single then .singleQuoted else .doubleQuoted) :: found)) := by
  have hdash : c.atMark '-' = false := by
    cases single <;> simp [Cursor.atMark, Cursor.has, Cursor.peek, hc, quoteMark]
  have hdot : c.atMark '.' = false := by
    cases single <;> simp [Cursor.atMark, Cursor.has, Cursor.peek, hc, quoteMark]
  have htake : takeToken fuel (between c false indent outer found) (quoteMark single) =
      takeQuoted fuel (between c false indent outer found) single := by
    unfold takeToken
    cases single <;> simp [hdash, hdot, quoteMark]
  rw [take, between_cursor, Cursor.peek_zero hc]
  simp only [htake]
  rw [takeQuoted]
  show (readQuoted single fuel (c.skip 1) []).bind _ = _
  rw [hread]
  rfl

/-- A quoted scalar leads to the end of its line. -/
theorem leads_quoted {text : String} (single : Bool) {written : List Char}
    (hc : c.rest = quoteMark single :: (written ++ quoteMark single :: '\n' :: next))
    (hread : ∀ fuel (c : Cursor), 0 < c.column →
      c.rest = written ++ quoteMark single :: '\n' :: next → c.rest.length ≤ fuel →
      readQuoted single fuel c [] = some (text.toList, c.walk (written ++ [quoteMark single])))
    (hnext : StartsToken (unindented next)) (hready : Ready s (between c false indent outer found)) :
    ∃ s', Leads s s' ∧ ReadyAt s' next indent outer
      (.scalar text (if single then .singleQuoted else .doubleQuoted) :: found) := by
  have hone : c.rest = [quoteMark single] ++ (written ++ quoteMark single :: '\n' :: next) := hc
  have hskip : c.skip 1 = c.walk [quoteMark single] := by
    rw [Cursor.walk_singleton (by cases single <;> rfl)]
  have hplace : (c.skip 1).rest = written ++ quoteMark single :: '\n' :: next := by
    rw [hskip]
    exact Cursor.rest_walk hone
  have hend : ((c.skip 1).walk (written ++ [quoteMark single])).rest = '\n' :: next := by
    apply Cursor.rest_walk
    rw [hplace, List.append_assoc]
    rfl
  have hleads : Leads s (between ((c.skip 1).walk (written ++ [quoteMark single])) false indent outer
      (.scalar text (if single then .singleQuoted else .doubleQuoted) :: found)) := by
    refine Leads.of_step hready ?_ ?_ (by simp)
    · intro fuel hfuel
      have hlength : (c.skip 1).rest.length ≤ fuel := by
        rw [between_cursor, hc, List.length_cons] at hfuel
        rw [hplace]
        omega
      rw [take_quoted hc (hread fuel (c.skip 1) (by simp [Cursor.skip]) hplace hlength),
        String.ofList_toList]
      rfl
    · show ((c.skip 1).walk (written ++ [quoteMark single])).rest.length < c.rest.length
      rw [hend, hc]
      simp
      omega
  exact ⟨_, hleads, ReadyAt.of_line hend hnext⟩

theorem leads_singleQuoted {text : String} {n : Nat} (hline : '\n' ∉ text.toList)
    (hallows : allowsSingle text.toList = true)
    (hc : c.rest = '\x27' :: (singleQuoted (n + 2) false text.toList ++ '\x27' :: '\n' :: next))
    (hnext : StartsToken (unindented next)) (hready : Ready s (between c false indent outer found)) :
    ∃ s', Leads s s' ∧ ReadyAt s' next indent outer (.scalar text .singleQuoted :: found) := by
  simp only [allowsSingle, Bool.and_eq_true, Bool.not_eq_true'] at hallows
  obtain ⟨hescapes, hbreak⟩ := hallows
  have hspace : hasNeighbours (· == ' ') isBreak text.toList = false := by
    simp only [needsEscapes, Bool.or_eq_false_iff] at hescapes
    exact hescapes.2
  have hchars : ∀ x ∈ text.toList, isPrintable x = true ∧ x ≠ '\n' := by
    intro x hx
    refine ⟨isPrintable_of_not_needsEscapes hescapes x hx, ?_⟩
    rintro rfl
    exact hline hx
  exact leads_quoted true hc (fun fuel c' hcolumn hc' hfuel =>
    readQuoted_singleQuoted (by omega) (by simp) text.toList hchars hspace hbreak fuel c' []
      hcolumn hc' hfuel) hnext hready

theorem leads_doubleQuoted {text : String}
    (hc : c.rest = '"' :: (doubleQuoted text.toList ++ '"' :: '\n' :: next))
    (hnext : StartsToken (unindented next)) (hready : Ready s (between c false indent outer found)) :
    ∃ s', Leads s s' ∧ ReadyAt s' next indent outer (.scalar text .doubleQuoted :: found) :=
  leads_quoted false hc (fun fuel c' hcolumn hc' hfuel =>
    readQuoted_doubleQuoted text.toList fuel c' [] hcolumn hc' hfuel) hnext hready

/-! ## Plain scalars and literal blocks -/

theorem startsWord_of_not_hasMark {x : Char} {text rest : List Char}
    (hc : c.rest = x :: text ++ rest) (hcolumn : 0 < c.column) (hmark : hasMark (x :: text) = false)
    (hblank : isBlank x = false) : StartsWord c x := by
  have hdocument := atDocumentMark_eq_false hcolumn
  simp only [Cursor.atDocumentMark, Bool.or_eq_false_iff] at hdocument
  simp only [hasMark, Bool.or_eq_false_iff] at hmark
  refine ⟨?_, hblank, ?_, hdocument.1, hdocument.2⟩
  · rw [Bool.eq_false_iff]
    intro hx
    have hall : marks.all (fun y => "#,[]\x7b\x7d&*!|>\x27\"%@\x60".toList.contains y) = true := rfl
    have hnot := hmark.1.1.2
    rw [List.all_eq_true.1 hall x (by simpa using hx)] at hnot
    cases hnot
  · intro hx
    have hstart : (x == '?' || x == ':' || x == '-') = true := by
      rcases hx with rfl | rfl | rfl <;> rfl
    have hfirst := hmark.1.2
    rw [hstart, Bool.true_and] at hfirst
    cases text with
    | nil => cases hfirst
    | cons y text =>
      have hy := startsWithGap_cons hfirst
      simpa [Cursor.gapOrEnd, Cursor.peek, hc, isBlank] using hy

/-- A plain scalar leads to the next line. -/
theorem leads_plain {text : String} {n : Nat} (hne : text.toList ≠ [])
    (hallows : allowsPlain text.toList = true) (hc : c.rest = text.toList ++ '\n' :: next)
    (hcolumn : n < c.column) (hnext : NextLine n next)
    (hready : Ready s (between c false (n : Int) outer found)) :
    ∃ s', Leads s s' ∧ ReadyAt s' next n outer (.scalar text .plain :: found) := by
  have hplain := plainText_of_allowsPlain hallows
  obtain ⟨x, rest, htext⟩ := List.exists_cons_of_ne_nil hne
  have hword : StartsWord c x :=
    startsWord_of_not_hasMark (by rw [hc, htext]) (by omega) (by rw [← htext]; exact hplain.not_mark)
      (htext ▸ hplain).not_isBlank_head
  have htail : ∀ x ∈ (unindented next).head?, isGap x = false ∧ isBreak x = false :=
    fun x hx => ⟨(hnext.starts x hx).1, (hnext.starts x hx).2.1⟩
  have hc' : c.rest =
      text.toList ++ '\n' :: (spaces (indentation next) ++ unindented next) := by
    rw [hc, spaces_append_unindented]
  have hindent : (indentation next : Int) < n + 1 := by
    have := hnext.indentation_le
    omega
  -- a plain scalar may go on in the next line, so its reader looks there before it ends
  let place := c.walk (text.toList ++ '\n' :: spaces (indentation next))
  have hplace : place.rest = unindented next := by
    apply Cursor.rest_walk
    rw [hc', List.append_assoc]
    rfl
  have hread : ∀ fuel, c.rest.length < fuel →
      readPlain false (n + 1) fuel c Gap.none [] = some (text.toList, true, place) := by
    intro fuel hfuel
    rw [readPlain_line hindent htail text.toList hne (markFree_of_not_hasMark hplain.not_mark)
      (fun x hx => ⟨hplain.printable x hx, hplain.not_break x hx⟩) hplain.head hplain.last fuel c
      Gap.none [] (by omega) (by omega) hc' hfuel]
    rfl
  have hleads : Leads s (between place true n outer (.scalar text .plain :: found)) := by
    refine Leads.of_step hready ?_ ?_ (by simp)
    · intro fuel hfuel
      rw [between_cursor] at hfuel
      rw [take_plain (by rw [hc, htext]; rfl) hword, takePlain]
      show ((readPlain false (n + 1) fuel c Gap.none []).bind _).bind dropStale = _
      rw [hread fuel (by omega)]
      simp only [Option.bind_some, String.ofList_toList]
      rfl
    · show place.rest.length < c.rest.length
      rw [hplace, hc', htext]
      simp
      omega
  exact ⟨_, hleads, ReadyAt.of_token hplace (Cursor.column_walk_break c _ rfl _) hnext.starts⟩

theorem take_bar {fuel k : Nat} {text rest : List Char} {c' : Cursor} (hc : c.rest = '|' :: rest)
    (hread : readBlock true (k : Int) fuel (c.skip 1) = some (text, c')) :
    take fuel (between c false (k : Int) outer found) =
      some (between c' true k outer (.scalar (String.ofList text) .literal :: found)) := by
  have hdash : c.atMark '-' = false := by simp [Cursor.atMark, Cursor.has, Cursor.peek, hc]
  have hdot : c.atMark '.' = false := by simp [Cursor.atMark, Cursor.has, Cursor.peek, hc]
  have htake : takeToken fuel (between c false (k : Int) outer found) '|' =
      takeBlock fuel (between c false (k : Int) outer found) true := by
    unfold takeToken
    simp [hdash, hdot]
  rw [take, between_cursor, Cursor.peek_zero hc]
  simp only [htake]
  rw [takeBlock]
  show (readBlock true (k : Int) fuel (c.skip 1)).bind _ = _
  rw [hread]
  rfl

/-- A literal block leads to the next line. -/
theorem leads_literal {text : String} {n : Nat} (hne : text.toList ≠ [])
    (hprint : ∀ x ∈ text.toList, isPrintable x = true)
    (hc : c.rest = '|' :: (indentMark text.toList ++ (chompingMark text.toList ++
      '\n' :: (literalLines (n + 2) true (endLine text.toList) ++ next))))
    (hnext : NextLine n next) (hready : Ready s (between c false (n : Int) outer found)) :
    ∃ s', Leads s s' ∧ ReadyAt s' next n outer (.scalar text .literal :: found) := by
  have hskip : c.skip 1 = c.walk ['|'] := by rw [Cursor.walk_singleton rfl]
  have hone : c.rest = ['|'] ++ (indentMark text.toList ++ (chompingMark text.toList ++ '\n' ::
      (literalLines (n + 2) true (endLine text.toList) ++
        (spaces (indentation next) ++ unindented next)))) := by
    rw [hc, spaces_append_unindented]
    rfl
  have hstart : (c.skip 1).rest = indentMark text.toList ++ (chompingMark text.toList ++ '\n' ::
      (literalLines (n + 2) true (endLine text.toList) ++
        (spaces (indentation next) ++ unindented next))) := by
    rw [hskip]
    exact Cursor.rest_walk hone
  have htail : ∀ x ∈ (unindented next).head?, isBreak x = false ∧ isGap x = false :=
    fun x hx => ⟨(hnext.starts x hx).2.1, (hnext.starts x hx).1⟩
  have hindent : indentation next < n + 2 := by
    have := hnext.indentation_le
    omega
  let place := (c.skip 1).walk (indentMark text.toList ++ (chompingMark text.toList ++
    '\n' :: (literalLines (n + 2) true (endLine text.toList) ++ spaces (indentation next))))
  have hplace : place.rest = unindented next := by
    apply Cursor.rest_walk
    rw [hstart]
    simp only [List.append_assoc, List.cons_append]
  have hcolumn : place.column = indentation next := by
    -- the last character of the block is a break, so the spaces after it are the whole line so far
    obtain ⟨pre, b, hend, hb⟩ := exists_endLine_eq text.toList
    have hplaceEq : place = (c.skip 1).walk ((indentMark text.toList ++ (chompingMark text.toList ++
        '\n' :: literalLines (n + 2) true pre)) ++ b :: spaces (indentation next)) := by
      show (c.skip 1).walk _ = _
      rw [hend, literalLines_snoc (n + 2) hb]
      simp only [List.append_assoc, List.cons_append, List.nil_append]
    rw [hplaceEq]
    exact Cursor.column_walk_break _ _ hb _
  have hleads : Leads s (between place true n outer (.scalar text .literal :: found)) := by
    refine Leads.of_step hready ?_ ?_ (by simp)
    · intro fuel hfuel
      rw [between_cursor] at hfuel
      have hread : readBlock true (n : Int) fuel (c.skip 1) = some (text.toList, place) := by
        refine readBlock_literalLines hne hprint hindent htail hstart ?_
        rw [hstart]
        rw [hone, List.length_append] at hfuel
        omega
      rw [take_bar hc hread, String.ofList_toList]
      rfl
    · show place.rest.length < c.rest.length
      rw [hplace, hone]
      simp only [List.length_append, List.length_cons]
      omega
  exact ⟨_, hleads, ReadyAt.of_token hplace hcolumn hnext.starts⟩

/-! ## Scalars of every style -/

/-- **A scalar leads to the next line**, in the style that the writer picked for it. -/
theorem leads_scalar {text : String} {n : Nat} (hc : c.rest = scalarLines (n + 2) text ++ next)
    (hcolumn : n < c.column) (hnext : NextLine n next)
    (hready : Ready s (between c false (n : Int) outer found)) :
    ∃ s', Leads s s' ∧ ReadyAt s' next n outer (.scalar text (writtenStyle text) :: found) := by
  rcases writtenStyle_cases text with ⟨hstyle, hline, hallows⟩ | ⟨hstyle, hne, hallows⟩ |
    ⟨hstyle, hline, hallows⟩ | hstyle
  · rw [hstyle]
    simp only [allowsLiteral, Bool.and_eq_true, Bool.not_eq_true'] at hallows
    refine leads_literal (List.ne_nil_of_mem hline) (isPrintable_of_not_needsEscapes hallows.1) ?_
      hnext hready
    rw [hc, literalLines_endLine]
    simp only [scalarLines, hstyle, indentMark, List.append_assoc, List.cons_append]
  · rw [hstyle]
    refine leads_plain hne hallows ?_ hcolumn hnext hready
    rw [hc]
    simp only [scalarLines, hstyle, List.append_assoc, List.cons_append, List.nil_append]
  · rw [hstyle]
    refine leads_singleQuoted (n := n) hline hallows ?_ hnext.starts hready
    rw [hc]
    simp only [scalarLines, hstyle, List.append_assoc, List.cons_append, List.nil_append]
  · rw [hstyle]
    refine leads_doubleQuoted ?_ hnext.starts hready
    rw [hc]
    simp only [scalarLines, hstyle, List.append_assoc, List.cons_append, List.nil_append]

end Scanner

end ReleaseCandidates.Yaml
