import ReleaseCandidates.Proofs.Http.Address

set_option autoImplicit false

/-! # Texts that are read as the paths that they spell

A path is asked for as it is written (`Url.address_of_isPath`) if it has only one kind of slash, no
mark that ends a path, and no segment that is resolved away (`Url.IsPath`). Nothing else would give
the same path: whatever an address resolves or cuts off leaves fewer segments than were written
(`Url.isPath_of_length_segments`). -/

namespace ReleaseCandidates.Http.Url

/-- Texts that are read as the paths that they spell. -/
structure IsPath (cs : List Char) : Prop where
  backslash : '\\' ∉ cs
  query : '?' ∉ cs
  fragment : '#' ∉ cs
  dots : ∀ piece ∈ Text.split '/' cs, isDots piece = false

variable {cs ds : List Char}

theorem isPath_append_slash : IsPath (cs ++ '/' :: ds) ↔ IsPath cs ∧ IsPath ds := by
  have hmark : ∀ x ≠ '/', x ∉ cs ++ '/' :: ds ↔ x ∉ cs ∧ x ∉ ds := by
    intro x hx
    simp only [List.mem_append, List.mem_cons, hx, false_or, not_or]
  constructor
  · rintro ⟨hback, hquery, hfragment, hdots⟩
    rw [hmark _ (by decide)] at hback hquery hfragment
    rw [Text.split_append, List.forall_mem_append] at hdots
    exact ⟨⟨hback.1, hquery.1, hfragment.1, hdots.1⟩, ⟨hback.2, hquery.2, hfragment.2, hdots.2⟩⟩
  · rintro ⟨hcs, hds⟩
    refine ⟨?_, ?_, ?_, ?_⟩
    · exact (hmark _ (by decide)).2 ⟨hcs.backslash, hds.backslash⟩
    · exact (hmark _ (by decide)).2 ⟨hcs.query, hds.query⟩
    · exact (hmark _ (by decide)).2 ⟨hcs.fragment, hds.fragment⟩
    · rw [Text.split_append, List.forall_mem_append]
      exact ⟨hcs.dots, hds.dots⟩

/-- An encoded text is one segment, and it is resolved away only if it is a text of dots. -/
theorem isPath_encodeChars :
    IsPath (Percent.encodeChars cs) ↔ cs ≠ ['.'] ∧ cs ≠ ['.', '.'] := by
  have hsplit : Text.split '/' (Percent.encodeChars cs) = [Percent.encodeChars cs] :=
    Text.split_of_not_mem (Percent.not_mem_encodeChars (by decide) cs)
  rw [← isDots_encodeChars]
  constructor
  · intro h
    exact h.dots _ (by simp [hsplit])
  · intro h
    refine ⟨Percent.not_mem_encodeChars (by decide) cs, Percent.not_mem_encodeChars (by decide) cs,
      Percent.not_mem_encodeChars (by decide) cs, ?_⟩
    rw [hsplit, List.forall_mem_singleton]
    exact h

/-! ## Encoding a path -/

/-- The two sides of a slash are encoded on their own. -/
theorem toList_encodeClass_append (cs ds : List Char) :
    (encodeClass isEncodedInPath (cs ++ '/' :: ds)).toList =
      (encodeClass isEncodedInPath cs).toList ++ '/' :: (encodeClass isEncodedInPath ds).toList := by
  have hslash : isEncodedInPath '/' = false := by decide
  simp [encodeClass, hslash]

theorem mem_encodeClass {encoded : Char → Bool} {c : Char} (hc : encoded c = false) (h : c ∈ cs) :
    c ∈ (encodeClass encoded cs).toList := by
  rw [encodeClass, String.toList_ofList, List.mem_flatMap]
  exact ⟨c, h, by simp [hc]⟩

/-- A path is encoded piece by piece. -/
theorem toList_encodeClass_join (ps : List (List Char)) :
    (encodeClass isEncodedInPath (Text.join '/' ps)).toList =
      Text.join '/' (ps.map fun piece => (encodeClass isEncodedInPath piece).toList) := by
  induction ps with
  | nil => rfl
  | cons piece ps ih =>
    by_cases hne : ps = []
    · rw [hne]
      rfl
    · rw [Text.join_cons '/' piece hne, List.map_cons, Text.join_cons '/' _ (by simpa using hne),
        toList_encodeClass_append, ih]

/-- The segments of an encoded path are those of the path, encoded. -/
theorem split_encodeClass (cs : List Char) :
    Text.split '/' (encodeClass isEncodedInPath cs).toList =
      (Text.split '/' cs).map fun piece => (encodeClass isEncodedInPath piece).toList := by
  conv_lhs => rw [← Text.join_split '/' cs, toList_encodeClass_join]
  refine Text.split_join (by simpa using Text.split_ne_nil '/' cs) ?_
  intro encoded hencoded hslash
  obtain ⟨piece, hpiece, rfl⟩ := List.mem_map.1 hencoded
  exact Text.not_mem_of_mem_split hpiece (mem_of_mem_encodeClass (by decide) hslash)

/-! ## Counting segments -/

/-- Every piece that is resolved away leaves a place with fewer pieces above it. -/
theorem length_descend (above ps : List (List Char)) :
    (descend above ps).length ≤ above.length + ps.length ∧
      (above.length + ps.length ≤ (descend above ps).length → ∀ s ∈ ps, isDots s = false) := by
  induction ps generalizing above with
  | nil => simp [descend]
  | cons s rest ih =>
    rw [descend, List.forall_mem_cons, List.length_cons]
    split_ifs with hdouble hsingle
    · have hrest := (ih above.dropLast).1
      rw [List.length_dropLast] at hrest
      exact ⟨by omega, fun h => absurd h (by omega)⟩
    · have hrest := (ih above).1
      exact ⟨by omega, fun h => absurd h (by omega)⟩
    · have hrest := ih (above ++ [s])
      rw [List.length_append, List.length_singleton, Nat.add_assoc, Nat.add_comm 1] at hrest
      refine ⟨hrest.1, fun h => ⟨?_, hrest.2 h⟩⟩
      simp [isDots_eq_false, hdouble, hsingle]

theorem resolveFrom_concat (above first : List (List Char)) (last : List Char) :
    resolveFrom above (first ++ [last]) =
      if isDoubleDot last then (descend above first).dropLast ++ [[]]
      else if isSingleDot last then descend above first ++ [[]]
      else descend above first ++ [last] :=
  resolveFrom_append above first (List.cons_ne_nil last [])

/-- A path does not get more segments by being resolved. -/
theorem length_resolveFrom_le (above first : List (List Char)) (last : List Char) :
    (resolveFrom above (first ++ [last])).length ≤ above.length + first.length + 1 := by
  have hdescend := (length_descend above first).1
  rw [resolveFrom_concat]
  split_ifs <;> simp <;> omega

/-- If it has as many as before, nothing was resolved away, except for a last segment of dots: that
one becomes an empty one. -/
theorem hasNoDots_of_length_resolveFrom (above : List (List Char)) {first : List (List Char)}
    {last : List Char}
    (hlength : above.length + first.length + 1 ≤ (resolveFrom above (first ++ [last])).length)
    (hlast : isDots last = true → (resolveFrom above (first ++ [last])).getLast? ≠ some []) :
    ∀ s ∈ first ++ [last], isDots s = false := by
  rw [resolveFrom_concat] at hlength hlast
  split_ifs at hlength hlast with hdouble hsingle
  · simp [isDots, hdouble] at hlast
  · simp [isDots, hsingle] at hlast
  · rw [List.length_append, List.length_singleton] at hlength
    rw [List.forall_mem_append, List.forall_mem_singleton]
    exact ⟨(length_descend above first).2 (by omega), by simp [isDots_eq_false, hdouble, hsingle]⟩

/-! ## Addresses whose paths are kept -/

theorem segmentsOf_slash (h : '\\' ∉ cs) :
    segmentsOf ('/' :: cs) =
      (resolveFrom [] (Text.split '/' cs)).map (encodeClass isEncodedInPath) := by
  rw [segmentsOf, List.drop_one, List.tail_cons, pathPieces_eq_split h]

variable {p : Place}

theorem address_of_isPath (h : IsPath cs) :
    p.address ('/' :: cs) = ⟨p.secure, p.host, p.port,
      (Text.split '/' cs).map (encodeClass isEncodedInPath), none, none⟩ := by
  rw [address_path (by simpa using h.query) (by simpa using h.fragment),
    segmentsOf_slash h.backslash, resolveFrom_of_no_dots [] h.dots, List.nil_append]

/-- Such a text is the path, with what may not stand in a path encoded. -/
theorem toList_path_of_isPath (h : IsPath cs) :
    (p.address ('/' :: cs)).path.toList = '/' :: (encodeClass isEncodedInPath cs).toList := by
  rw [address_of_isPath h, toList_path, List.map_map]
  exact congrArg _ ((congrArg _ (split_encodeClass cs).symm).trans (Text.join_split '/' _))

/-- Before the mark of a fragment there are fewer segments than in the whole text, if a slash follows
the mark. -/
theorem length_segments_of_fragment (hback : '\\' ∉ cs ++ '/' :: ds) (hfragment : '#' ∈ cs)
    (hquery : (p.address ('/' :: (cs ++ '/' :: ds))).query = none) :
    (p.address ('/' :: (cs ++ '/' :: ds))).segments.length <
      (Text.split '/' (cs ++ '/' :: ds)).length := by
  obtain ⟨start, stop, rfl, hstart⟩ := List.eq_append_cons_of_mem hfragment
  have hcut : ('/' :: (start ++ '#' :: stop ++ '/' :: ds)).takeWhile (· ≠ '#') = '/' :: start := by
    rw [List.append_assoc, ← List.cons_append,
      List.takeWhile_append_of_pos (Text.ne_of_not_mem (by simpa using hstart))]
    simp
  have hbackStart : '\\' ∉ start := fun hmem => hback (by simp [hmem])
  simp only [Place.address, hcut, Option.map_eq_none_iff, Text.cutFirst_eq_none] at hquery ⊢
  have hlength := length_resolveFrom_le [] (Text.split '/' start).dropLast
    ((Text.split '/' start).getLast (Text.split_ne_nil '/' start))
  rw [takeWhile_ne_of_not_mem hquery, segmentsOf_slash hbackStart, List.length_map]
  rw [List.dropLast_concat_getLast, List.length_dropLast, List.length_nil, Text.length_split]
    at hlength
  rw [Text.length_split, List.count_append, List.count_append, List.count_cons_self]
  omega

/-- A text with a slash in it is read as the path that it spells if this path has as many segments
as the text, and a last segment of dots did not become an empty one. -/
theorem isPath_of_length_segments (hback : '\\' ∉ cs ++ '/' :: ds)
    (hds : Text.split '/' ds = [ds]) (hfragment : '#' ∉ ds)
    (hquery : (p.address ('/' :: (cs ++ '/' :: ds))).query = none)
    (hlength : (Text.split '/' (cs ++ '/' :: ds)).length ≤
      (p.address ('/' :: (cs ++ '/' :: ds))).segments.length)
    (hlast : isDots ds = true →
      (p.address ('/' :: (cs ++ '/' :: ds))).segments.getLast? ≠ some "") :
    IsPath (cs ++ '/' :: ds) := by
  have hfragment' : '#' ∉ '/' :: (cs ++ '/' :: ds) := by
    have hcs : '#' ∉ cs := fun hmem =>
      absurd hlength (Nat.not_le.2 (length_segments_of_fragment hback hmem hquery))
    simp [hcs, hfragment]
  have hquery' : '?' ∉ '/' :: (cs ++ '/' :: ds) := by
    rwa [Place.address, Option.map_eq_none_iff, Text.cutFirst_eq_none,
      takeWhile_ne_of_not_mem hfragment'] at hquery
  have hsplit : Text.split '/' (cs ++ '/' :: ds) = Text.split '/' cs ++ [ds] := by
    rw [Text.split_append, hds]
  rw [address_path hquery' hfragment', segmentsOf_slash hback, List.length_map, hsplit,
    List.length_append] at hlength
  rw [address_path hquery' hfragment', segmentsOf_slash hback, List.getLast?_map, hsplit] at hlast
  refine ⟨hback, List.not_mem_of_not_mem_cons hquery', List.not_mem_of_not_mem_cons hfragment', ?_⟩
  rw [hsplit]
  refine hasNoDots_of_length_resolveFrom [] (by simpa using hlength) ?_
  intro hdots hempty
  refine hlast hdots ?_
  rw [hempty]
  rfl

end ReleaseCandidates.Http.Url
