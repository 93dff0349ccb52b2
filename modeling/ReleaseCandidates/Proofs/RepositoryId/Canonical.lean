import Mathlib.Data.List.TFAE
import Mathlib.Tactic.TFAE
import ReleaseCandidates.Proofs.RepositoryId.Segments
import ReleaseCandidates.Proofs.Text.Cutting
import ReleaseCandidates.Proofs.Text.Trimming

set_option autoImplicit false

/-! # The canonical spelling of an identifier

An accepted text may have blanks around it, a scheme and a host, empty segments and a `.git` behind
the name. All of that is gone from the identifier, so its canonical spelling is read as the same
segments (`RepositoryId.parse_join`) and gives the identifier again. The one exception is a name
that is no ordinary segment any more once its `.git` is dropped: it passed the checks as it was
written, and does not pass them again.

Main statement: `RepositoryId.canonical_iff`. -/

namespace ReleaseCandidates.RepositoryId

/-! ## Characters of a segment -/

/-- No character of a segment is a blank, and none means anything to the cutting of a text. -/
theorem visible_of_isSegmentChar {c : Char} (h : isSegmentChar c = true) :
    Text.isBlank c = false ∧ c ≠ '/' ∧ c ≠ ':' := by
  have hencoded : Http.Percent.isEncodedChar c = true := by
    rw [Http.Percent.isEncodedChar, isPlain_of_isSegmentChar h, Bool.true_or]
  have hvisible := Http.Percent.of_isEncodedChar
    (p := fun c => !Text.isBlank c && c != '/' && c != ':') (by decide) hencoded
  simpa [and_assoc] using hvisible

section Characters

variable {segment : List Char} (h : ∀ c ∈ segment, isSegmentChar c = true)
include h

theorem not_isBlank_of_mem_segment : ∀ c ∈ segment, Text.isBlank c = false :=
  fun c hc => (visible_of_isSegmentChar (h c hc)).1

theorem not_isBlank_of_mem_front : ∀ c ∈ segment ++ ['/'], Text.isBlank c = false := by
  intro c hc
  rcases List.mem_append.1 hc with hc | hc
  · exact not_isBlank_of_mem_segment h c hc
  · rw [List.mem_singleton.1 hc]
    rfl

theorem slash_not_mem_segment : '/' ∉ segment :=
  fun hc => (visible_of_isSegmentChar (h _ hc)).2.1 rfl

theorem colon_not_mem_segment : ':' ∉ segment :=
  fun hc => (visible_of_isSegmentChar (h _ hc)).2.2 rfl

end Characters

theorem segmentChars_of_segmentProblem {segment : List Char} (h : segmentProblem segment = none) :
    ∀ c ∈ segment, isSegmentChar c = true :=
  List.all_eq_true.1 (segmentProblem_eq_none.1 h).2.2

/-! ## Dropping `.git` -/

theorem go_go (cs : List Char) :
    dropGitSuffixes.go (dropGitSuffixes.go cs) = dropGitSuffixes.go cs := by
  induction cs using dropGitSuffixes.go.induct with
  | case1 rest ih => rw [dropGitSuffixes.go, ih]
  | case2 cs h =>
    have hkept : dropGitSuffixes.go cs = cs := by
      rw [dropGitSuffixes.go]
      exact h
    rw [hkept, hkept]

/-- Nothing is left to drop. -/
theorem dropGitSuffixes_dropGitSuffixes (cs : List Char) :
    dropGitSuffixes (dropGitSuffixes cs) = dropGitSuffixes cs := by
  simp only [dropGitSuffixes, List.reverse_reverse, go_go]

theorem byteLength_append (cs ds : List Char) :
    byteLength (cs ++ ds) = byteLength cs + byteLength ds := by
  induction cs with
  | nil => simp [byteLength]
  | cons c cs ih =>
    simp only [byteLength, List.cons_append, List.foldr_cons] at ih ⊢
    omega

theorem byteLength_dropGitSuffixes (cs : List Char) :
    byteLength (dropGitSuffixes cs) ≤ byteLength cs := by
  obtain ⟨dropped, hdropped⟩ := go_suffix cs.reverse
  have hcs : cs = dropGitSuffixes cs ++ dropped.reverse := by
    rw [dropGitSuffixes, ← List.reverse_append, hdropped, List.reverse_reverse]
  have hlength := congrArg byteLength hcs
  rw [byteLength_append] at hlength
  omega

/-- A checked name stays in order without its `.git`, unless it becomes a relative segment. -/
theorem segmentProblem_dropGitSuffixes {name : List Char} (h : segmentProblem name = none)
    (hdots : dropGitSuffixes name ≠ ['.'] ∧ dropGitSuffixes name ≠ ['.', '.']) :
    segmentProblem (dropGitSuffixes name) = none := by
  obtain ⟨hlength, -, hchars⟩ := segmentProblem_eq_none.1 h
  refine segmentProblem_eq_none.2 ⟨(byteLength_dropGitSuffixes name).trans hlength, hdots, ?_⟩
  exact List.all_eq_true.2 fun c hc =>
    List.all_eq_true.1 hchars c (mem_of_mem_dropGitSuffixes hc)

/-! ## The segments of a text -/

/-- A text whose first segment has no colon is no web address. -/
theorem dropScheme?_eq_none {cs : List Char} (h : ':' ∉ Text.beforeFirst '/' cs) :
    dropScheme? cs = none := by
  rw [dropScheme?]
  cases hsecure : Text.dropStart? "https://".toList cs with
  | some rest =>
    rw [Text.dropStart?_eq_some.1 hsecure] at h
    exact absurd (by simp [Text.beforeFirst]) h
  | none =>
    cases hplain : Text.dropStart? "http://".toList cs with
    | some rest =>
      rw [Text.dropStart?_eq_some.1 hplain] at h
      exact absurd (by simp [Text.beforeFirst]) h
    | none => rfl

theorem segmentsOf_eq_pieces {cs : List Char} (h : dropScheme? cs = none) :
    segmentsOf cs = pieces cs := by
  rw [segmentsOf, h]

theorem pieces_append {cs : List Char} (hne : cs ≠ []) (h : '/' ∉ cs) (rest : List Char) :
    pieces (cs ++ '/' :: rest) = cs :: pieces rest := by
  rw [pieces, Text.split_append, Text.split_of_not_mem h, List.singleton_append,
    List.filter_cons_of_pos (by simpa using hne), pieces]

theorem pieces_join {segments : List (List Char)} (h : ∀ s ∈ segments, '/' ∉ s) :
    pieces (Text.join '/' segments) = segments.filter (· ≠ []) := by
  by_cases hne : segments = []
  · rw [hne]
    rfl
  · rw [pieces, Text.split_join hne h]

/-- Where a text starts with a segment, no scheme is dropped, and only its end is trimmed. -/
theorem segmentsOf_trimChars {owner : List Char} (hne : owner ≠ [])
    (howner : ∀ c ∈ owner, isSegmentChar c = true) (rest : List Char) :
    segmentsOf (Text.trimChars (owner ++ '/' :: rest)) = owner :: pieces (Text.trimEnd rest) := by
  have hslash := slash_not_mem_segment howner
  rw [List.append_cons, Text.trimChars_append (by simp) (not_isBlank_of_mem_front howner),
    ← List.append_cons, segmentsOf_eq_pieces, pieces_append hne hslash]
  refine dropScheme?_eq_none ?_
  rw [Text.beforeFirst, List.takeWhile_append_of_pos (Text.ne_of_not_mem hslash)]
  simpa using colon_not_mem_segment howner

/-! ## Identifiers of segments -/

theorem base_ofChecked (owner name : List Char) (rest : List (List Char)) :
    (ofChecked owner name rest).base =
      String.ofList (Text.join '/' [owner, dropGitSuffixes name]) := by
  rw [← String.toList_inj, String.toList_ofList]
  simp [base, ofChecked, Text.join]

theorem display_ofChecked (owner name : List Char) (rest : List (List Char)) :
    (ofChecked owner name rest).display =
      String.ofList (Text.join '/' (owner :: dropGitSuffixes name :: rest)) := by
  cases rest with
  | nil => exact base_ofChecked owner name []
  | cons part rest =>
    rw [← String.toList_inj, String.toList_ofList, Text.join_cons _ _ (by simp),
      Text.join_cons _ _ (by simp)]
    simp [display, base, ofChecked]

/-- Joined segments are read as those of them that are not empty. -/
theorem parse_join {owner : List Char} {segments : List (List Char)} (hne : owner ≠ [])
    (howner : ∀ c ∈ owner, isSegmentChar c = true) (hsegments : segments ≠ [])
    (h : ∀ s ∈ segments, ∀ c ∈ s, isSegmentChar c = true) :
    parse (String.ofList (Text.join '/' (owner :: segments))) =
      ofSegments (owner :: segments.filter (· ≠ [])) := by
  have hvisible : ∀ c ∈ Text.join '/' segments, Text.isBlank c = false := by
    intro c hc
    rcases Text.mem_join hc with rfl | ⟨s, hs, hc⟩
    · rfl
    · exact not_isBlank_of_mem_segment (h s hs) c hc
  rw [parse, String.toList_ofList, Text.join_cons _ _ hsegments, segmentsOf_trimChars hne howner,
    Text.trimEnd_of_visible hvisible, pieces_join fun s hs => slash_not_mem_segment (h s hs)]

/-! ## The canonical spelling -/

theorem baseOf_eq_ok_iff {value base : String} :
    baseOf value = .ok base ↔ ∃ id, parse value = .ok id ∧ id.base = base := by
  rw [baseOf]
  cases parse value with
  | error problem => exact ⟨nofun, fun ⟨_, h, _⟩ => nomatch h⟩
  | ok id => simp [Except.map]

section Checked

variable {owner name : List Char} {rest : List (List Char)}

theorem isOrdinary_name_iff : IsOrdinary (ofChecked owner name rest).name ↔
    dropGitSuffixes name ≠ [] ∧ dropGitSuffixes name ≠ ['.'] ∧
      dropGitSuffixes name ≠ ['.', '.'] := by
  have hname : ∀ cs, (ofChecked owner name rest).name = String.ofList cs ↔
      dropGitSuffixes name = cs := fun cs => ⟨String.ofList_injective, congrArg String.ofList⟩
  exact and_congr (not_congr (hname [])) (and_congr (not_congr (hname ['.']))
    (not_congr (hname ['.', '.'])))

/-- A name that is relative does not pass the checks a second time. -/
theorem ne_dots_of_ofSegments {id : RepositoryId}
    (h : ofSegments (owner :: (dropGitSuffixes name :: rest).filter (· ≠ [])) = .ok id) :
    dropGitSuffixes name ≠ ['.'] ∧ dropGitSuffixes name ≠ ['.', '.'] := by
  obtain ⟨-, -, -, -, hsegments, -⟩ := ofSegments_eq_ok_iff.1 h
  by_cases hne : dropGitSuffixes name = []
  · rw [hne]
    exact ⟨(List.cons_ne_nil _ _).symm, (List.cons_ne_nil _ _).symm⟩
  · refine (segmentProblem_eq_none.1 (hsegments _ ?_)).2.1
    exact List.mem_cons_of_mem _ (List.mem_filter.2 ⟨List.mem_cons_self, by simpa using hne⟩)

variable (hchecked : ∀ s ∈ owner :: name :: rest, s ≠ [] ∧ segmentProblem s = none)
include hchecked

theorem segmentChars_of_checked :
    ∀ s ∈ owner :: dropGitSuffixes name :: rest, ∀ c ∈ s, isSegmentChar c = true := by
  obtain ⟨howner, hname, hrest⟩ : _ ∧ _ ∧ _ := by
    simpa only [List.forall_mem_cons] using hchecked
  simp only [List.forall_mem_cons]
  refine ⟨segmentChars_of_segmentProblem howner.2, fun c hc => ?_,
    fun s hs => segmentChars_of_segmentProblem (hrest s hs).2⟩
  exact segmentChars_of_segmentProblem hname.2 c (mem_of_mem_dropGitSuffixes hc)

/-- The canonical spelling is read as the segments of the identifier, without the name if that is
empty. -/
theorem parse_display_ofChecked : parse (ofChecked owner name rest).display =
    ofSegments (owner :: (dropGitSuffixes name :: rest).filter (· ≠ [])) := by
  obtain ⟨howner, hothers⟩ := List.forall_mem_cons.1 (segmentChars_of_checked hchecked)
  rw [display_ofChecked, parse_join (hchecked owner List.mem_cons_self).1 howner (by simp) hothers]

theorem checked_front : ∀ s ∈ [owner, name], s ≠ [] ∧ segmentProblem s = none :=
  fun s hs => hchecked s ((List.prefix_append [owner, name] rest).subset hs)

theorem parse_base_ofChecked : parse (ofChecked owner name rest).base =
    ofSegments (owner :: [dropGitSuffixes name].filter (· ≠ [])) := by
  have hdisplay := parse_display_ofChecked (checked_front hchecked)
  rwa [display_of_subcomponent_none rfl] at hdisplay

/-- With an ordinary name the segments of the identifier pass the checks again. -/
theorem ofSegments_of_isOrdinary (hordinary : IsOrdinary (ofChecked owner name rest).name) :
    ofSegments (owner :: (dropGitSuffixes name :: rest).filter (· ≠ [])) =
      .ok (ofChecked owner name rest) := by
  obtain ⟨hne, hdots⟩ := isOrdinary_name_iff.1 hordinary
  obtain ⟨howner, hname, hrest⟩ : _ ∧ _ ∧ _ := by
    simpa only [List.forall_mem_cons] using hchecked
  have hkept : (dropGitSuffixes name :: rest).filter (· ≠ []) = dropGitSuffixes name :: rest :=
    List.filter_eq_self.2 (by simpa [hne] using fun s hs => (hrest s hs).1)
  rw [hkept, ofSegments_eq_ok_iff]
  refine ⟨owner, dropGitSuffixes name, rest, rfl, ?_, ?_⟩
  · exact List.forall_mem_cons.2 ⟨howner.2, List.forall_mem_cons.2
      ⟨segmentProblem_dropGitSuffixes hname.2 hdots, fun s hs => (hrest s hs).2⟩⟩
  · rw [ofChecked, ofChecked, dropGitSuffixes_dropGitSuffixes]

/-- A base repository that can be read has an ordinary name. -/
theorem isOrdinary_name_of_baseOf_base {base : String}
    (h : baseOf (ofChecked owner name rest).base = .ok base) :
    IsOrdinary (ofChecked owner name rest).name := by
  obtain ⟨id, hread, -⟩ := baseOf_eq_ok_iff.1 h
  rw [parse_base_ofChecked hchecked] at hread
  refine isOrdinary_name_iff.2 ⟨fun hnil => ?_, ne_dots_of_ofSegments hread⟩
  rw [hnil] at hread
  cases hread

/-- Without a name, the first segment of the part is read in its place, and the part changes. -/
theorem ne_nil_of_parse_display
    (h : parse (ofChecked owner name rest).display = .ok (ofChecked owner name rest)) :
    dropGitSuffixes name ≠ [] := by
  intro hnil
  have hrest : rest.filter (· ≠ []) = rest := List.filter_eq_self.2 fun s hs => by
    simpa using (hchecked s (List.mem_cons_of_mem _ (List.mem_cons_of_mem _ hs))).1
  rw [parse_display_ofChecked hchecked, List.filter_cons_of_neg (by simp [hnil]), hrest,
    ofSegments_eq_ok_iff] at h
  obtain ⟨owner', first, others, hsegments, -, hid⟩ := h
  obtain ⟨rfl, rfl⟩ := List.cons.inj hsegments
  have hpart := congrArg RepositoryId.subcomponent hid
  cases others with
  | nil => cases hpart
  | cons second others =>
    have hjoined : Text.join '/' (first :: second :: others) = Text.join '/' (second :: others) :=
      String.ofList_injective (Option.some.inj hpart)
    have hlength := congrArg List.length hjoined
    rw [Text.join_cons _ _ (by simp), List.length_append, List.length_cons] at hlength
    omega

end Checked

/-! ## Keys -/

/-- Whether a text is a base repository in its canonical spelling. -/
def IsCanonical (repository : String) : Prop :=
  baseOf repository = .ok repository

instance (repository : String) : Decidable (IsCanonical repository) :=
  inferInstanceAs (Decidable (_ = _))

/-- A canonical base repository is two segments, with nothing to drop from the second. -/
theorem exists_segments_of_isCanonical {repository : String} (h : IsCanonical repository) :
    ∃ owner name, (∀ s ∈ [owner, name], s ≠ [] ∧ ∀ c ∈ s, isSegmentChar c = true) ∧
      dropGitSuffixes name = name ∧ repository = String.ofList (Text.join '/' [owner, name]) := by
  obtain ⟨id, hparse, hbase⟩ := baseOf_eq_ok_iff.1 h
  obtain ⟨owner, name, rest, hchecked, rfl⟩ := exists_checked_of_parse hparse
  have hname : dropGitSuffixes name ≠ [] := by
    rw [IsCanonical, ← hbase] at h
    exact (isOrdinary_name_iff.1 (isOrdinary_name_of_baseOf_base hchecked h)).1
  have hchars := segmentChars_of_checked hchecked
  simp only [List.forall_mem_cons] at hchars
  refine ⟨owner, dropGitSuffixes name, ?_, dropGitSuffixes_dropGitSuffixes name, ?_⟩
  · simp only [List.forall_mem_cons]
    exact ⟨⟨(hchecked owner List.mem_cons_self).1, hchars.1⟩, ⟨hname, hchars.2.1⟩,
      List.forall_mem_nil _⟩
  · rw [← hbase, base_ofChecked]

/-- A text that goes on behind two segments starts with these. -/
theorem segmentsOf_append {owner name : List Char}
    (h : ∀ s ∈ [owner, name], s ≠ [] ∧ ∀ c ∈ s, isSegmentChar c = true) (part : List Char) :
    segmentsOf (Text.trimChars (owner ++ '/' :: (name ++ '/' :: part))) =
      owner :: name :: pieces (Text.trimEnd part) := by
  obtain ⟨⟨howner, hownerChars⟩, ⟨hname, hnameChars⟩, -⟩ : _ ∧ _ ∧ _ := by
    simpa only [List.forall_mem_cons] using h
  rw [segmentsOf_trimChars howner hownerChars, List.append_cons,
    Text.trimEnd_append (not_isBlank_of_mem_front hnameChars), ← List.append_cons,
    pieces_append hname (slash_not_mem_segment hnameChars)]

/-- What follows a base repository behind a slash does not count, as long as the whole text is
accepted. -/
theorem baseOf_append {repository part : String} (hcanonical : IsCanonical repository)
    (haccepted : (parse (repository ++ "/" ++ part)).isOk = true) :
    baseOf (repository ++ "/" ++ part) = .ok repository := by
  obtain ⟨owner, name, hsegments, hkept, rfl⟩ := exists_segments_of_isCanonical hcanonical
  cases hparse : parse (String.ofList (Text.join '/' [owner, name]) ++ "/" ++ part) with
  | error problem =>
    rw [hparse] at haccepted
    cases haccepted
  | ok id =>
    refine baseOf_eq_ok_iff.2 ⟨id, hparse, ?_⟩
    have htext : (String.ofList (Text.join '/' [owner, name]) ++ "/" ++ part).toList =
        owner ++ '/' :: (name ++ '/' :: part.toList) := by
      simp [Text.join]
    rw [parse, htext, segmentsOf_append hsegments, ofSegments_eq_ok_iff] at hparse
    obtain ⟨owner', name', rest, hsame, -, rfl⟩ := hparse
    obtain ⟨rfl, rfl, -⟩ : _ ∧ _ ∧ _ := by simpa only [List.cons.injEq] using hsame
    rw [base_ofChecked, hkept]

/-- **An identifier has one canonical form exactly if its name is ordinary.** For every text that is
accepted, owner and name consist of allowed characters, and the owner is an ordinary segment. If the
name is one too, the canonical spelling is read as the identifier again, and the base repository as
the identifier without its part, so that the base repository names itself. If the name is empty, `.`
or `..`, none of this holds. -/
theorem canonical_iff {value : String} {id : RepositoryId} (h : parse value = .ok id) :
    IsOrdinary id.owner ∧
      (∀ c ∈ id.owner.toList ++ id.name.toList, isSegmentChar c = true) ∧
      baseOf value = .ok id.base ∧
      [IsOrdinary id.name,
        parse id.display = .ok id,
        parse id.base = .ok { id with subcomponent := none },
        baseOf id.base = .ok id.base].TFAE := by
  obtain ⟨owner, name, rest, hchecked, rfl⟩ := exists_checked_of_parse h
  have hordinary := isOrdinary_owner h
  have hbase : baseOf value = .ok (ofChecked owner name rest).base :=
    baseOf_eq_ok_iff.2 ⟨_, h, rfl⟩
  refine ⟨hordinary, ?_, hbase, ?_⟩
  · have hchars := segmentChars_of_checked hchecked
    intro c hc
    rw [ofChecked, String.toList_ofList, String.toList_ofList] at hc
    rcases List.mem_append.1 hc with hc | hc
    · exact hchars owner List.mem_cons_self c hc
    · exact hchars _ (List.mem_cons_of_mem _ List.mem_cons_self) c hc
  · tfae_have 1 → 2 := fun hname => by
      rw [parse_display_ofChecked hchecked, ofSegments_of_isOrdinary hchecked hname]
    tfae_have 2 → 1 := fun hdisplay => by
      have hne := ne_nil_of_parse_display hchecked hdisplay
      rw [parse_display_ofChecked hchecked] at hdisplay
      exact isOrdinary_name_iff.2 ⟨hne, ne_dots_of_ofSegments hdisplay⟩
    tfae_have 1 → 3 := fun hname => by
      rw [parse_base_ofChecked hchecked]
      exact ofSegments_of_isOrdinary (checked_front hchecked) hname
    tfae_have 3 → 4 := fun hread => baseOf_eq_ok_iff.2 ⟨_, hread, rfl⟩
    tfae_have 4 → 1 := fun hself => isOrdinary_name_of_baseOf_base hchecked hself
    tfae_finish

/-- The address of a repository, with blanks and slashes too many, and one of its artifacts. -/
theorem canonical_iff_for_address :
    parse " https://github.com//openshift/assisted-installer.git/controller/ " =
        .ok ⟨"openshift", "assisted-installer", some "controller"⟩ ∧
      parse "openshift/assisted-installer/controller" =
        .ok ⟨"openshift", "assisted-installer", some "controller"⟩ ∧
      parse "openshift/assisted-installer" = .ok ⟨"openshift", "assisted-installer", none⟩ ∧
      baseOf "openshift/assisted-installer" = .ok "openshift/assisted-installer" := by
  have accepted : parse " https://github.com//openshift/assisted-installer.git/controller/ " =
      .ok ⟨"openshift", "assisted-installer", some "controller"⟩ := by decide +kernel
  have ordinary : IsOrdinary "assisted-installer" := by decide
  obtain ⟨-, -, -, canonical⟩ := canonical_iff accepted
  exact ⟨accepted, (canonical.out 0 1).1 ordinary, (canonical.out 0 2).1 ordinary,
    (canonical.out 0 3).1 ordinary⟩

/-- A name that is `.` once its `.git` is dropped has no canonical form. -/
theorem dots_have_no_canonical_form :
    ¬ ∀ (value : String) (id : RepositoryId), parse value = .ok id →
      IsOrdinary id.owner ∧ IsOrdinary id.name ∧
        (∀ c ∈ id.owner.toList ++ id.name.toList, isSegmentChar c = true) ∧
        parse id.display = .ok id ∧
        parse id.base = .ok { id with subcomponent := none } ∧
        ∀ base, baseOf value = .ok base → baseOf base = .ok base := by
  intro h
  obtain ⟨-, hname, -⟩ := h "o/..git" ⟨"o", ".", none⟩ (by decide +kernel)
  exact hname.2.1 rfl

end ReleaseCandidates.RepositoryId
