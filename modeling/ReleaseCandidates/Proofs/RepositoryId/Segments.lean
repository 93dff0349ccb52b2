import Mathlib.Tactic.SplitIfs
import ReleaseCandidates.Proofs.Http.Percent
import ReleaseCandidates.RepositoryId

set_option autoImplicit false

/-! # The parts of an identifier

What is known of owner and name when a text was accepted as a repository identifier. Both consist of
the allowed characters, which percent encoding leaves alone. The owner is an ordinary segment of a
path, but the name need not be one: every segment is checked as it was written, and a closing `.git`
is dropped only afterwards. -/

namespace ReleaseCandidates.RepositoryId

/-- A segment that is there and is not resolved away when a path is read. -/
def IsOrdinary (segment : String) : Prop :=
  segment ≠ "" ∧ segment ≠ "." ∧ segment ≠ ".."
  deriving Decidable

/-- An ordinary segment of plain characters is not resolved away. -/
theorem isDots_eq_false {segment : String}
    (hplain : ∀ c ∈ segment.toList, Http.Percent.isPlain c = true) (h : IsOrdinary segment) :
    Http.Url.isDots segment.toList = false := by
  rw [Http.Url.isDots_of_plain hplain]
  exact ⟨fun heq => h.2.1 (String.toList_inj.1 heq), fun heq => h.2.2 (String.toList_inj.1 heq)⟩

/-! ## Checked segments -/

theorem segmentProblem_eq_none {segment : List Char} :
    segmentProblem segment = none ↔
      byteLength segment ≤ segmentLimit ∧ (segment ≠ ['.'] ∧ segment ≠ ['.', '.']) ∧
        segment.all isSegmentChar = true := by
  rw [segmentProblem]
  split_ifs with hlength hdots hchars
  · simp [Nat.not_le.2 hlength]
  · simp only [false_iff]
    rintro ⟨-, ⟨hsingle, hdouble⟩, -⟩
    exact hdots.elim hsingle hdouble
  · exact ⟨fun _ => ⟨Nat.not_lt.1 hlength, not_or.1 hdots, hchars⟩, fun _ => rfl⟩
  · simp [hchars]

theorem firstProblem_eq_none {segments : List (List Char)} :
    firstProblem segments = none ↔ ∀ s ∈ segments, segmentProblem s = none :=
  List.findSome?_eq_none_iff

theorem isPlain_of_isSegmentChar {c : Char} (h : isSegmentChar c = true) :
    Http.Percent.isPlain c = true := by
  rw [Http.Percent.isPlain]
  rw [isSegmentChar] at h
  rw [h, Bool.true_or]

/-! ## Accepted texts -/

theorem ne_nil_of_mem_segmentsOf {cs segment : List Char} (h : segment ∈ segmentsOf cs) :
    segment ≠ [] := by
  have hpieces : ∀ rest, segment ∈ pieces rest → segment ≠ [] := by
    intro rest hmem
    simpa using (List.mem_filter.1 hmem).2
  rw [segmentsOf] at h
  split at h
  · exact hpieces _ (List.mem_of_mem_drop h)
  · exact hpieces _ h

/-- The identifier of checked segments. -/
def ofChecked (owner name : List Char) (rest : List (List Char)) : RepositoryId where
  owner := String.ofList owner
  name := String.ofList (dropGitSuffixes name)
  subcomponent := if rest.isEmpty then none else some (String.ofList (Text.join '/' rest))

theorem ofSegments_eq_ok_iff {segments : List (List Char)} {id : RepositoryId} :
    ofSegments segments = .ok id ↔ ∃ owner name rest, segments = owner :: name :: rest ∧
      (∀ s ∈ segments, segmentProblem s = none) ∧ id = ofChecked owner name rest := by
  constructor
  · intro h
    rcases segments with _ | ⟨owner, _ | ⟨name, rest⟩⟩
    · cases h
    · cases h
    · rw [ofSegments] at h
      cases hproblem : firstProblem (owner :: name :: rest) with
      | some problem =>
        rw [hproblem] at h
        cases h
      | none =>
        rw [hproblem] at h
        cases h
        exact ⟨owner, name, rest, rfl, firstProblem_eq_none.1 hproblem, rfl⟩
  · rintro ⟨owner, name, rest, rfl, hsegments, rfl⟩
    rw [ofSegments, firstProblem_eq_none.2 hsegments]
    rfl

/-- What a text was accepted as: two or more segments, none of them empty, all of them checked. -/
theorem exists_checked_of_parse {value : String} {id : RepositoryId} (h : parse value = .ok id) :
    ∃ owner name rest, (∀ s ∈ owner :: name :: rest, s ≠ [] ∧ segmentProblem s = none) ∧
      id = ofChecked owner name rest := by
  obtain ⟨owner, name, rest, hsegments, hchecked, hid⟩ := ofSegments_eq_ok_iff.1 h
  rw [hsegments] at hchecked
  refine ⟨owner, name, rest, fun s hs => ⟨?_, hchecked s hs⟩, hid⟩
  rw [← hsegments] at hs
  exact ne_nil_of_mem_segmentsOf hs

theorem go_suffix (cs : List Char) : dropGitSuffixes.go cs <:+ cs := by
  induction cs using dropGitSuffixes.go.induct with
  | case1 rest ih =>
    rw [dropGitSuffixes.go]
    exact ih.trans (List.suffix_append ['t', 'i', 'g', '.'] rest)
  | case2 cs h =>
    have hkept : dropGitSuffixes.go cs = cs := by
      rw [dropGitSuffixes.go]
      exact h
    exact ⟨[], hkept⟩

theorem mem_of_mem_dropGitSuffixes {cs : List Char} {c : Char} (h : c ∈ dropGitSuffixes cs) :
    c ∈ cs := by
  rw [dropGitSuffixes, List.mem_reverse] at h
  exact List.mem_reverse.1 ((go_suffix cs.reverse).subset h)

section Parse

variable {value : String} {id : RepositoryId}

theorem isPlain_of_mem_owner (h : parse value = .ok id) :
    ∀ c ∈ id.owner.toList, Http.Percent.isPlain c = true := by
  obtain ⟨owner, name, rest, hchecked, rfl⟩ := exists_checked_of_parse h
  intro c hc
  rw [ofChecked, String.toList_ofList] at hc
  have hall := (segmentProblem_eq_none.1 (hchecked owner List.mem_cons_self).2).2.2
  exact isPlain_of_isSegmentChar (List.all_eq_true.1 hall c hc)

theorem isPlain_of_mem_name (h : parse value = .ok id) :
    ∀ c ∈ id.name.toList, Http.Percent.isPlain c = true := by
  obtain ⟨owner, name, rest, hchecked, rfl⟩ := exists_checked_of_parse h
  intro c hc
  rw [ofChecked, String.toList_ofList] at hc
  have hall := (segmentProblem_eq_none.1
    (hchecked name (List.mem_cons_of_mem _ List.mem_cons_self)).2).2.2
  exact isPlain_of_isSegmentChar (List.all_eq_true.1 hall c (mem_of_mem_dropGitSuffixes hc))

theorem isOrdinary_owner (h : parse value = .ok id) : IsOrdinary id.owner := by
  obtain ⟨owner, name, rest, hchecked, rfl⟩ := exists_checked_of_parse h
  obtain ⟨hne, hproblem⟩ := hchecked owner List.mem_cons_self
  obtain ⟨-, ⟨hsingle, hdouble⟩, -⟩ := segmentProblem_eq_none.1 hproblem
  exact ⟨fun heq => hne (String.ofList_injective heq),
    fun heq => hsingle (String.ofList_injective heq),
    fun heq => hdouble (String.ofList_injective heq)⟩

end Parse

end ReleaseCandidates.RepositoryId
