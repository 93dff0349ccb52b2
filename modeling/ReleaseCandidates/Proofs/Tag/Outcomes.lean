import Mathlib.Data.List.Forall2
import Mathlib.Data.List.Perm.Basic
import ReleaseCandidates.Proofs.Tag.Grouping
import ReleaseCandidates.Proofs.Tag.Steps

set_option autoImplicit false

/-! # What became of the targets of a version

Working through targets gives one outcome for each, and a report sorts the outcomes into four lists.
Taken apart like this, a report is easy to count: nothing is lost when outcomes are sorted
(`TagReport.addAll_eq`), and there are as many outcomes as targets. So every base repository of a
version has one entry, and what a report says of one base repository is what it would say if there
were only the outcome for that (`TagReport.about_addAll`).

Main statement: `Tag.ensureVersion_accounts`. -/

namespace ReleaseCandidates

/-- What became of the tag in a repository. -/
abbrev RepositoryOutcome := String × Except Failure TagOutcome

namespace RepositoryOutcome

/-- The repository, if this became of its tag. -/
def of? (kind : TagOutcome) : RepositoryOutcome → Option String
  | (repository, .ok outcome) => if outcome = kind then some repository else none
  | (_, .error _) => none

/-- The repository and the reason, if its tag could not be made. -/
def failure? : RepositoryOutcome → Option (String × String)
  | (_, .ok _) => none
  | (repository, .error failure) => some (repository, failure.summary)

theorem eq_of_of? (kind : TagOutcome) (outcome : RepositoryOutcome) (repository : String)
    (h : outcome.of? kind = some repository) : repository = outcome.1 := by
  obtain ⟨name, _ | done⟩ := outcome
  · cases h
  · rw [of?, Option.ite_none_right_eq_some] at h
    exact (Option.some.inj h.2).symm

theorem eq_of_failure? (outcome : RepositoryOutcome) (entry : String × String)
    (h : outcome.failure? = some entry) : entry.1 = outcome.1 := by
  obtain ⟨name, failure | _⟩ := outcome
  · rw [← Option.some.inj h]
  · cases h

end RepositoryOutcome

namespace TagReport

open RepositoryOutcome (of? failure?)

/-- Adds what became of the tags in repositories. -/
def addAll (report : TagReport) (outcomes : List RepositoryOutcome) : TagReport :=
  outcomes.foldl (fun report outcome => report.add outcome.1 outcome.2) report

/-- Outcomes are sorted by their kind, and each kind keeps its order. -/
theorem addAll_eq (report : TagReport) (outcomes : List RepositoryOutcome) :
    report.addAll outcomes =
      { version := report.version
        ensured := report.ensured ++ outcomes.filterMap (of? .existing)
        created := report.created ++ outcomes.filterMap (of? .created)
        wouldCreate := report.wouldCreate ++ outcomes.filterMap (of? .wanting)
        failed := report.failed ++ outcomes.filterMap failure? } := by
  induction outcomes generalizing report with
  | nil => simp [addAll]
  | cons outcome rest ih =>
    rw [addAll, List.foldl_cons, ← addAll, ih]
    rcases outcome with ⟨repository, failure | kind⟩
    · simp [add, of?, failure?, List.filterMap_cons]
    · cases kind <;> simp [add, of?, failure?, List.filterMap_cons]

/-- Every outcome is of one kind. -/
theorem perm_kinds (outcomes : List RepositoryOutcome) :
    (outcomes.filterMap (of? .existing) ++ outcomes.filterMap (of? .created) ++
      outcomes.filterMap (of? .wanting) ++ (outcomes.filterMap failure?).map Prod.fst).Perm
        (outcomes.map Prod.fst) := by
  rw [List.perm_iff_count]
  intro repository
  simp only [List.count_append]
  induction outcomes with
  | nil => rfl
  | cons outcome rest ih =>
    rcases outcome with ⟨name, failure | kind⟩
    · simp only [of?, failure?, List.filterMap_cons, List.map_cons, List.count_cons]
      omega
    · cases kind <;>
        simp only [of?, failure?, List.filterMap_cons, List.map_cons, List.count_cons, if_true,
          reduceCtorEq, if_false] <;>
        omega

/-- What a report says of one repository, apart from its first failures. -/
def about (report : TagReport) (skipped : Nat) (repository : String) : TagReport where
  version := report.version
  ensured := report.ensured.filter (· == repository)
  created := report.created.filter (· == repository)
  wouldCreate := report.wouldCreate.filter (· == repository)
  failed := (report.failed.drop skipped).filter (·.1 == repository)

/-- The entries for a repository come from the outcomes for it. -/
theorem filter_filterMap {α : Type} {f : RepositoryOutcome → Option α} {name : α → String}
    (hname : ∀ outcome entry, f outcome = some entry → name entry = outcome.1)
    (outcomes : List RepositoryOutcome) (repository : String) :
    (outcomes.filterMap f).filter (fun entry => name entry == repository) =
      (outcomes.filter (·.1 == repository)).filterMap f := by
  induction outcomes with
  | nil => rfl
  | cons outcome rest ih =>
    cases hentry : f outcome with
    | none =>
      rw [List.filterMap_cons_none hentry, ih, List.filter_cons]
      split
      · rw [List.filterMap_cons_none hentry]
      · rfl
    | some entry =>
      rw [List.filterMap_cons_some hentry, List.filter_cons, List.filter_cons,
        hname outcome entry hentry, ih]
      split
      · rw [List.filterMap_cons_some hentry]
      · rfl

/-- A report says of a repository what it would say if there were no outcomes but those for it. -/
theorem about_addAll (version : String) (invalid : List (String × Failure))
    (outcomes : List RepositoryOutcome) (repository : String) :
    (((empty version).addInvalid invalid).addAll outcomes).about invalid.length repository =
      (empty version).addAll (outcomes.filter (·.1 == repository)) := by
  have hkind (kind : TagOutcome) : (outcomes.filterMap (of? kind)).filter (· == repository) =
      (outcomes.filter (·.1 == repository)).filterMap (of? kind) :=
    filter_filterMap (RepositoryOutcome.eq_of_of? kind) outcomes repository
  have hfailed := filter_filterMap RepositoryOutcome.eq_of_failure? outcomes repository
  have hdrop : ((invalid.map fun entry => (entry.1, entry.2.text)) ++
      outcomes.filterMap failure?).drop invalid.length = outcomes.filterMap failure? :=
    List.drop_left' (List.length_map _)
  simp only [addAll_eq, about, addInvalid, empty, List.nil_append, hkind, hdrop, hfailed]

end TagReport

namespace Tag

variable {σ : Type} (host : TagHost σ) (template version : String) (dryRun : Bool)

/-! ## One outcome for each target -/

/-- What becomes of the tags for targets, one after the other. -/
def outcomes : List WantedTag → StateM σ (List RepositoryOutcome)
  | [] => return []
  | t :: rest => do
    let outcome ← ensure host template t.repository t.sha version dryRun
    let more ← outcomes rest
    return (t.repository, outcome) :: more

theorem outcomes_cons (t : WantedTag) (rest : List WantedTag) (s : σ) :
    outcomes host template version dryRun (t :: rest) s =
      ((t.repository, (ensure host template t.repository t.sha version dryRun s).1) ::
          (outcomes host template version dryRun rest
            (ensure host template t.repository t.sha version dryRun s).2).1,
        (outcomes host template version dryRun rest
          (ensure host template t.repository t.sha version dryRun s).2).2) :=
  rfl

theorem ensureTargets_eq (targets : List WantedTag) (report : TagReport) (s : σ) :
    ensureTargets host template version dryRun targets report s =
      (report.addAll (outcomes host template version dryRun targets s).1,
        (outcomes host template version dryRun targets s).2) := by
  induction targets generalizing report s with
  | nil => rfl
  | cons t rest ih =>
    rw [ensureTargets_cons, ih, outcomes_cons]
    rfl

theorem map_fst_outcomes (targets : List WantedTag) (s : σ) :
    (outcomes host template version dryRun targets s).1.map Prod.fst =
      targets.map (·.repository) := by
  induction targets generalizing s with
  | nil => rfl
  | cons t rest ih => rw [outcomes_cons, List.map_cons, List.map_cons, ih]

end Tag

/-! ## The report on a version -/

/-- The report on a version has one failed entry for each component whose repository cannot be read,
in front of all others, and one further entry for each base repository. -/
structure TagReport.Accounts (version : NamedVersion) (report : TagReport) : Prop where
  name : report.version = version.name
  invalid : report.failed.take version.invalid.length =
    version.invalid.map fun entry => (entry.1, entry.2.text)
  bases : (report.ensured ++ report.created ++ report.wouldCreate ++
    (report.failed.drop version.invalid.length).map Prod.fst).Perm version.bases.eraseDups

namespace Tag

variable {σ : Type} (host : TagHost σ) (template : String) (dryRun : Bool)

theorem ensureVersion_eq (version : NamedVersion) (s : σ) :
    ensureVersion host template dryRun version s =
      (((TagReport.empty version.name).addInvalid version.invalid).addAll
          (outcomes host template version.name dryRun (TagPlan.ofVersion version).targets s).1,
        (outcomes host template version.name dryRun (TagPlan.ofVersion version).targets s).2) := by
  rw [ensureVersion, ensureTargets_eq, TagPlan.invalid_ofVersion]

/-- Whatever the host answers, the report accounts for every component and base repository. -/
theorem ensureVersion_accounts (version : NamedVersion) (s : σ) :
    (ensureVersion host template dryRun version s).1.Accounts version := by
  rw [ensureVersion_eq, TagReport.addAll_eq]
  refine ⟨rfl, ?_, ?_⟩
  · simp [TagReport.addInvalid, TagReport.empty]
  · have hkinds := TagReport.perm_kinds
      (outcomes host template version.name dryRun (TagPlan.ofVersion version).targets s).1
    rw [map_fst_outcomes] at hkinds
    rw [← TagPlan.repositories_ofVersion, TagPlan.repositories]
    simpa [TagReport.addInvalid, TagReport.empty] using hkinds

theorem ensureVersions_accounts (versions : List NamedVersion) (s : σ) :
    List.Forall₂ TagReport.Accounts versions
      (ensureVersions host template dryRun versions s).1 := by
  induction versions generalizing s with
  | nil => exact .nil
  | cons version rest ih =>
    rw [ensureVersions_cons]
    exact .cons (ensureVersion_accounts host template dryRun version s) (ih _)

end Tag

end ReleaseCandidates
