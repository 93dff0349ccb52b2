import Mathlib.Logic.Basic
import Mathlib.Tactic.SplitIfs
import ReleaseCandidates.Proofs.Tag.Steps

set_option autoImplicit false

/-! # The commits that tags stand for

A host that answers by its tags and refuses no change (`TagHost.KeepsTags`) can be followed tag by
tag: a tag that is there stays what it is, and one that is missing comes to stand for the commit
that was wanted for it first. `Tag.tags_ensureVersions` says so of a whole run. -/

namespace ReleaseCandidates

variable {σ : Type} {host : TagHost σ} {objects tags : σ → String → String → Option String}

/-- The tags of a host, each with the commit that it stands for, are what the host answers by; an
object that was made stands for its commit, and a ref to it that is missing can be made. -/
structure TagHost.KeepsTags (host : TagHost σ)
    (objects tags : σ → String → String → Option String) : Prop where
  tagRef_isOk (s : σ) (repository tag : String) :
    (host.tagRef repository tag s).1.isOk = (tags s repository tag).isSome
  tagRef (s : σ) (repository tag : String) : tags (host.tagRef repository tag s).2 = tags s
  createTagObject (s : σ) (repository tag message sha : String) :
    ∃ object s', host.createTagObject repository tag message sha s = (.ok object, s') ∧
      objects s' repository object = some sha ∧ tags s' = tags s
  createRef {s : σ} {repository tag object sha : String}
    (there : objects s repository object = some sha) (missing : tags s repository tag = none) :
    ∃ s', host.createRef repository (Tag.refName tag) object s = (.ok (), s') ∧
      ∀ repository' tag', tags s' repository' tag' =
        if repository = repository' ∧ tag = tag' then some sha else tags s repository' tag'

/-- The commit that a version wants a tag in a repository to stand for. -/
def NamedVersion.commitFor? (version : NamedVersion) (repository tag : String) : Option String :=
  if version.name = tag then ((TagPlan.ofVersion version).targetFor? repository).map (·.sha)
  else none

theorem NamedVersion.isSome_commitFor? (version : NamedVersion) (repository : String) :
    (version.commitFor? repository version.name).isSome = true ↔
      ∃ t ∈ (TagPlan.ofVersion version).targets, t.repository = repository := by
  simp [commitFor?, TagPlan.targetFor?]

namespace Tag

/-! ## One tag -/

section Ensure

variable {repository version : String} {s : σ}

theorem isThere_eq (keeps : host.KeepsTags objects tags) (repository version : String) (s : σ) :
    ∃ s', isThere host repository version s = ((tags s repository version).isSome, s') ∧
      tags s' = tags s := by
  have hanswer := keeps.tagRef_isOk s repository version
  have hstate := keeps.tagRef s repository version
  rcases h : host.tagRef repository version s with ⟨missing | found, s'⟩
  · rw [h] at hanswer hstate
    refine ⟨s', ?_, hstate⟩
    rw [isThere_of_error h, ← hanswer]
    rfl
  · rw [h] at hanswer hstate
    refine ⟨s', ?_, hstate⟩
    rw [isThere_of_ok h, ← hanswer]
    rfl

theorem create_eq (keeps : host.KeepsTags objects tags) (template sha : String)
    (missing : tags s repository version = none) :
    ∃ s', create host template repository sha version s = (.ok (), s') ∧
      ∀ repository' tag, tags s' repository' tag =
        if repository = repository' ∧ version = tag then some sha else tags s repository' tag := by
  obtain ⟨object, s₁, hobject, hsha, htags⟩ :=
    keeps.createTagObject s repository version (messageFor template version) sha
  rw [create_of_ok hobject, ← htags]
  rw [← htags] at missing
  exact keeps.createRef hsha missing

/-- Making sure of a tag adds it, if it is missing and this is no dry run. -/
theorem tags_ensure (keeps : host.KeepsTags objects tags) (template repository sha version : String)
    (dryRun : Bool) (s : σ) (repository' tag : String) :
    tags (ensure host template repository sha version dryRun s).2 repository' tag =
      (tags s repository' tag).or
        (if dryRun = false ∧ repository = repository' ∧ version = tag then some sha else none) := by
  obtain ⟨s₁, hthere, hstate⟩ := isThere_eq keeps repository version s
  cases hfound : tags s repository version with
  | some sha' =>
    rw [hfound] at hthere
    rw [ensure_of_there hthere, hstate]
    split_ifs with hsame
    · obtain ⟨-, rfl, rfl⟩ := hsame
      rw [hfound, Option.some_or]
    · rw [Option.or_none]
  | none =>
    rw [hfound] at hthere
    cases dryRun with
    | true =>
      rw [ensure_dry hthere, hstate, if_neg (by simp), Option.or_none]
    | false =>
      rw [← hstate] at hfound
      obtain ⟨s₂, hcreate, hmade⟩ := create_eq keeps template sha hfound
      rw [ensure_real hthere hcreate, hmade, hstate]
      simp only [true_and]
      -- the new tag was missing, so what is added does not replace anything
      split_ifs with hsame
      · obtain ⟨rfl, rfl⟩ := hsame
        rw [← hstate, hfound, Option.none_or]
      · rw [Option.or_none]

end Ensure

/-! ## Targets and versions -/

theorem tags_ensureTargets (keeps : host.KeepsTags objects tags) (template version : String)
    (dryRun : Bool) (targets : List WantedTag) (report : TagReport) (s : σ)
    (repository tag : String) :
    tags (ensureTargets host template version dryRun targets report s).2 repository tag =
      (tags s repository tag).or
        (if dryRun = false ∧ version = tag then
          (targets.find? fun t => t.repository == repository).map (·.sha)
        else none) := by
  induction targets generalizing report s with
  | nil =>
    show tags s repository tag = _
    simp
  | cons t rest ih =>
    rw [ensureTargets_cons, ih, tags_ensure keeps, Option.or_assoc]
    by_cases hreal : dryRun = false ∧ version = tag
    · by_cases hsame : t.repository = repository
      · simp [hreal, hsame]
      · simp [hreal, hsame]
    · have hother : ¬ (dryRun = false ∧ t.repository = repository ∧ version = tag) :=
        fun h => hreal ⟨h.1, h.2.2⟩
      rw [if_neg hreal, if_neg hreal, if_neg hother]
      rfl

theorem tags_ensureVersion (keeps : host.KeepsTags objects tags) (template : String)
    (dryRun : Bool) (version : NamedVersion) (s : σ) (repository tag : String) :
    tags (ensureVersion host template dryRun version s).2 repository tag =
      (tags s repository tag).or
        (if dryRun = false then version.commitFor? repository tag else none) := by
  rw [ensureVersion, tags_ensureTargets keeps, NamedVersion.commitFor?, ite_and]
  rfl

/-- After a run, a tag stands for what it stood for before, or else for the commit that was wanted
first. -/
theorem tags_ensureVersions (keeps : host.KeepsTags objects tags) (template : String)
    (dryRun : Bool) (versions : List NamedVersion) (s : σ) (repository tag : String) :
    tags (ensureVersions host template dryRun versions s).2 repository tag =
      (tags s repository tag).or
        (if dryRun = false then versions.findSome? (·.commitFor? repository tag) else none) := by
  induction versions generalizing s with
  | nil =>
    show tags s repository tag = _
    simp
  | cons version rest ih =>
    rw [ensureVersions_cons, ih, tags_ensureVersion keeps, Option.or_assoc, List.findSome?_cons]
    cases dryRun with
    | true => rfl
    | false =>
      simp only [if_true]
      cases version.commitFor? repository tag <;> rfl

end Tag

end ReleaseCandidates
