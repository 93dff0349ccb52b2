import ReleaseCandidates.Proofs.Tag.Asking
import ReleaseCandidates.Proofs.Tag.AtMostOnce

set_option autoImplicit false

/-! # What a dry run foretells

A dry run and a real run go through the same targets, but on hosts that part as soon as the real run
has made a tag. If nevertheless both find the same tags, the two runs can be compared target by
target (`Tag.outcomes_foretold`): a tag that is there is there for both, and where the dry run says
that a tag would be made, the real run makes it or fails. That both find the same tags is so on every
host where a tag turns up by its ref being made and in no other way
(`TagHost.FindsSteadily.readings_eq`).

Main statement: `Tag.dry_run_foretells`. -/

namespace ReleaseCandidates

variable {σ : Type}

/-! ## What calls find -/

namespace TagCall

/-- The tag that a call asks for, with its repository, and whether it is found. -/
def reading? : TagCall → Option ((String × String) × Bool)
  | .tagRef repository tag answer => some ((repository, tag), answer.isOk)
  | _ => none

/-- Whether a call asks for a change and is refused it. -/
def isRefused : TagCall → Bool
  | .createTagObject _ _ _ _ (.error _) | .createRef _ _ _ (.error _) => true
  | _ => false

end TagCall

/-- The tags that are asked for in calls, each with whether it is found. -/
def readings (calls : List (σ × TagCall)) : List ((String × String) × Bool) :=
  calls.filterMap fun call => call.2.reading?

theorem readings_append (first second : List (σ × TagCall)) :
    readings (first ++ second) = readings first ++ readings second :=
  List.filterMap_append

/-- Whether a tag is found can be told from the state of a host, and nothing changes it but that the
ref of this tag is asked for. -/
structure TagHost.FindsSteadily (host : TagHost σ) (finds : σ → String → String → Bool) : Prop where
  tagRef_isOk (s : σ) (repository tag : String) :
    (host.tagRef repository tag s).1.isOk = finds s repository tag
  tagRef (s : σ) (repository tag : String) : finds (host.tagRef repository tag s).2 = finds s
  createTagObject (s : σ) (repository tag message sha : String) :
    finds (host.createTagObject repository tag message sha s).2 = finds s
  createRef (s : σ) {repository repository' ref tag : String} (sha : String)
    (another : (repository, ref) ≠ (repository', Tag.refName tag)) :
    finds (host.createRef repository ref sha s).2 repository' tag = finds s repository' tag

/-! ## Outcomes foretold -/

/-- What a dry run says about a repository, and what a real run may then make of it. -/
inductive RepositoryOutcome.Foretells : RepositoryOutcome → RepositoryOutcome → Prop where
  | existing (repository : String) :
      Foretells (repository, .ok .existing) (repository, .ok .existing)
  | created (repository : String) : Foretells (repository, .ok .wanting) (repository, .ok .created)
  | failed (repository : String) (failure : Failure) :
      Foretells (repository, .ok .wanting) (repository, .error failure)

namespace TagReport

open RepositoryOutcome (of? failure? Foretells)

section Foretold

variable {dry real : List RepositoryOutcome}

theorem existing_of_foretold (h : List.Forall₂ Foretells dry real) :
    dry.filterMap (of? .existing) = real.filterMap (of? .existing) := by
  induction h with
  | nil => rfl
  | cons hfirst _ ih => cases hfirst <;> simp [of?, List.filterMap_cons, ih]

theorem failed_of_foretold (h : List.Forall₂ Foretells dry real) : dry.filterMap failure? = [] := by
  induction h with
  | nil => rfl
  | cons hfirst _ ih => cases hfirst <;> simp [failure?, List.filterMap_cons, ih]

/-- What would be made is made or fails. -/
theorem wanting_perm_of_foretold (h : List.Forall₂ Foretells dry real) :
    (dry.filterMap (of? .wanting)).Perm
      (real.filterMap (of? .created) ++ (real.filterMap failure?).map Prod.fst) := by
  induction h with
  | nil => exact .nil
  | cons hfirst _ ih =>
    cases hfirst with
    | existing repository => simpa [of?, failure?, List.filterMap_cons] using ih
    | created repository => simpa [of?, failure?, List.filterMap_cons] using ih
    | failed repository failure =>
      simp only [of?, failure?, List.filterMap_cons, if_true, List.map_cons]
      exact (ih.cons repository).trans List.perm_middle.symm

/-- Where nothing fails, all that would be made is made, in order. -/
theorem wanting_of_foretold (h : List.Forall₂ Foretells dry real)
    (hnone : real.filterMap failure? = []) :
    dry.filterMap (of? .wanting) = real.filterMap (of? .created) := by
  induction h with
  | nil => rfl
  | cons hfirst _ ih =>
    cases hfirst with
    | existing repository => simpa [of?, failure?, List.filterMap_cons] using ih hnone
    | created repository =>
      simp only [of?, List.filterMap_cons, if_true]
      exact congrArg (repository :: ·) (ih hnone)
    | failed repository failure => simp [failure?] at hnone

end Foretold

/-- What the report on a dry run says of the report on a real run. -/
structure Foretells (dry real : TagReport) : Prop where
  ensured : dry.ensured = real.ensured
  failed : dry.failed <+: real.failed
  /-- What would be created is created or fails. -/
  wouldCreate : dry.wouldCreate.Perm
    (real.created ++ (real.failed.drop dry.failed.length).map Prod.fst)
  /-- No repository fails that has got the tag, and none has two entries. -/
  apart : (real.created ++ (real.failed.drop dry.failed.length).map Prod.fst).Nodup

theorem addAll_foretells {dry real : List RepositoryOutcome}
    (h : List.Forall₂ RepositoryOutcome.Foretells dry real) (hnodup : (real.map Prod.fst).Nodup)
    (version : String) (invalid : List (String × Failure)) :
    (((empty version).addInvalid invalid).addAll dry).Foretells
      (((empty version).addInvalid invalid).addAll real) := by
  have hapart : (real.filterMap (of? .created) ++ (real.filterMap failure?).map Prod.fst).Nodup :=
    ((perm_kinds real).nodup_iff.2 hnodup).sublist
      (((List.sublist_append_right _ _).trans (List.sublist_append_left _ _)).append
        (List.Sublist.refl _))
  simp only [addAll_eq, addInvalid, empty, List.nil_append, failed_of_foretold h, List.append_nil]
  exact
    { ensured := existing_of_foretold h
      failed := List.prefix_append _ _
      wouldCreate := by rw [List.drop_left]; exact wanting_perm_of_foretold h
      apart := by rw [List.drop_left]; exact hapart }

end TagReport

namespace Tag

open RepositoryOutcome (failure? Foretells)

/-! ## One tag -/

section Ensured

variable {host : TagHost σ} {template repository sha version : String} {dryRun : Bool} {s s' : σ}
  {answer : Except Failure TagOutcome} {calls : List (σ × TagCall)}

theorem Ensured.length_readings
    (h : Ensured host template repository sha version dryRun s answer calls s') :
    (readings calls).length = 1 := by
  cases h <;> rfl

/-- Without a change, the one call that is made asks for the tag. -/
theorem Ensured.asked_dry
    (h : Ensured host template repository sha version true s answer calls s') :
    calls.map (fun call => call.2.asked?) = [some (repository, version)] := by
  cases h with
  | existing => rfl
  | wanting => rfl
  | objectRefused _ real => cases real
  | refAsked _ real => cases real

theorem Ensured.exists_refused {failure : Failure}
    (h : Ensured host template repository sha version dryRun s (.error failure) calls s') :
    ∃ call ∈ calls, call.2.isRefused = true := by
  generalize hanswer : Except.error failure = answer at h
  cases h with
  | existing => cases hanswer
  | wanting => cases hanswer
  | objectRefused => exact ⟨_, List.mem_cons_of_mem _ List.mem_cons_self, rfl⟩
  | @refAsked _ _ made =>
    cases made with
    | error => exact ⟨_, List.mem_cons_of_mem _ (List.mem_cons_of_mem _ List.mem_cons_self), rfl⟩
    | ok => cases hanswer

/-- If both find the same, a dry run foretells what a real run makes of a tag. -/
theorem Ensured.foretells {other other' : σ} {answer' : Except Failure TagOutcome}
    {calls' : List (σ × TagCall)}
    (hdry : Ensured host template repository sha version true s answer calls s')
    (hreal : Ensured host template repository sha version false other answer' calls' other')
    (hsame : readings calls = readings calls') :
    Foretells (repository, answer) (repository, answer') := by
  cases hdry with
  | existing =>
    cases hreal with
    | existing => exact .existing repository
    | wanting _ dry => cases dry
    | objectRefused => cases hsame
    | refAsked => cases hsame
  | wanting =>
    cases hreal with
    | existing => cases hsame
    | wanting _ dry => cases dry
    | objectRefused => exact .failed repository _
    | @refAsked _ _ made =>
      cases made with
      | error => exact .failed repository _
      | ok => exact .created repository
  | objectRefused _ real => cases real
  | refAsked _ real => cases real

/-- On a host that finds tags steadily, making sure of one tag leaves the others as they are. -/
theorem Ensured.reads_steadily {finds : σ → String → String → Bool}
    (steady : host.FindsSteadily finds)
    (h : Ensured host template repository sha version dryRun s answer calls s') :
    readings calls = [((repository, version), finds s repository version)] ∧
      ∀ other, repository ≠ other → finds s' other version = finds s other version := by
  have hisOk := steady.tagRef_isOk s repository version
  have hlooked := steady.tagRef s repository version
  cases h with
  | existing tag =>
    rw [tag] at hisOk hlooked
    exact ⟨by rw [← hisOk]; rfl, fun other _ => by rw [hlooked]⟩
  | wanting tag =>
    rw [tag] at hisOk hlooked
    exact ⟨by rw [← hisOk]; rfl, fun other _ => by rw [hlooked]⟩
  | @objectRefused _ _ s₁ _ tag _ object =>
    rw [tag] at hisOk hlooked
    have hobject := steady.createTagObject s₁ repository version (messageFor template version) sha
    rw [object] at hobject
    exact ⟨by rw [← hisOk]; rfl, fun other _ => by rw [hobject, hlooked]⟩
  | @refAsked _ made _ s₁ s₂ _ tag _ object ref =>
    rw [tag] at hisOk hlooked
    have hobject := steady.createTagObject s₁ repository version (messageFor template version) sha
    rw [object] at hobject
    refine ⟨by rw [← hisOk]; rfl, fun other hother => ?_⟩
    have href : finds (host.createRef repository (refName version) made s₂).2 other version =
        finds s₂ other version :=
      steady.createRef s₂ made fun h => hother (congrArg Prod.fst h)
    rw [ref] at href
    rw [href, hobject, hlooked]

end Ensured

/-! ## All targets -/

section Targets

variable (host : TagHost σ) (template version : String) (dryRun : Bool)

/-- Whatever becomes of targets, the calls for them are put behind the calls before. -/
theorem outcomes_calls (targets : List WantedTag) (r : Recorded σ) :
    r.calls <+: (outcomes host.recorded template version dryRun targets r).2.calls := by
  induction targets generalizing r with
  | nil => exact List.prefix_rfl
  | cons t rest ih =>
    obtain ⟨answer, calls, s', heq, -⟩ :=
      ensure_recorded host template t.repository t.sha version dryRun r
    rw [outcomes_cons, heq]
    exact (List.prefix_append r.calls calls).trans (ih ⟨s', r.calls ++ calls⟩)

/-- A dry run asks for one tag after the other and for nothing else. -/
theorem outcomes_asked_dry (targets : List WantedTag) (r : Recorded σ) :
    (outcomes host.recorded template version true targets r).2.calls.map
        (fun call => call.2.asked?) =
      r.calls.map (fun call => call.2.asked?) ++
        targets.map fun t => some (t.repository, version) := by
  induction targets generalizing r with
  | nil => exact (List.append_nil _).symm
  | cons t rest ih =>
    obtain ⟨answer, calls, s', heq, hensured⟩ :=
      ensure_recorded host template t.repository t.sha version true r
    rw [outcomes_cons, ih, heq, List.map_append, hensured.asked_dry, List.append_assoc]
    rfl

/-- If a dry run and a real run find the same tags, each outcome of the one foretells that of the
other. -/
theorem outcomes_foretold (targets : List WantedTag) (r r' : Recorded σ)
    (hbefore : readings r.calls = readings r'.calls)
    (hafter : readings (outcomes host.recorded template version true targets r).2.calls =
      readings (outcomes host.recorded template version false targets r').2.calls) :
    List.Forall₂ Foretells (outcomes host.recorded template version true targets r).1
      (outcomes host.recorded template version false targets r').1 := by
  induction targets generalizing r r' with
  | nil => exact .nil
  | cons t rest ih =>
    obtain ⟨answer, calls, s, hdry, hdryEnsured⟩ :=
      ensure_recorded host template t.repository t.sha version true r
    obtain ⟨answer', calls', s', hreal, hrealEnsured⟩ :=
      ensure_recorded host template t.repository t.sha version false r'
    simp only [outcomes_cons, hdry, hreal] at hafter ⊢
    -- The calls for the first target are the first in which the runs can part, one reading in each.
    have hfirst : readings calls = readings calls' := by
      obtain ⟨more, hmore⟩ :=
        outcomes_calls host template version true rest ⟨s, r.calls ++ calls⟩
      obtain ⟨more', hmore'⟩ :=
        outcomes_calls host template version false rest ⟨s', r'.calls ++ calls'⟩
      rw [← hmore, ← hmore'] at hafter
      simp only [readings_append, hbefore, List.append_assoc] at hafter
      have hlength : (readings calls).length = (readings calls').length := by
        rw [hdryEnsured.length_readings, hrealEnsured.length_readings]
      exact (List.append_inj (List.append_cancel_left hafter) hlength).1
    refine .cons (hdryEnsured.foretells hrealEnsured hfirst) (ih _ _ ?_ hafter)
    rw [readings_append, readings_append, hbefore, hfirst]

/-- A run in which no write is refused has no failures. -/
theorem outcomes_of_none_refused (targets : List WantedTag) (r : Recorded σ)
    (hnone : ∀ call ∈ (outcomes host.recorded template version dryRun targets r).2.calls,
      call.2.isRefused = false) :
    (outcomes host.recorded template version dryRun targets r).1.filterMap failure? = [] := by
  induction targets generalizing r with
  | nil => rfl
  | cons t rest ih =>
    obtain ⟨answer, calls, s', heq, hensured⟩ :=
      ensure_recorded host template t.repository t.sha version dryRun r
    simp only [outcomes_cons, heq] at hnone ⊢
    cases answer with
    | error failure =>
      obtain ⟨call, hmem, hrefused⟩ := hensured.exists_refused
      have hall := (outcomes_calls host template version dryRun rest ⟨s', r.calls ++ calls⟩).subset
        (List.mem_append_right r.calls hmem)
      rw [hnone call hall] at hrefused
      cases hrefused
    | ok outcome =>
      rw [List.filterMap_cons_none rfl]
      exact ih _ hnone

/-- On a host that finds tags steadily, what targets in different repositories find can be told
from the state at the start. -/
theorem outcomes_read_steadily {finds : σ → String → String → Bool}
    (steady : host.FindsSteadily finds) {targets : List WantedTag}
    (hnodup : (targets.map (·.repository)).Nodup) (r : Recorded σ) :
    readings (outcomes host.recorded template version dryRun targets r).2.calls =
      readings r.calls ++
        targets.map fun t => ((t.repository, version), finds r.state t.repository version) := by
  induction targets generalizing r with
  | nil => exact (List.append_nil _).symm
  | cons t rest ih =>
    obtain ⟨answer, calls, s', heq, hensured⟩ :=
      ensure_recorded host template t.repository t.sha version dryRun r
    obtain ⟨hreading, hothers⟩ := hensured.reads_steadily steady
    rw [List.map_cons, List.nodup_cons] at hnodup
    -- no other target is in the repository of the first, so none can see what was done there
    have hrest : rest.map (fun u => ((u.repository, version), finds s' u.repository version)) =
        rest.map fun u => ((u.repository, version), finds r.state u.repository version) := by
      refine List.map_congr_left fun u hu => ?_
      rw [hothers u.repository]
      rintro h
      exact hnodup.1 (h ▸ List.mem_map_of_mem hu)
    rw [outcomes_cons, ih hnodup.2, heq, readings_append, hreading, hrest, List.append_assoc]
    rfl

end Targets

/-! ## Versions -/

variable (host : TagHost σ) (template : String) (version : NamedVersion)

/-- A dry run and a real run of a version find the same tags on a host that finds tags steadily. -/
theorem ensureVersion_read_alike {finds : σ → String → String → Bool}
    (steady : host.FindsSteadily finds) (r : Recorded σ) :
    readings (ensureVersion host.recorded template true version r).2.calls =
      readings (ensureVersion host.recorded template false version r).2.calls := by
  have hnodup := TagPlan.nodup_repositories_ofVersion version
  rw [ensureVersion_eq, ensureVersion_eq, outcomes_read_steadily host _ _ _ steady hnodup,
    outcomes_read_steadily host _ _ _ steady hnodup]

/-- A dry run of a version asks once for the tag in each of its base repositories and for nothing
else. If a real run from the same state finds the same tags, as it does on every host that finds
tags steadily, the report on the dry run foretells that on the real run; and if that run is refused
no write, exactly what would be created is created, in order. -/
theorem dry_run_foretells (host : TagHost σ) (template : String) (version : NamedVersion) (s : σ) :
    let dry := ensureVersion host.recorded template true version ⟨s, []⟩
    let real := ensureVersion host.recorded template false version ⟨s, []⟩
    dry.1 = (ensureVersion host template true version s).1 ∧
      real.1 = (ensureVersion host template false version s).1 ∧
      dry.2.calls.map (fun call => call.2.asked?) = version.neededTags.map some ∧
      (∀ finds, host.FindsSteadily finds → readings dry.2.calls = readings real.2.calls) ∧
      (readings dry.2.calls = readings real.2.calls →
        dry.1.Foretells real.1 ∧
          ((∀ call ∈ real.2.calls, call.2.isRefused = false) →
            dry.1.wouldCreate = real.1.created)) := by
  intro dry real
  refine ⟨(follows_ensureVersion host template true version ⟨s, []⟩).1,
    (follows_ensureVersion host template false version ⟨s, []⟩).1, ?_,
    fun finds steady => ensureVersion_read_alike host template version steady ⟨s, []⟩, ?_⟩
  · simp only [dry, ensureVersion_eq]
    rw [outcomes_asked_dry, NamedVersion.neededTags, ← TagPlan.repositories_ofVersion,
      TagPlan.repositories, List.map_map, List.map_map]
    rfl
  · intro hsame
    simp only [dry, real, ensureVersion_eq] at hsame ⊢
    have hforetold := outcomes_foretold host template version.name _ _ _ rfl hsame
    refine ⟨TagReport.addAll_foretells hforetold ?_ _ _, fun hnone => ?_⟩
    · rw [map_fst_outcomes]
      exact TagPlan.nodup_repositories_ofVersion version
    · simp only [TagReport.addAll_eq, TagReport.addInvalid, TagReport.empty, List.nil_append]
      exact TagReport.wanting_of_foretold hforetold
        (outcomes_of_none_refused host _ _ _ _ _ hnone)

theorem shelf_findsSteadily :
    shelf.FindsSteadily fun s repository tag => decide ((repository, refName tag) ∈ s.refs) where
  tagRef_isOk s repository tag := by
    simp only [shelf]
    split <;> simp_all [Except.isOk, Except.toBool]
  tagRef s repository tag := by
    simp only [shelf]
    split <;> rfl
  createTagObject s repository tag message sha := by
    simp only [shelf]
    split <;> rfl
  createRef s {repository repository' ref tag} sha another := by
    simp only [shelf]
    split
    · rfl
    · simp [another.symm]

/-- A version that draws on three repositories and on one that cannot be read. -/
def threeRepositories : NamedVersion :=
  ⟨"1.0", [⟨"o/a", "c1", none⟩, ⟨"bad", "c0", none⟩, ⟨"o/b", "c2", none⟩, ⟨"o/b/part", "c3", none⟩,
    ⟨"o/c", "c4", none⟩]⟩

/-- The first tag is there, the object of the second is refused and the third is made. A second run
is refused nothing. -/
theorem dry_run_foretells_refusal :
    let dry := ensureVersion shelf.recorded "" true threeRepositories
      ⟨⟨[("o/a", "refs/tags/1.0")], [true]⟩, []⟩
    let real := ensureVersion shelf.recorded "" false threeRepositories
      ⟨⟨[("o/a", "refs/tags/1.0")], [true]⟩, []⟩
    let dry' := ensureVersion shelf.recorded "" true threeRepositories
      ⟨⟨[("o/a", "refs/tags/1.0")], []⟩, []⟩
    let real' := ensureVersion shelf.recorded "" false threeRepositories
      ⟨⟨[("o/a", "refs/tags/1.0")], []⟩, []⟩
    (dry.1.wouldCreate = ["o/b", "o/c"] ∧ real.1.created = ["o/c"] ∧ real.1.failed.length = 2) ∧
      dry.1.Foretells real.1 ∧ real'.1.created = ["o/b", "o/c"] ∧
      dry'.1.wouldCreate = real'.1.created := by
  -- the runs are put in place of their names: what follows is about them word for word
  dsimp only
  obtain ⟨-, -, -, hsteady, hforetells⟩ := dry_run_foretells shelf "" threeRepositories
    ⟨[("o/a", "refs/tags/1.0")], [true]⟩
  obtain ⟨-, -, -, hsteady', hforetells'⟩ := dry_run_foretells shelf "" threeRepositories
    ⟨[("o/a", "refs/tags/1.0")], []⟩
  exact ⟨by decide +kernel, (hforetells (hsteady _ shelf_findsSteadily)).1, by decide +kernel,
    (hforetells' (hsteady' _ shelf_findsSteadily)).2 (by decide +kernel)⟩

end Tag

end ReleaseCandidates
