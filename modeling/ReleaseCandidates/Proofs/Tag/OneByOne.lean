import ReleaseCandidates.Proofs.Tag.AtMostOnce
import ReleaseCandidates.Proofs.Tag.Outcomes
import ReleaseCandidates.Proofs.Tag.Roles

set_option autoImplicit false

/-! # Versions reconciled one component at a time

A whole version can be reconciled with nothing but the way to reconcile one component
(`Tag.reconcile`): by doing so for the first component of each base repository, in order. A host
cannot tell the difference (`Tag.outcomes_one_by_one`), and the report on the version can be read off
the answers.

Main statement: `Tag.ensureVersion_one_by_one`. -/

namespace ReleaseCandidates

/-! ## First components -/

/-- Whether a component can be read and no earlier one has the same base repository. -/
def VersionPart.isFirst (earlier : List VersionPart) (part : VersionPart) : Bool :=
  part.base?.isSome && earlier.all fun other => other.base? != part.base?

/-- The first components of base repositories that turn up behind earlier components. -/
def firstPartsAfter (earlier : List VersionPart) : List VersionPart → List VersionPart
  | [] => []
  | part :: later =>
    if part.isFirst earlier then part :: firstPartsAfter (earlier ++ [part]) later
    else firstPartsAfter (earlier ++ [part]) later

/-- The first component of each base repository. -/
def NamedVersion.firstParts (version : NamedVersion) : List VersionPart :=
  firstPartsAfter [] version.components

/-- A target is the one that a component asks for. -/
structure WantedTag.IsFor (part : VersionPart) (t : WantedTag) : Prop where
  base : part.base? = some t.repository
  ref : part.ref = t.sha

namespace TagPlan

variable {earlier : List VersionPart} {part : VersionPart}

/-- The first component of a base repository gives rise to the target for it. -/
theorem exists_target_of_isFirst (h : part.isFirst earlier = true) :
    ∃ t, (part.roleAfter earlier).target? = some t ∧ t.IsFor part := by
  rw [VersionPart.isFirst, Bool.and_eq_true, Option.isSome_iff_exists, List.all_eq_true] at h
  obtain ⟨⟨base, hbase⟩, hothers⟩ := h
  have hnew : keptRef? earlier base = none := by
    refine keptRef?_eq_none_iff.2 fun other hother => ?_
    simpa [hbase] using hothers other hother
  exact ⟨⟨base, part.ref⟩, by rw [VersionPart.roleAfter_of_new hbase hnew]; rfl, hbase, rfl⟩

/-- No other component gives rise to a target. -/
theorem no_target_of_not_isFirst (h : part.isFirst earlier = false) :
    (part.roleAfter earlier).target? = none := by
  rcases hbase : RepositoryId.baseOf part.repository with problem | base
  · rw [VersionPart.roleAfter_of_unreadable hbase]
    rfl
  · have readable := VersionPart.base?_eq_some_iff.2 hbase
    rcases hkept : keptRef? earlier base with _ | kept
    · refine absurd h ?_
      simpa [VersionPart.isFirst, readable] using keptRef?_eq_none_iff.1 hkept
    · rw [VersionPart.roleAfter_of_kept readable hkept]
      split <;> rfl

/-- Components behind others add the targets of those that are the first of a base repository. -/
theorem targets_parts (earlier later : List VersionPart) :
    ∃ targets, ((earlier ++ later).foldl add empty).targets =
        (earlier.foldl add empty).targets ++ targets ∧
      List.Forall₂ (fun part t => t.IsFor part) (firstPartsAfter earlier later) targets := by
  -- the components before decide whether the next is a first one, so they vary with the induction
  induction later generalizing earlier with
  | nil => exact ⟨[], by rw [List.append_nil, List.append_nil], .nil⟩
  | cons part later ih =>
    obtain ⟨targets, htargets, hfor⟩ := ih (earlier ++ [part])
    obtain ⟨roles, hplan, -⟩ := exists_roles earlier
    rw [List.append_assoc, List.singleton_append, List.foldl_concat, add_eq earlier part hplan,
      ofRoles_concat, ← hplan, List.append_assoc] at htargets
    rw [firstPartsAfter]
    cases hfirst : part.isFirst earlier with
    | true =>
      obtain ⟨t, htarget, hpart⟩ := exists_target_of_isFirst hfirst
      exact ⟨t :: targets, by rw [htargets, htarget]; rfl, .cons hpart hfor⟩
    | false =>
      exact ⟨targets, by rw [htargets, no_target_of_not_isFirst hfirst]; rfl, hfor⟩

/-- The targets of a plan are those that the first components of the base repositories ask for. -/
theorem targets_ofVersion (version : NamedVersion) :
    List.Forall₂ (fun part t => t.IsFor part) version.firstParts (ofVersion version).targets := by
  obtain ⟨targets, htargets, hfor⟩ := targets_parts [] version.components
  exact htargets ▸ hfor

/-- The components that are the first of a base repository are one for each base repository. -/
theorem bases_firstParts (version : NamedVersion) :
    version.firstParts.map VersionPart.base? = version.bases.eraseDups.map some := by
  have hfor := targets_ofVersion version
  rw [← repositories_ofVersion, repositories, List.map_map]
  generalize version.firstParts = parts, (ofVersion version).targets = targets at hfor ⊢
  induction hfor with
  | nil => rfl
  | cons hpart _ ih =>
    rw [List.map_cons, List.map_cons, ih, hpart.base]
    rfl

end TagPlan

/-! ## Answers and outcomes -/

/-- An answer to the request for the tag of a component, and what became of the tag in its base
repository. -/
inductive RepositoryOutcome.IsAnswer (part : VersionPart) :
    Except Failure Bool → RepositoryOutcome → Prop where
  | ensured {base : String} (readable : part.base? = some base) :
      IsAnswer part (.ok true) (base, .ok .existing)
  | created {base : String} (readable : part.base? = some base) :
      IsAnswer part (.ok true) (base, .ok .created)
  | failed {base : String} (readable : part.base? = some base) (failure : Failure) :
      IsAnswer part (.error failure) (base, .error failure)

theorem RepositoryOutcome.IsAnswer.readable {part : VersionPart} {answer : Except Failure Bool}
    {outcome : RepositoryOutcome} (h : IsAnswer part answer outcome) :
    part.base? = some outcome.1 := by
  cases h <;> assumption

namespace TagReport

/-- The report with just the one entry for a base repository that an answer for a component of it
calls for. -/
inductive IsEntryFor (version base : String) : Except Failure Bool → TagReport → Prop where
  | ensured : IsEntryFor version base (.ok true) { empty version with ensured := [base] }
  | created : IsEntryFor version base (.ok true) { empty version with created := [base] }
  | failed (failure : Failure) : IsEntryFor version base (.error failure)
      { empty version with failed := [(base, failure.summary)] }

section Entry

open RepositoryOutcome (IsAnswer)

variable {outcomes : List RepositoryOutcome} {outcome : RepositoryOutcome}

theorem filter_repository_of_mem (hnodup : (outcomes.map Prod.fst).Nodup) (h : outcome ∈ outcomes) :
    outcomes.filter (·.1 == outcome.1) = [outcome] := by
  induction outcomes with
  | nil => cases h
  | cons first rest ih =>
    obtain ⟨hnew, hrest⟩ := List.nodup_cons.1 hnodup
    rcases List.mem_cons.1 h with rfl | hmem
    · have hothers : rest.filter (·.1 == outcome.1) = [] := by
        refine List.filter_eq_nil_iff.2 fun other hother hsame => hnew ?_
        exact List.mem_map.2 ⟨other, hother, beq_iff_eq.1 hsame⟩
      rw [List.filter_cons_of_pos (by simp), hothers]
    · have hother : first.1 ≠ outcome.1 := fun hsame => hnew (List.mem_map.2 ⟨_, hmem, hsame.symm⟩)
      rw [List.filter_cons_of_neg (by simpa using hother), ih hrest hmem]

/-- The one outcome for a repository makes the one entry for it. -/
theorem about_of_isAnswer (hnodup : (outcomes.map Prod.fst).Nodup) (hmem : outcome ∈ outcomes)
    {part : VersionPart} {answer : Except Failure Bool} (h : IsAnswer part answer outcome)
    (version : String) (invalid : List (String × Failure)) :
    IsEntryFor version outcome.1 answer
      ((((empty version).addInvalid invalid).addAll outcomes).about invalid.length outcome.1) := by
  rw [about_addAll, filter_repository_of_mem hnodup hmem]
  cases h with
  | ensured => exact .ensured
  | created => exact .created
  | failed _ failure => exact .failed failure

end Entry

end TagReport

namespace Tag

open RepositoryOutcome (IsAnswer)

variable {σ : Type}

/-- Reconciles components each on its own; one that fails does not stop the others. -/
def reconcileEach (host : TagHost σ) (template version : String) :
    List VersionPart → StateM σ (List (VersionPart × Except Failure Bool))
  | [] => return []
  | part :: rest => do
    let answer ← reconcile host template part.repository part.ref version
    let answers ← reconcileEach host template version rest
    return (part, answer) :: answers

section OneByOne

variable (host : TagHost σ) (template version : String)

theorem reconcileEach_cons (part : VersionPart) (rest : List VersionPart) (s : σ) :
    reconcileEach host template version (part :: rest) s =
      ((part, (reconcile host template part.repository part.ref version s).1) ::
          (reconcileEach host template version rest
            (reconcile host template part.repository part.ref version s).2).1,
        (reconcileEach host template version rest
          (reconcile host template part.repository part.ref version s).2).2) :=
  rfl

theorem map_fst_reconcileEach (parts : List VersionPart) (s : σ) :
    (reconcileEach host template version parts s).1.map Prod.fst = parts := by
  induction parts generalizing s with
  | nil => rfl
  | cons part rest ih => rw [reconcileEach_cons, List.map_cons, ih]

theorem follows_reconcileEach (parts : List VersionPart) :
    Follows (reconcileEach host.recorded template version parts)
      (reconcileEach host template version parts) := by
  induction parts with
  | nil => exact .pure _
  | cons part rest ih =>
    exact (follows_reconcile host template part.repository part.ref version).bind fun _ =>
      ih.bind fun _ => .pure _

/-- Reconciling a component comes to making sure of the tag that it asks for. -/
theorem reconcile_target {part : VersionPart} {t : WantedTag} (h : t.IsFor part) (r : Recorded σ) :
    (reconcile host.recorded template part.repository part.ref version r).2 =
        (ensure host.recorded template t.repository t.sha version false r).2 ∧
      IsAnswer part (reconcile host.recorded template part.repository part.ref version r).1
        (t.repository, (ensure host.recorded template t.repository t.sha version false r).1) := by
  obtain ⟨hbase, href⟩ := h
  rw [reconcile_of_ok _ _ _ _ (VersionPart.base?_eq_some_iff.1 hbase), href]
  refine ⟨rfl, ?_⟩
  obtain ⟨answer, calls, s', heq, hensured⟩ :=
    ensure_recorded host template t.repository t.sha version false r
  rw [heq]
  cases hensured with
  | existing => exact .ensured hbase
  | wanting _ dry => cases dry -- this is no dry run
  | objectRefused => exact .failed hbase _
  | @refAsked _ _ made =>
    cases made with
    | error failure => exact .failed hbase failure
    | ok => exact .created hbase

/-- Working through targets asks a host for the same as reconciling the components that ask for them
one by one, and the answers tell what became of the targets. -/
theorem outcomes_one_by_one {parts : List VersionPart} {targets : List WantedTag}
    (h : List.Forall₂ (fun part t => t.IsFor part) parts targets) (r : Recorded σ) :
    (outcomes host.recorded template version false targets r).2 =
        (reconcileEach host.recorded template version parts r).2 ∧
      List.Forall₂ (fun entry outcome => IsAnswer entry.1 entry.2 outcome)
        (reconcileEach host.recorded template version parts r).1
        (outcomes host.recorded template version false targets r).1 := by
  induction h generalizing r with
  | nil => exact ⟨rfl, .nil⟩
  | @cons part t rest targets hpart _ ih =>
    obtain ⟨hstate, hanswer⟩ := reconcile_target host template version hpart r
    obtain ⟨hcalls, hanswers⟩ := ih (ensure host.recorded template t.repository t.sha version false r).2
    rw [outcomes_cons, reconcileEach_cons, hstate]
    exact ⟨hcalls, .cons hanswer hanswers⟩

end OneByOne

/-- **A version is reconciled as its first components are one by one.** A host is asked the same
questions, in the same states, and is left in the same state, as if the first component of each base
repository had been reconciled on its own, in order, and nothing else had been done. Each of these
components has one answer, and the one entry that the report has for its base repository, behind those
for the components that cannot be read, is what that answer calls for: a failed one, with the reason,
or one that says that the tag was there or has been made. -/
theorem ensureVersion_one_by_one (host : TagHost σ) (template : String) (version : NamedVersion)
    (s : σ) :
    let whole := ensureVersion host.recorded template false version ⟨s, []⟩
    let each := reconcileEach host.recorded template version.name version.firstParts ⟨s, []⟩
    whole.1 = (ensureVersion host template false version s).1 ∧
      each.1 = (reconcileEach host template version.name version.firstParts s).1 ∧
      whole.2 = each.2 ∧ each.1.map Prod.fst = version.firstParts ∧
      version.firstParts.map VersionPart.base? = version.bases.eraseDups.map some ∧
      ∀ part answer, (part, answer) ∈ each.1 → ∃ base, part.base? = some base ∧
        TagReport.IsEntryFor version.name base answer
          (whole.1.about version.invalid.length base) := by
  intro whole each
  have hfor := TagPlan.targets_ofVersion version
  obtain ⟨hcalls, hanswers⟩ := outcomes_one_by_one host template version.name hfor ⟨s, []⟩
  refine ⟨(follows_ensureVersion host template false version ⟨s, []⟩).1,
    (follows_reconcileEach host template version.name version.firstParts ⟨s, []⟩).1, ?_,
    map_fst_reconcileEach _ _ _ _ _, TagPlan.bases_firstParts version, ?_⟩
  · simp only [whole, ensureVersion_eq]
    exact hcalls
  · intro part answer hmem
    -- the outcome at the place of the answer is the one that the answer is about
    obtain ⟨i, hi, hentry⟩ := List.mem_iff_getElem.1 hmem
    have hi' := hanswers.length_eq ▸ hi
    have hanswer := hanswers.get hi hi'
    rw [List.get_eq_getElem, hentry] at hanswer
    refine ⟨_, hanswer.readable, ?_⟩
    simp only [whole, ensureVersion_eq]
    refine TagReport.about_of_isAnswer ?_ (List.get_mem _ _) hanswer _ _
    rw [map_fst_outcomes]
    exact TagPlan.nodup_repositories_ofVersion version

/-- Of five components two are the first of a base repository. The ref of the one is refused, so
that its repository fails, and the tag of the other is made. -/
theorem ensureVersion_one_by_one_after_refusal :
    let whole := ensureVersion shelf.recorded "" false TagPlan.everyRole ⟨⟨[], [false, true]⟩, []⟩
    let each := reconcileEach shelf.recorded "" "1.0"
      [⟨"https://forge/o/a", "c1", none⟩, ⟨"o/b", "c2", none⟩] ⟨⟨[], [false, true]⟩, []⟩
    let failure := Failure.forgeStatus "422 Unprocessable Entity" "refs/tags/1.0" ""
    whole.1.created = ["o/b"] ∧ whole.2.calls.length = 6 ∧ whole.2 = each.2 ∧
      (⟨"https://forge/o/a", "c1", none⟩, .error failure) ∈ each.1 ∧
      TagReport.IsEntryFor "1.0" "o/a" (.error failure)
        (whole.1.about TagPlan.everyRole.invalid.length "o/a") := by
  intro whole each failure
  obtain ⟨-, -, hcalls, -, -, hentries⟩ :=
    ensureVersion_one_by_one shelf "" TagPlan.everyRole ⟨[], [false, true]⟩
  have hfirst : TagPlan.everyRole.firstParts =
      [⟨"https://forge/o/a", "c1", none⟩, ⟨"o/b", "c2", none⟩] := by decide +kernel
  rw [hfirst] at hcalls hentries
  have hmem : (⟨"https://forge/o/a", "c1", none⟩, .error failure) ∈ each.1 := by decide +kernel
  obtain ⟨base, hbase, hentry⟩ := hentries _ _ hmem
  obtain rfl : base = "o/a" := Option.some.inj (hbase.symm.trans (by decide +kernel))
  exact ⟨by decide +kernel, by decide +kernel, hcalls, hmem, hentry⟩

end Tag

end ReleaseCandidates
