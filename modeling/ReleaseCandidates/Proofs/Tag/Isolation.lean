import ReleaseCandidates.Proofs.Tag.Calls
import ReleaseCandidates.Proofs.Tag.Outcomes

set_option autoImplicit false

/-! # Repositories that have nothing to do with each other

A host keeps its repositories apart if the state of it falls into parts, one for each repository,
and a question about a repository looks at no other part than the repository's own and changes no
other. A host that answers by the calls made to it so far keeps them apart if it goes by those about
the repository only (`AnsweringRule.host_keepsApart`).

On such a host all that reconciling a version does about a base repository could be done first and
alone (`Tag.outcomes_about`). So it does not matter what else is in the version, nor whether that
fails. That calls are written down changes nothing about it: the calls about a repository are a part
of the state that belongs to it.

Main statement: `Tag.ensureVersion_isolated`. -/

namespace ReleaseCandidates

variable {σ ρ : Type} {part : σ → String → ρ}

/-! ## Acting on one repository -/

/-- A computation looks at no part of the state but that of a repository, and changes no other. -/
structure ActsOn {α : Type} (part : σ → String → ρ) (repository : String) (x : StateM σ α) :
    Prop where
  answer {s s' : σ} (same : part s repository = part s' repository) : (x s).1 = (x s').1
  own {s s' : σ} (same : part s repository = part s' repository) :
    part (x s).2 repository = part (x s').2 repository
  others (s : σ) {other : String} (another : other ≠ repository) : part (x s).2 other = part s other

namespace ActsOn

variable {α β : Type} {repository : String}

theorem pure (a : α) : ActsOn part repository (Pure.pure a : StateM σ α) :=
  ⟨fun _ => rfl, fun same => same, fun _ _ _ => rfl⟩

theorem bind {x : StateM σ α} {f : α → StateM σ β} (hx : ActsOn part repository x)
    (hf : ∀ a, ActsOn part repository (f a)) : ActsOn part repository (x >>= f) := by
  refine ⟨fun {s s'} same => ?_, fun {s s'} same => ?_, fun s other another => ?_⟩
  · show (f (x s).1 (x s).2).1 = (f (x s').1 (x s').2).1
    rw [hx.answer same]
    exact (hf _).answer (hx.own same)
  · show part (f (x s).1 (x s).2).2 repository = part (f (x s').1 (x s').2).2 repository
    rw [hx.answer same]
    exact (hf _).own (hx.own same)
  · show part (f (x s).1 (x s).2).2 other = part s other
    rw [(hf _).others _ another, hx.others s another]

end ActsOn

/-- A host keeps its repositories apart: a question about one has to do with its own part of the
state only. -/
structure TagHost.KeepsApart (host : TagHost σ) (part : σ → String → ρ) : Prop where
  tagRef (repository tag : String) : ActsOn part repository (host.tagRef repository tag)
  createTagObject (repository tag message sha : String) :
    ActsOn part repository (host.createTagObject repository tag message sha)
  createRef (repository refName sha : String) :
    ActsOn part repository (host.createRef repository refName sha)

/-! ## Calls about one repository -/

/-- The repository that a call is about. -/
def TagCall.repository : TagCall → String
  | .tagRef repository .. | .createTagObject repository .. | .createRef repository .. => repository

/-- The calls about a repository. -/
def callsAbout (repository : String) (calls : List TagCall) : List TagCall :=
  calls.filter (·.repository == repository)

theorem callsAbout_concat {call : TagCall} {repository : String} (h : call.repository = repository)
    (calls : List TagCall) :
    callsAbout repository (calls ++ [call]) = callsAbout repository calls ++ [call] := by
  simp [callsAbout, h]

theorem callsAbout_concat_of_ne {call : TagCall} {repository other : String}
    (h : call.repository = repository) (another : other ≠ repository) (calls : List TagCall) :
    callsAbout other (calls ++ [call]) = callsAbout other calls := by
  simp [callsAbout, h, another.symm]

/-- The part of a repository where calls are written down: its part of the state, and the calls
about it. -/
def Recorded.partOf (part : σ → String → ρ) (r : Recorded σ) (repository : String) :
    ρ × List TagCall :=
  (part r.state repository, callsAbout repository (r.calls.map Prod.snd))

theorem Recorded.partOf_ask {α : Type} (part : σ → String → ρ) (question : StateM σ α)
    (call : α → TagCall) (r : Recorded σ) (repository : String) :
    Recorded.partOf part (Recorded.ask question call r).2 repository =
      (part (question r.state).2 repository,
        callsAbout repository (r.calls.map Prod.snd ++ [call (question r.state).1])) := by
  show (_, callsAbout repository ((r.calls ++ [(r.state, call _)]).map Prod.snd)) = _
  rw [List.map_append]
  rfl

theorem ActsOn.ask {α : Type} {repository : String} {question : StateM σ α} {call : α → TagCall}
    (h : ActsOn part repository question) (hcall : ∀ a, (call a).repository = repository) :
    ActsOn (Recorded.partOf part) repository (Recorded.ask question call) := by
  refine ⟨fun {r r'} same => ?_, fun {r r'} same => ?_, fun r other another => ?_⟩
  · exact h.answer (Prod.mk.inj same).1
  · obtain ⟨hpart, hcalls⟩ := Prod.mk.inj same
    rw [Recorded.partOf_ask, Recorded.partOf_ask, callsAbout_concat (hcall _),
      callsAbout_concat (hcall _), h.own hpart, h.answer hpart, hcalls]
  · rw [Recorded.partOf_ask, callsAbout_concat_of_ne (hcall _) another, h.others r.state another]
    rfl

/-- Writing down calls leaves repositories apart. -/
theorem TagHost.KeepsApart.recorded {host : TagHost σ} (h : host.KeepsApart part) :
    host.recorded.KeepsApart (Recorded.partOf part) where
  tagRef repository tag := (h.tagRef repository tag).ask fun _ => rfl
  createTagObject repository tag message sha :=
    (h.createTagObject repository tag message sha).ask fun _ => rfl
  createRef repository refName sha := (h.createRef repository refName sha).ask fun _ => rfl

/-! ## Hosts that answer by the calls made to them -/

/-- What is answered to a question after some calls about the same repository. -/
structure AnsweringRule where
  tagRef (before : List TagCall) (repository tag : String) : Except Failure String
  createTagObject (before : List TagCall) (repository tag message sha : String) :
    Except Failure String
  createRef (before : List TagCall) (repository refName sha : String) : Except Failure Unit

/-- Answers by the calls made about a repository so far, and remembers the call. -/
def answering {α : Type} (repository : String) (reply : List TagCall → α) (call : α → TagCall) :
    StateM (List TagCall) α := fun calls =>
  let answer := reply (callsAbout repository calls)
  (answer, calls ++ [call answer])

/-- The host that answers by a rule. -/
def AnsweringRule.host (rule : AnsweringRule) : TagHost (List TagCall) where
  tagRef repository tag :=
    answering repository (fun before => rule.tagRef before repository tag)
      (.tagRef repository tag)
  createTagObject repository tag message sha :=
    answering repository (fun before => rule.createTagObject before repository tag message sha)
      (.createTagObject repository tag message sha)
  createRef repository refName sha :=
    answering repository (fun before => rule.createRef before repository refName sha)
      (.createRef repository refName sha)

theorem ActsOn.answering {α : Type} {repository : String} (reply : List TagCall → α)
    (call : α → TagCall) (hcall : ∀ a, (call a).repository = repository) :
    ActsOn (fun calls repository => callsAbout repository calls) repository
      (answering repository reply call) := by
  refine ⟨fun {calls calls'} same => ?_, fun {calls calls'} same => ?_,
    fun calls other another => ?_⟩
  · exact congrArg reply same
  · show callsAbout repository (calls ++ _) = callsAbout repository (calls' ++ _)
    rw [callsAbout_concat (hcall _), callsAbout_concat (hcall _), same]
  · exact callsAbout_concat_of_ne (hcall _) another calls

/-- Whoever answers by the calls about the repository keeps repositories apart. -/
theorem AnsweringRule.host_keepsApart (rule : AnsweringRule) :
    rule.host.KeepsApart fun calls repository => callsAbout repository calls where
  tagRef repository tag :=
    .answering (fun before => rule.tagRef before repository tag) (.tagRef repository tag)
      fun _ => rfl
  createTagObject repository tag message sha :=
    .answering (fun before => rule.createTagObject before repository tag message sha)
      (.createTagObject repository tag message sha) fun _ => rfl
  createRef repository refName sha :=
    .answering (fun before => rule.createRef before repository refName sha)
      (.createRef repository refName sha) fun _ => rfl

namespace Tag

variable {host : TagHost σ}

/-! ## Making sure of a tag -/

section Ensure

variable (hapart : host.KeepsApart part) (template repository sha version : String) (dryRun : Bool)

include hapart

theorem isThere_actsOn : ActsOn part repository (isThere host repository version) :=
  (hapart.tagRef repository version).bind fun answer => by
    cases answer <;> exact .pure _

theorem create_actsOn :
    ActsOn part repository (create host template repository sha version) :=
  (hapart.createTagObject _ _ _ _).bind fun answer => by
    cases answer with
    | error failure => exact .pure _
    | ok object => exact hapart.createRef _ _ _

theorem ensure_actsOn :
    ActsOn part repository (ensure host template repository sha version dryRun) := by
  refine (isThere_actsOn hapart repository version).bind fun there => ?_
  cases there with
  | true => exact .pure _
  | false =>
    cases dryRun with
    | true => exact .pure _
    | false =>
      refine (create_actsOn hapart template repository sha version).bind fun answer => ?_
      cases answer <;> exact .pure _

end Ensure

/-! ## Targets and versions -/

section Targets

variable (hapart : host.KeepsApart part) (template version : String) (dryRun : Bool)

include hapart

/-- Targets in other repositories leave no trace in a repository. -/
theorem outcomes_of_not_mem {targets : List WantedTag} {base : String}
    (h : ∀ t ∈ targets, t.repository ≠ base) (s : σ) :
    (outcomes host template version dryRun targets s).1.filter (·.1 == base) = [] ∧
      part (outcomes host template version dryRun targets s).2 base = part s base := by
  induction targets generalizing s with
  | nil => exact ⟨rfl, rfl⟩
  | cons t rest ih =>
    obtain ⟨hhere, hrest⟩ := List.forall_mem_cons.1 h
    obtain ⟨hnone, hpart⟩ :=
      ih hrest (ensure host template t.repository t.sha version dryRun s).2
    have hfirst := ensure_actsOn hapart template t.repository t.sha version dryRun
    rw [outcomes_cons, List.filter_cons_of_neg (by simpa using hhere), hpart]
    exact ⟨hnone, hfirst.others s (Ne.symm hhere)⟩

/-- The target in a repository comes to what it would come to first and alone. -/
theorem outcomes_about {targets : List WantedTag} (hnodup : (targets.map (·.repository)).Nodup)
    {t : WantedTag} (h : t ∈ targets) (s : σ) :
    (outcomes host template version dryRun targets s).1.filter (·.1 == t.repository) =
        [(t.repository, (ensure host template t.repository t.sha version dryRun s).1)] ∧
      part (outcomes host template version dryRun targets s).2 t.repository =
        part (ensure host template t.repository t.sha version dryRun s).2 t.repository := by
  induction targets generalizing s with
  | nil => cases h
  | cons first rest ih =>
    obtain ⟨hnew, hnodup'⟩ := List.nodup_cons.1 hnodup
    rw [outcomes_cons]
    rcases List.mem_cons.1 h with rfl | hmem
    · have hothers : ∀ t' ∈ rest, t'.repository ≠ t.repository :=
        fun t' ht' heq => hnew (List.mem_map.2 ⟨t', ht', heq⟩)
      obtain ⟨hnone, hpart⟩ := outcomes_of_not_mem hapart template version dryRun hothers
        (ensure host template t.repository t.sha version dryRun s).2
      rw [List.filter_cons_of_pos (by simp), hnone, hpart]
      exact ⟨rfl, rfl⟩
    · have hother : t.repository ≠ first.repository :=
        fun heq => hnew (List.mem_map.2 ⟨t, hmem, heq⟩)
      obtain ⟨hone, hpart⟩ := ih hnodup' hmem
        (ensure host template first.repository first.sha version dryRun s).2
      -- the target finds its own part as if nothing had been done before
      have hsame := (ensure_actsOn hapart template first.repository first.sha version dryRun).others
        s hother
      have hthis := ensure_actsOn hapart template t.repository t.sha version dryRun
      rw [List.filter_cons_of_neg (by simpa using hother.symm), hone, hpart, hthis.answer hsame]
      exact ⟨rfl, hthis.own hsame⟩

end Targets

/-- **Reconciling a version does to a base repository what it would do for that alone.** On a host
that keeps repositories apart, let two versions have the same name and the same first ref for a base
repository, or no component of it, and let them find the repository's part of the state the same.
Then the reports say the same of the repository, components that cannot be read aside, and leave the
repository's part the same. -/
theorem ensureVersion_isolated (hapart : host.KeepsApart part) (template : String) (dryRun : Bool)
    {version version' : NamedVersion} {base : String} {s s' : σ}
    (hname : version.name = version'.name)
    (hfirst : version.firstRef? base = version'.firstRef? base)
    (hsame : part s base = part s' base) :
    (ensureVersion host template dryRun version s).1.about version.invalid.length base =
        (ensureVersion host template dryRun version' s').1.about version'.invalid.length base ∧
      part (ensureVersion host template dryRun version s).2 base =
        part (ensureVersion host template dryRun version' s').2 base := by
  rw [ensureVersion_eq, ensureVersion_eq, TagReport.about_addAll, TagReport.about_addAll, hname]
  have hfind := TagPlan.targetFor?_ofVersion version base
  have hfind' := TagPlan.targetFor?_ofVersion version' base
  rw [← hfirst] at hfind'
  cases href : version.firstRef? base with
  | none =>
    rw [href] at hfind hfind'
    obtain ⟨hnone, hpart⟩ := outcomes_of_not_mem hapart template version'.name dryRun
      (TagPlan.targetFor?_eq_none hfind) s
    obtain ⟨hnone', hpart'⟩ := outcomes_of_not_mem hapart template version'.name dryRun
      (TagPlan.targetFor?_eq_none hfind') s'
    rw [hnone, hnone', hpart, hpart']
    exact ⟨rfl, hsame⟩
  | some ref =>
    rw [href] at hfind hfind'
    obtain ⟨hone, hpart⟩ := outcomes_about hapart template version'.name dryRun
      (TagPlan.nodup_repositories_ofVersion version) (List.mem_of_find?_eq_some hfind) s
    obtain ⟨hone', hpart'⟩ := outcomes_about hapart template version'.name dryRun
      (TagPlan.nodup_repositories_ofVersion version') (List.mem_of_find?_eq_some hfind') s'
    have hensure := ensure_actsOn hapart template base ref version'.name dryRun
    rw [hone, hone', hpart, hpart', hensure.answer hsame]
    exact ⟨rfl, hensure.own hsame⟩

/-- And the same calls are made about the repository, with the same answers. -/
theorem calls_isolated (hapart : host.KeepsApart part) (template : String) (dryRun : Bool)
    {version version' : NamedVersion} {base : String} {s s' : σ}
    (hname : version.name = version'.name)
    (hfirst : version.firstRef? base = version'.firstRef? base)
    (hsame : part s base = part s' base) :
    callsAbout base
        ((ensureVersion host.recorded template dryRun version ⟨s, []⟩).2.calls.map Prod.snd) =
      callsAbout base
        ((ensureVersion host.recorded template dryRun version' ⟨s', []⟩).2.calls.map Prod.snd) := by
  have hstart : Recorded.partOf part ⟨s, []⟩ base = Recorded.partOf part ⟨s', []⟩ base := by
    simp only [Recorded.partOf, hsame]
  obtain ⟨-, hpart⟩ :=
    ensureVersion_isolated hapart.recorded template dryRun hname hfirst hstart
  exact (Prod.mk.inj hpart).2

end Tag

end ReleaseCandidates
