import ReleaseCandidates.Proofs.Tag.Calls
import ReleaseCandidates.Proofs.Tag.Outcomes

set_option autoImplicit false

/-! # The tags that are asked for

Reconciling versions asks a host for each tag that one of them needs, whatever becomes of the tags
before it (`Tag.ensureVersions_asks`). -/

namespace ReleaseCandidates

variable {σ : Type}

/-- The tags that a version needs: one of its name in each base repository. -/
def NamedVersion.neededTags (version : NamedVersion) : List (String × String) :=
  version.bases.eraseDups.map fun base => (base, version.name)

/-- The tag that a call asks for, with its repository. -/
def TagCall.asked? : TagCall → Option (String × String)
  | .tagRef repository tag _ => some (repository, tag)
  | _ => none

/-- The tags that are asked for in calls, in order. -/
def askedTags (calls : List (σ × TagCall)) : List (String × String) :=
  calls.filterMap fun call => call.2.asked?

theorem askedTags_append (first second : List (σ × TagCall)) :
    askedTags (first ++ second) = askedTags first ++ askedTags second :=
  List.filterMap_append

namespace Tag

variable (host : TagHost σ) (template : String) (dryRun : Bool)

theorem ensure_asks (repository sha version : String) (r : Recorded σ) :
    askedTags (ensure host.recorded template repository sha version dryRun r).2.calls =
      askedTags r.calls ++ [(repository, version)] := by
  obtain ⟨answer, calls, s', heq, hensured⟩ :=
    ensure_recorded host template repository sha version dryRun r
  rw [heq, askedTags_append]
  cases hensured <;> rfl

theorem outcomes_asks (version : String) (targets : List WantedTag) (r : Recorded σ) :
    askedTags (outcomes host.recorded template version dryRun targets r).2.calls =
      askedTags r.calls ++ targets.map fun t => (t.repository, version) := by
  induction targets generalizing r with
  | nil => exact (List.append_nil _).symm
  | cons t rest ih =>
    rw [outcomes_cons, ih, ensure_asks, List.append_assoc]
    rfl

theorem ensureVersion_asks (version : NamedVersion) (r : Recorded σ) :
    askedTags (ensureVersion host.recorded template dryRun version r).2.calls =
      askedTags r.calls ++ version.neededTags := by
  rw [ensureVersion_eq, outcomes_asks, NamedVersion.neededTags, ← TagPlan.repositories_ofVersion,
    TagPlan.repositories, List.map_map]
  rfl

/-- Whatever fails, every tag that a version needs is asked for, once and in order. -/
theorem ensureVersions_asks (versions : List NamedVersion) (r : Recorded σ) :
    askedTags (ensureVersions host.recorded template dryRun versions r).2.calls =
      askedTags r.calls ++ versions.flatMap (·.neededTags) := by
  induction versions generalizing r with
  | nil => exact (List.append_nil _).symm
  | cons version rest ih =>
    rw [ensureVersions_cons, ih, ensureVersion_asks, List.append_assoc]
    rfl

end Tag

end ReleaseCandidates
