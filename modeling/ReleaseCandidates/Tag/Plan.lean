import ReleaseCandidates.Failure
import ReleaseCandidates.NamedVersion

set_option autoImplicit false

/-! # Tag plans

A named version needs one tag in every base repository that its components come from. A plan groups
the components of a version by base repository: the first component of each gives the ref, later ones
that disagree are conflicts, and components without a readable repository stand apart. -/

namespace ReleaseCandidates

/-- One tag that has to exist. -/
structure WantedTag where
  repository : String
  sha : String
  deriving DecidableEq, Repr

/-- Two components of one version want different refs in the same repository. -/
structure RefClash where
  repository : String
  kept : String
  ignored : String
  deriving DecidableEq, Repr

/-- The tags that a version needs, and what stands in their way. -/
structure TagPlan where
  targets : List WantedTag
  conflicts : List RefClash
  /-- Repositories that could not be read, with the failure. -/
  invalid : List (String × Failure)
  deriving DecidableEq, Repr

namespace TagPlan

/-- The plan that needs nothing. -/
def empty : TagPlan := ⟨[], [], []⟩

/-- The target for a base repository. -/
def targetFor? (plan : TagPlan) (base : String) : Option WantedTag :=
  plan.targets.find? fun t => t.repository == base

/-- Adds what a component of a base repository needs. -/
def addRef (plan : TagPlan) (base ref : String) : TagPlan :=
  match plan.targetFor? base with
  | none => { plan with targets := plan.targets ++ [⟨base, ref⟩] }
  | some existing =>
    if existing.sha = ref then plan
    else { plan with conflicts := plan.conflicts ++ [⟨base, existing.sha, ref⟩] }

/-- Adds one component of the version. -/
def add (plan : TagPlan) (component : VersionPart) : TagPlan :=
  match RepositoryId.baseOf component.repository with
  | .ok base => plan.addRef base component.ref
  | .error problem =>
    { plan with invalid := plan.invalid ++
        [(component.repository, .identifier component.repository problem)] }

/-- The plan for a version. -/
def ofVersion (version : NamedVersion) : TagPlan :=
  version.components.foldl add empty

end TagPlan

end ReleaseCandidates
