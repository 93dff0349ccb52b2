import ReleaseCandidates.Tag.Report

set_option autoImplicit false

/-! # Reconciling tags

A named version is made durable by a tag of its name in every base repository that it draws on. A
tag that is there is never moved or made again; one that is missing is made in two steps, first the
annotated tag object and then the ref that names it. Any failure to read a tag counts as its
absence. -/

namespace ReleaseCandidates

/-- A forge that keeps tags in a state. -/
structure TagHost (σ : Type) where
  /-- What the tag of a repository points at; that there is none is a failure. -/
  tagRef (repository tag : String) : StateM σ (Except Failure String)
  /-- Makes an annotated tag object for a commit and gives its identity. -/
  createTagObject (repository tag message sha : String) : StateM σ (Except Failure String)
  /-- Makes a ref that points at an object. -/
  createRef (repository refName sha : String) : StateM σ (Except Failure Unit)

namespace Tag

variable {σ : Type}

/-- The message of a tag when none is configured. -/
def defaultMessage : String := "Version \x7bversion\x7d - Tagged by rc-tracker"

/-- The mark that stands for the version in a message. -/
def versionMark : String := "\x7bversion\x7d"

/-- The message for a version. -/
def messageFor (template version : String) : String :=
  Text.replaceAll template versionMark version

/-- The full name of the ref of a tag. -/
def refName (version : String) : String := "refs/tags/" ++ version

/-- Whether a repository has a tag. -/
def isThere (host : TagHost σ) (repository version : String) : StateM σ Bool := do
  match ← host.tagRef repository version with
  | .ok _ => return true
  | .error _ => return false

/-- Makes a tag: the object first, then the ref. -/
def create (host : TagHost σ) (template repository sha version : String) :
    StateM σ (Except Failure Unit) := do
  match ← host.createTagObject repository version (messageFor template version) sha with
  | .error failure => return .error failure
  | .ok object => host.createRef repository (refName version) object

/-- Makes a tag unless it is there or nothing is to be made. -/
def ensure (host : TagHost σ) (template repository sha version : String) (dryRun : Bool) :
    StateM σ (Except Failure TagOutcome) := do
  if ← isThere host repository version then return .ok .existing
  else if dryRun then return .ok .wanting
  else
    match ← create host template repository sha version with
    | .ok () => return .ok .created
    | .error failure => return .error failure

/-- Makes sure that the base repository of one component has a tag; true once it has. -/
def reconcile (host : TagHost σ) (template repository sha version : String) :
    StateM σ (Except Failure Bool) :=
  match RepositoryId.baseOf repository with
  | .error problem => return .error (.identifier repository problem)
  | .ok base => do
    match ← ensure host template base sha version false with
    | .ok _ => return .ok true
    | .error failure => return .error failure

/-- Works through targets in order; one that fails does not stop the others. -/
def ensureTargets (host : TagHost σ) (template version : String) (dryRun : Bool) :
    List WantedTag → TagReport → StateM σ TagReport
  | [], report => return report
  | t :: rest, report => do
    let outcome ← ensure host template t.repository t.sha version dryRun
    ensureTargets host template version dryRun rest (report.add t.repository outcome)

/-- Makes sure that all base repositories of a version have its tag. -/
def ensureVersion (host : TagHost σ) (template : String) (dryRun : Bool)
    (version : NamedVersion) : StateM σ TagReport :=
  let plan := TagPlan.ofVersion version
  ensureTargets host template version.name dryRun plan.targets
    ((TagReport.empty version.name).addInvalid plan.invalid)

/-- Reconciles versions in order. -/
def ensureVersions (host : TagHost σ) (template : String) (dryRun : Bool) :
    List NamedVersion → StateM σ (List TagReport)
  | [] => return []
  | version :: rest => do
    let report ← ensureVersion host template dryRun version
    let reports ← ensureVersions host template dryRun rest
    return report :: reports

/-- The versions asked for: the first of a name, or all. -/
def select (only : Option String) (versions : List NamedVersion) :
    Except Failure (List NamedVersion) :=
  match only with
  | none => .ok versions
  | some name =>
    match versions.find? fun v => v.name == name with
    | some version => .ok [version]
    | none => .error (.invalid (.unknownVersion name))

/-- Reconciles the versions asked for. -/
def execute (host : TagHost σ) (template : String) (only : Option String) (dryRun : Bool)
    (versions : List NamedVersion) : StateM σ (Except Failure (List TagReport)) :=
  match select only versions with
  | .error failure => return .error failure
  | .ok selected => do
    let reports ← ensureVersions host template dryRun selected
    return .ok reports

end Tag

end ReleaseCandidates
