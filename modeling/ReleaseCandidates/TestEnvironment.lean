import ReleaseCandidates.Component
import ReleaseCandidates.RepositoryId

set_option autoImplicit false

/-! # The environment of a test run

The tests learn which artifacts to use from variables. A fixed table says which variables a
component exports: a release exports its ref, an image its address and its digest under two names.
The variables of a snapshot are those of its components, a later component overriding an earlier
one. -/

namespace ReleaseCandidates

/-- The variables a component exports. -/
inductive Binding where
  /-- The ref under one name. -/
  | ref (var : String)
  /-- The image address under one name and its digest under another. -/
  | image (address version : String)
  deriving DecidableEq, Repr

namespace Binding

/-- Which components export what, by component name or base repository. -/
def table : List (String × Binding) := [
  ("kubernetes-sigs/cluster-api", .ref "CAPI_VERSION"),
  ("metal3-io/cluster-api-provider-metal3", .ref "CAPM3_VERSION"),
  ("openshift/assisted-service", .image "ASSISTED_SERVICE_IMAGE" "ASSISTED_SERVICE_VERSION"),
  ("openshift/assisted-service-el8",
    .image "ASSISTED_SERVICE_EL8_IMAGE" "ASSISTED_SERVICE_EL8_VERSION"),
  ("openshift/assisted-image-service",
    .image "ASSISTED_IMAGE_SERVICE_IMAGE" "ASSISTED_IMAGE_SERVICE_VERSION"),
  ("openshift/assisted-installer-agent",
    .image "ASSISTED_INSTALLER_AGENT_IMAGE" "ASSISTED_INSTALLER_AGENT_VERSION"),
  ("openshift/assisted-installer-controller",
    .image "ASSISTED_INSTALLER_CONTROLLER_IMAGE" "ASSISTED_INSTALLER_CONTROLLER_VERSION"),
  ("openshift/assisted-installer", .image "ASSISTED_INSTALLER_IMAGE" "ASSISTED_INSTALLER_VERSION")]

/-- The table's entry for a name. -/
def lookup (name : String) : Option Binding :=
  table.lookup name

/-- The binding of a component: the one of its name, else the one of its base repository. -/
def of (c : Component) : Option Binding :=
  (lookup c.name).orElse fun _ => (RepositoryId.baseOf c.repository).toOption.bind lookup

/-- The values a component offers under a binding, with the variable for each; a missing or empty
value is not offered. -/
def assignments (binding : Binding) (c : Component) : List (String × String) :=
  let offer (var : String) (value : Option String) : List (String × String) :=
    match value with
    | some v => if v.isEmpty then [] else [(var, v)]
    | none => []
  match binding with
  | .ref var => offer var (some c.ref)
  | .image address version => offer address c.imageUrl ++ offer version c.imageDigest

end Binding

/-! ## Variables -/

/-- Variables and their values, sorted by name. -/
abbrev Variables := List (String × String)

/-- Sets a variable, keeping the order by name. -/
def Variables.set (name value : String) : Variables → Variables
  | [] => [(name, value)]
  | (n, v) :: rest =>
    if name = n then (n, value) :: rest
    else if name < n then (name, value) :: (n, v) :: rest
    else (n, v) :: Variables.set name value rest

/-- The value of a variable. -/
def Variables.get? (vars : Variables) (name : String) : Option String :=
  vars.lookup name

theorem Variables.get?_set_self (name value : String) (vars : Variables) :
    (Variables.set name value vars).get? name = some value := by
  induction vars with
  | nil => simp [Variables.set, Variables.get?]
  | cons nv rest ih =>
    obtain ⟨n, v⟩ := nv
    simp only [Variables.get?] at ih
    simp only [Variables.set, Variables.get?]
    split
    · rename_i h; subst h; simp
    · rename_i h
      have hn : (name == n) = false := by simpa using h
      split
      · simp
      · simp [List.lookup_cons, hn, ih]

theorem Variables.get?_set_of_ne {name other : String} (h : other ≠ name) (value : String)
    (vars : Variables) : (Variables.set name value vars).get? other = vars.get? other := by
  have ho : (other == name) = false := by simpa using h
  induction vars with
  | nil => simp [Variables.set, Variables.get?, List.lookup_cons, ho]
  | cons nv rest ih =>
    obtain ⟨n, v⟩ := nv
    simp only [Variables.get?] at ih
    simp only [Variables.set, Variables.get?]
    split
    · rename_i hn; subst hn; simp [List.lookup_cons, ho]
    · split
      · simp [List.lookup_cons, ho]
      · simp [List.lookup_cons, ih]

/-! ## The environment of a snapshot -/

/-- The variables of a snapshot, with what the reader of a log wants to know about them. -/
structure TestEnvironment where
  vars : Variables
  /-- Names of components that export nothing, in order. -/
  skipped : List String
  /-- Variables whose value was changed by a later component, once for each change. -/
  overwritten : List String
  deriving DecidableEq, Repr

namespace TestEnvironment

/-- The environment without variables. -/
def empty : TestEnvironment := ⟨[], [], []⟩

/-- Assigns a variable; a different value replaced is noted. -/
def assign (env : TestEnvironment) (assignment : String × String) : TestEnvironment :=
  let (name, value) := assignment
  let changed :=
    match env.vars.get? name with
    | some previous => previous != value
    | none => false
  { env with
    vars := env.vars.set name value
    overwritten := if changed then env.overwritten ++ [name] else env.overwritten }

/-- Adds what one component exports. -/
def add (env : TestEnvironment) (c : Component) : TestEnvironment :=
  match Binding.of c with
  | some binding => (binding.assignments c).foldl assign env
  | none => { env with skipped := env.skipped ++ [c.name] }

/-- The environment for a list of components. -/
def ofComponents (components : List Component) : TestEnvironment :=
  components.foldl add empty

end TestEnvironment

end ReleaseCandidates
