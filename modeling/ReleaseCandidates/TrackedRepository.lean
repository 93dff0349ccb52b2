import ReleaseCandidates.Failure

set_option autoImplicit false

/-! # Tracked repositories

A repository is tracked by its releases or by the images built from its commits. A release strategy
may name images to fall back to. Each entry expands into targets that are resolved on their own: a
release strategy is one target, a commit strategy one for each image. -/

namespace ReleaseCandidates

/-- How the candidate version of a repository is chosen. -/
inductive Strategy where
  /-- The newest release whose tag starts with `tagStart`; the images when there is none. -/
  | release (tagStart : String) (fallbackImages : List String)
  /-- For each image, the newest commit it was published for. -/
  | commit (images : List String)
  deriving DecidableEq, Repr

/-- A tracked repository. -/
structure TrackedRepository where
  repository : String
  strategy : Strategy
  deriving DecidableEq, Repr

/-- One unit of resolution work. -/
inductive ScanTarget where
  | release (repository tagStart : String) (fallbackImages : List String)
  | image (repository image : String)
  deriving DecidableEq, Repr

namespace ScanTarget

/-- The repository of a target. -/
def repository : ScanTarget → String
  | .release r _ _ => r
  | .image r _ => r

/-- A short name for a target. -/
def label : ScanTarget → String
  | .release r _ _ => r
  | .image r i => r ++ " (" ++ i ++ ")"

end ScanTarget

namespace Strategy

/-- The images that a strategy names. -/
def images : Strategy → List String
  | .release _ fallback => fallback
  | .commit is => is

end Strategy

namespace TrackedRepository

/-- A tracked repository, if the repository can be read, a commit strategy has images and no image
is blank; the first rule broken in this order is reported. -/
def make (repository : String) (strategy : Strategy) : Except Failure TrackedRepository :=
  match RepositoryId.parse repository with
  | .error problem => .error (.identifier repository problem)
  | .ok _ =>
    if strategy = .commit [] then .error (.invalid (.noImages repository))
    else
      match strategy.images.find? Text.isAllBlank with
      | some blank => .error (.invalid (.blankImage repository blank))
      | none => .ok { repository, strategy }

/-- The units of work that a tracked repository stands for. -/
def targets (config : TrackedRepository) : List ScanTarget :=
  match config.strategy with
  | .release tagStart fallback => [.release config.repository tagStart fallback]
  | .commit images => images.map (.image config.repository)

/-- The repositories tracked when nothing else is configured. -/
def defaults : List TrackedRepository := [
  { repository := "kubernetes-sigs/cluster-api", strategy := .release "v" [] },
  { repository := "metal3-io/cluster-api-provider-metal3", strategy := .release "v" [] },
  { repository := "openshift/assisted-service",
    strategy := .commit ["quay.io/edge-infrastructure/assisted-service"] },
  { repository := "openshift/assisted-image-service",
    strategy := .commit ["quay.io/edge-infrastructure/assisted-image-service"] },
  { repository := "openshift/assisted-installer-agent",
    strategy := .commit ["quay.io/edge-infrastructure/assisted-installer-agent"] },
  { repository := "openshift/assisted-installer",
    strategy := .commit ["quay.io/edge-infrastructure/assisted-installer-controller",
      "quay.io/edge-infrastructure/assisted-installer"] }]

end TrackedRepository

end ReleaseCandidates
