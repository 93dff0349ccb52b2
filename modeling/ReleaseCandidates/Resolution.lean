import ReleaseCandidates.Catalogue
import ReleaseCandidates.TrackedRepository

set_option autoImplicit false

/-! # Resolving a target

A target is resolved to the components that are its current candidates. Listings are walked newest
first and the first entry that qualifies wins; that nothing qualifies is an empty answer and no
failure. A registry that cannot say whether a tag is published counts as one that has not published
it. A release target with images to fall back to takes them, each on its own, when no release
qualifies or the releases cannot be listed. -/

namespace ReleaseCandidates

/-- How many entries of a listing are looked at. -/
structure ListingLimits where
  commits : Nat := 20
  releases : Nat := 100
  deriving DecidableEq, Repr

namespace Resolution

variable {σ : Type}

/-- The newest release of a repository that qualifies. -/
def release (c : Catalogue σ) (limits : ListingLimits) (repository tagStart : String) :
    StateM σ (Reply (Option Component)) := do
  match ← c.releases repository limits.releases with
  | .ok releases =>
    return .ok ((newestQualifying releases tagStart).map fun r =>
      Component.ofRelease repository r.tag)
  | .failed failure => return .failed failure
  | .aborted message => return .aborted message

/-- The first of the commits that an image was published for; later ones are not asked about. -/
def firstPublished (c : Catalogue σ) (repository image : String) :
    List String → StateM σ (Reply (Option Component))
  | [] => return .ok none
  | sha :: rest => do
    match ← c.manifest image (imageTag sha) with
    | .ok (some manifest) =>
      return .ok (some (Component.ofImage repository sha image (imageTag sha) manifest.digest))
    | .ok none | .failed _ => firstPublished c repository image rest
    | .aborted message => return .aborted message

/-- The newest commit of a repository that an image was published for. -/
def image (c : Catalogue σ) (limits : ListingLimits) (repository image : String) :
    StateM σ (Reply (Option Component)) := do
  match ← c.commits repository limits.commits with
  | .ok commits => firstPublished c repository image commits
  | .failed failure => return .failed failure
  | .aborted message => return .aborted message

/-- What trying a list of images has given: the components found, and the first failure if there
was one. -/
structure Harvest where
  found : List Component
  failure : Option Failure

/-- What is made of a harvest: a failure counts only where nothing was found. -/
def Harvest.reply (h : Harvest) : Reply (List Component) :=
  match h.failure with
  | some failure => if h.found.isEmpty then .failed failure else .ok h.found
  | none => .ok h.found

/-- Tries every image in order, whatever came of the ones before. -/
def images (c : Catalogue σ) (limits : ListingLimits) (repository : String) :
    List String → Harvest → StateM σ (Reply (List Component))
  | [], h => return h.reply
  | i :: rest, h => do
    match ← image c limits repository i with
    | .ok (some component) =>
      images c limits repository rest { h with found := h.found ++ [component] }
    | .ok none => images c limits repository rest h
    | .failed failure =>
      images c limits repository rest { h with failure := some (h.failure.getD failure) }
    | .aborted message => return .aborted message

/-- The release that qualifies, else what the images give. -/
def releaseOrImages (c : Catalogue σ) (limits : ListingLimits) (repository tagStart : String)
    (fallback : List String) : StateM σ (Reply (List Component)) := do
  match ← release c limits repository tagStart with
  | .ok (some component) => return .ok [component]
  | .ok none => images c limits repository fallback ⟨[], none⟩
  | .failed failure => images c limits repository fallback ⟨[], some failure⟩
  | .aborted message => return .aborted message

/-- The components that a target stands for at present. -/
def resolve (c : Catalogue σ) (limits : ListingLimits) (target : ScanTarget) :
    StateM σ (Reply (List Component)) :=
  match target with
  | .release repository tagStart fallback =>
    releaseOrImages c limits repository tagStart fallback
  | .image repository i => do
    match ← image c limits repository i with
    | .ok component => return .ok component.toList
    | .failed failure => return .failed failure
    | .aborted message => return .aborted message

end Resolution

end ReleaseCandidates
