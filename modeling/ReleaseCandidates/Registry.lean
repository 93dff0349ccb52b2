import ReleaseCandidates.Catalogue
import ReleaseCandidates.Forge.Api

set_option autoImplicit false

/-! # The image registry

Whether an image was published under a tag is asked of the registry that the image's name gives. An
answer other than a plain success means that it was not; a failure is for the case that there is no
answer at all. -/

namespace ReleaseCandidates

open Http (Fault Request Response Transport Url)

namespace Registry

/-- The kinds of manifests that are looked for. -/
def acceptedKinds : String :=
  "application/vnd.docker.distribution.manifest.v2+json, " ++
    "application/vnd.docker.distribution.manifest.list.v2+json, " ++
    "application/vnd.oci.image.manifest.v1+json, application/vnd.oci.image.index.v1+json"

/-- The header that holds the digest of a manifest. -/
def digestKey : String := "docker-content-digest"

/-- The request for the manifest of an image under a tag. -/
def request (reference : ImageReference) (tag : String) : Except Fault Request :=
  match Url.parse? (reference.manifestAddress tag) with
  | none => .error .badAddress
  | some url => .ok {
      method := .head
      url := url
      headers := [("accept", acceptedKinds), ("user-agent", ForgeApi.userAgent)]
      body := none }

/-- What a response says about a manifest. -/
def manifestOf (response : Response) : Option Manifest :=
  if response.status = 200 then
    some ⟨(response.header? digestKey).filter Http.isReadableValue⟩
  else none

/-- The manifest of an image under a tag, if it was published. -/
def manifest {τ : Type} (transport : Transport τ) (image tag : String) :
    StateM τ (Except Failure (Option Manifest)) :=
  match ImageReference.parse image with
  | .error problem => return .error (.image problem)
  | .ok reference =>
    match request reference tag with
    | .error fault => return .error (.http fault)
    | .ok request => do
      match ← transport request with
      | .error fault => return .error (.http fault)
      | .ok response => return .ok (manifestOf response)

end Registry

/-- An answer as the outcome of a task. -/
def Reply.ofExcept {α : Type} : Except Failure α → Reply α
  | .ok a => .ok a
  | .error failure => .failed failure

/-- The forge and the registry, reached by two transports, as one catalogue. -/
def Catalogue.live {τ : Type} (api : ForgeApi) (forge registry : Transport τ) : Catalogue τ where
  releases repository limit := do
    return .ofExcept (← api.releases forge repository limit)
  commits repository limit := do
    return .ofExcept (← api.commits forge repository limit)
  manifest image tag := do
    return .ofExcept (← Registry.manifest registry image tag)

end ReleaseCandidates
