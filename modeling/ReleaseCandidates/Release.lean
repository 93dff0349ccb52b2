import ReleaseCandidates.Text.Pieces

set_option autoImplicit false

/-! # Releases and manifests

What a source forge and an image registry tell about a repository. Listings are newest first. -/

namespace ReleaseCandidates

/-- A published release. -/
structure Release where
  tag : String
  /-- The branch or commit the tag was cut from. -/
  target : String
  prerelease : Bool
  deriving DecidableEq, Repr

/-- What a registry tells about a published image. -/
structure Manifest where
  digest : Option String
  deriving DecidableEq, Repr

/-- Whether the text starts with `start`. -/
def startsWith (start s : String) : Bool :=
  start.toList.isPrefixOf s.toList

/-- Whether a release may be picked: no prerelease, and its tag starts as configured. -/
def Release.qualifies (tagStart : String) (r : Release) : Bool :=
  !r.prerelease && startsWith tagStart r.tag

/-- The newest release that qualifies. -/
def newestQualifying (releases : List Release) (tagStart : String) : Option Release :=
  releases.find? (Release.qualifies tagStart)

end ReleaseCandidates
