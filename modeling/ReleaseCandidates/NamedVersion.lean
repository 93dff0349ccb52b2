set_option autoImplicit false

/-! # Named versions

A named version pins components to refs. People curate the named versions; the program only reads
them. -/

namespace ReleaseCandidates

/-- One component of a named version. -/
structure VersionPart where
  repository : String
  ref : String
  imageUrl : Option String
  deriving DecidableEq, Repr

/-- A named version and the components pinned by it. -/
structure NamedVersion where
  name : String
  components : List VersionPart
  deriving DecidableEq, Repr

end ReleaseCandidates
