import ReleaseCandidates.Http.Percent
import ReleaseCandidates.Text.Blank
import ReleaseCandidates.Text.Pieces

set_option autoImplicit false

/-! # Image references

The name of a container image without a tag, split into the registry that holds it and the path
there. A first segment that looks like a host, because it has a dot or a port or is `localhost`,
names the registry; every other name belongs to the default registry, where a name of one segment
lives under `library`. -/

namespace ReleaseCandidates

/-- A registry and a repository path in it. -/
structure ImageReference where
  host : String
  path : String
  deriving DecidableEq, Repr

namespace ImageReference

/-- Why a text is no image name; each carries the name without the blanks around it. -/
inductive Problem where
  | empty
  | illegalCharacter (image : String)
  | noRepository (image : String)
  | emptySegment (image : String)
  deriving DecidableEq, Repr

/-- The words for a problem. -/
def Problem.message : Problem → String
  | .empty => "Image name is empty"
  | .illegalCharacter image => "Image name contains characters that are not allowed: " ++ image
  | .noRepository image => "Image name has a registry host but no repository: " ++ image
  | .emptySegment image => "Image name has an empty path segment: " ++ image

/-- The registry of names without a host. -/
def defaultHost : String := "registry-1.docker.io"

/-- Whether a first segment names a registry. -/
def isHost (segment : List Char) : Bool :=
  segment.contains '.' || segment.contains ':' || segment == "localhost".toList

/-- Whether the name holds a digest mark, a blank or two dots in a row. -/
def hasIllegalRun (image : List Char) : Bool :=
  image.contains '@' || Text.containsRun ['.', '.'] image || image.any Text.isBlank

/-- Host and path of a name, before the path is looked at. -/
def locate (image : List Char) : Except Problem (List Char × List Char) :=
  match Text.cutFirst '/' image with
  | some (first, rest) =>
    if isHost first then .ok (first, rest) else .ok (defaultHost.toList, image)
  | none =>
    if isHost image then .error (.noRepository (String.ofList image))
    else .ok (defaultHost.toList, "library/".toList ++ image)

/-- Reads an image name. -/
def parse (value : String) : Except Problem ImageReference :=
  let image := Text.trimChars value.toList
  if image.isEmpty then .error .empty
  else if hasIllegalRun image then .error (.illegalCharacter (String.ofList image))
  else
    match locate image with
    | .error problem => .error problem
    | .ok (host, path) =>
      if (Text.split '/' path).any List.isEmpty then .error (.emptySegment (String.ofList image))
      else .ok { host := String.ofList host, path := String.ofList path }

/-- The address of the manifest of an image under a tag. The tag is encoded, so that it stays one
segment. -/
def manifestAddress (r : ImageReference) (tag : String) : String :=
  "https://" ++ r.host ++ "/v2/" ++ r.path ++ "/manifests/" ++ Http.Percent.encode tag

end ImageReference

end ReleaseCandidates
