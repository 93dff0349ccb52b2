import ReleaseCandidates.Text.Blank
import ReleaseCandidates.Text.Pieces

set_option autoImplicit false

/-! # Repository identifiers

A repository is written `owner/name`, `owner/name/part` when one repository publishes several
artifacts, or as the address of its page on a forge. `RepositoryId.parse` reads all of these and
`RepositoryId.display` writes the canonical form. Tags always live on the base repository, which
`RepositoryId.base` names.

Every segment is checked before it is used, since owner and name become segments of the paths that
are requested from the forge. -/

namespace ReleaseCandidates

/-- A repository, with the part of it that an artifact is published under. -/
structure RepositoryId where
  owner : String
  name : String
  subcomponent : Option String
  deriving DecidableEq, Repr

namespace RepositoryId

/-! ## What can be wrong with an identifier -/

/-- Why a text is no repository identifier. -/
inductive Problem where
  /-- There is no owner, or no repository after it. -/
  | tooFewSegments
  /-- A segment is longer than `segmentLimit`. -/
  | segmentTooLong
  /-- A segment is `.` or `..`. -/
  | relativeSegment
  /-- A segment holds a character outside the allowed ones. -/
  | illegalCharacter
  deriving DecidableEq, Repr

/-- The words for a problem. -/
def Problem.reason : Problem → String
  | .tooFewSegments => "expected at least '<owner>/<repository>'"
  | .segmentTooLong => "path segment is too long"
  | .relativeSegment => "relative path segments are not allowed"
  | .illegalCharacter =>
    "only alphanumeric characters, hyphens, underscores and dots are allowed"

/-! ## Segments -/

/-- The greatest length of a segment in bytes. -/
def segmentLimit : Nat := 100

/-- The number of bytes that the characters take. -/
def byteLength (cs : List Char) : Nat :=
  cs.foldr (fun c n => c.utf8Size + n) 0

/-- The characters a segment may hold: ASCII letters and digits, hyphen, underscore and dot. -/
def isSegmentChar (c : Char) : Bool :=
  c.isAlphanum || c == '-' || c == '_' || c == '.'

/-- What is wrong with one segment, if anything. -/
def segmentProblem (segment : List Char) : Option Problem :=
  if byteLength segment > segmentLimit then some .segmentTooLong
  else if segment = ['.'] ∨ segment = ['.', '.'] then some .relativeSegment
  else if segment.all isSegmentChar then none
  else some .illegalCharacter

/-- What is wrong with the first segment that is not in order. -/
def firstProblem (segments : List (List Char)) : Option Problem :=
  segments.findSome? segmentProblem

/-- The text after the scheme of a web address, if it has one. -/
def dropScheme? (cs : List Char) : Option (List Char) :=
  (Text.dropStart? "https://".toList cs).orElse fun _ => Text.dropStart? "http://".toList cs

/-- The non-empty pieces between slashes. -/
def pieces (cs : List Char) : List (List Char) :=
  (Text.split '/' cs).filter (· ≠ [])

/-- The segments that name the repository: a web address loses its scheme and its host. -/
def segmentsOf (cs : List Char) : List (List Char) :=
  match dropScheme? cs with
  | some rest => (pieces rest).drop 1
  | none => pieces cs

/-- The characters before a closing `.git`, with every further one before it dropped too. -/
def dropGitSuffixes (cs : List Char) : List Char :=
  (go cs.reverse).reverse
where
  /-- Drops `.git` from the front of a reversed name as often as it is there. -/
  go : List Char → List Char
    | 't' :: 'i' :: 'g' :: '.' :: rest => go rest
    | cs => cs

/-- The identifier of segments that are in order. -/
def ofSegments : List (List Char) → Except Problem RepositoryId
  | owner :: name :: rest =>
    match firstProblem (owner :: name :: rest) with
    | some problem => .error problem
    | none => .ok {
        owner := String.ofList owner
        name := String.ofList (dropGitSuffixes name)
        subcomponent :=
          if rest.isEmpty then none else some (String.ofList (Text.join '/' rest)) }
  | _ => .error .tooFewSegments

/-- Reads an identifier. Blanks around it, empty segments and a `.git` at the end of the name do
not count. -/
def parse (value : String) : Except Problem RepositoryId :=
  ofSegments (segmentsOf (Text.trimChars value.toList))

/-! ## Writing -/

/-- The base repository, `owner/name`. -/
def base (id : RepositoryId) : String :=
  id.owner ++ "/" ++ id.name

/-- The canonical spelling. -/
def display (id : RepositoryId) : String :=
  match id.subcomponent with
  | some part => id.base ++ "/" ++ part
  | none => id.base

/-- The base repository that an identifier names. -/
def baseOf (value : String) : Except Problem String :=
  (parse value).map base

theorem display_of_subcomponent_none {id : RepositoryId} (h : id.subcomponent = none) :
    id.display = id.base := by
  simp [display, h]

end RepositoryId

end ReleaseCandidates
