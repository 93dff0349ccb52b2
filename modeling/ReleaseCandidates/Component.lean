import ReleaseCandidates.Text.Pieces

set_option autoImplicit false

/-! # Components

A component is one resolved artifact: a repository pinned to a release tag, or to a commit together
with the image built from it. Two components are the same artifact when repository, ref and image
agree; the name and the digest follow from those and do not count. -/

namespace ReleaseCandidates

/-- How the version of a component was chosen. -/
inductive Mechanism where
  /-- The newest release whose tag matches. -/
  | release
  /-- The newest commit with a published image. -/
  | commit
  deriving DecidableEq, Repr

/-- The stored word for a mechanism. -/
def Mechanism.word : Mechanism → String
  | .release => "release"
  | .commit => "commit"

/-- The mechanism a stored word stands for. -/
def Mechanism.ofWord? : String → Option Mechanism
  | "release" => some .release
  | "commit" => some .commit
  | _ => none

theorem Mechanism.ofWord?_word (m : Mechanism) : Mechanism.ofWord? m.word = some m := by
  cases m <;> rfl

/-- One resolved artifact of a snapshot. -/
structure Component where
  repository : String
  /-- The release tag or commit the component is pinned to. -/
  ref : String
  name : String
  mechanism : Mechanism
  imageUrl : Option String
  imageDigest : Option String
  deriving DecidableEq, Repr

/-- What makes two components the same artifact: repository, ref and image. -/
abbrev ComponentKey := String × String × Option String

/-- The tag an image is published under for a commit. -/
def imageTag (sha : String) : String :=
  "latest-" ++ sha

/-- The name of the component for an image of a repository: the first part of the repository, then
the last part of the image. -/
def imageName (repository image : String) : String :=
  String.ofList (Text.beforeFirst '/' repository.toList) ++ "/" ++
    String.ofList (Text.afterLast '/' image.toList)

namespace Component

/-- The component's identity. -/
def key (c : Component) : ComponentKey :=
  (c.repository, c.ref, c.imageUrl)

/-- A repository pinned to a release tag. -/
def ofRelease (repository tag : String) : Component where
  repository := repository
  ref := tag
  name := repository
  mechanism := .release
  imageUrl := none
  imageDigest := none

/-- A repository pinned to a commit whose image was published under `tag`. -/
def ofImage (repository sha image tag : String) (digest : Option String) : Component where
  repository := repository
  ref := sha
  name := imageName repository image
  mechanism := .commit
  imageUrl := some (image ++ ":" ++ tag)
  imageDigest := digest

/-- Order of components in a scan: by repository, then by name. -/
def placedBefore (a b : Component) : Bool :=
  match Ord.compare a.repository b.repository with
  | .lt => true
  | .gt => false
  | .eq => Ord.compare a.name b.name != .gt

end Component

/-- Whether two lists of components hold the same artifacts, whatever their order and however often
each occurs. -/
def sameComponents (a b : List Component) : Bool :=
  let keysA := a.map Component.key
  let keysB := b.map Component.key
  keysA.all (keysB.contains ·) && keysB.all (keysA.contains ·)

theorem sameComponents_iff {a b : List Component} :
    sameComponents a b = true ↔ ∀ k, k ∈ a.map Component.key ↔ k ∈ b.map Component.key := by
  simp only [sameComponents, Bool.and_eq_true, List.all_eq_true, List.contains_iff_mem]
  constructor
  · rintro ⟨hab, hba⟩ k
    exact ⟨hab k, hba k⟩
  · intro h
    exact ⟨fun k hk => (h k).1 hk, fun k hk => (h k).2 hk⟩

end ReleaseCandidates
