import ReleaseCandidates.SnapshotLog
import ReleaseCandidates.Yaml.Record
import ReleaseCandidates.Yaml.Tree

set_option autoImplicit false

/-! # The layout of the snapshot log

The log is stored as a YAML document with a list of snapshots. Three layouts are read: the one that
is written, with every field of a component; an older list of components without names and
mechanisms, which follow from the rest; and an older table from component names to versions. Reading
goes in two steps, from the tree to the fields as they are stored, and from there to the log, so
that a document of the wrong shape is told from a log with a wrong entry. -/

namespace ReleaseCandidates

open Yaml (Fault Node Tree)

/-! ## Fields as they are stored -/

/-- A component with the fields that were given. -/
structure StoredComponent where
  repository : String
  ref : String
  name : Option String
  mechanism : Option String
  imageUrl : Option String
  imageDigest : Option String
  deriving DecidableEq, Repr

/-- An entry of the older table. -/
structure StoredVersion where
  version : String
  imageUrl : Option String
  imageDigest : Option String
  deriving DecidableEq, Repr

/-- The metadata of a snapshot, its status still a text. -/
structure StoredMetadata where
  generatedAt : String
  status : String
  testedAt : Option String
  deriving DecidableEq, Repr

/-- A snapshot with the lists that were given. -/
structure StoredSnapshot where
  metadata : StoredMetadata
  components : Option (List StoredComponent)
  versions : Option (List (String × StoredVersion))
  deriving DecidableEq, Repr

/-! ## Reading the fields -/

namespace StoredComponent

/-- The fields of a component met so far. -/
structure Fields where
  repository : Option String
  ref : Option String
  name : Option (Option String)
  mechanism : Option (Option String)
  imageUrl : Option (Option String)
  imageDigest : Option (Option String)

/-- Reads one field of a component. -/
def field (r : Fields) (key : String) (v : Node) : Except Fault Fields :=
  match key with
  | "repository" =>
    (Node.once key r.repository Node.text v).map fun x => { r with repository := x }
  | "ref" => (Node.once key r.ref Node.text v).map fun x => { r with ref := x }
  | "name" => (Node.once key r.name (Node.optional Node.text) v).map fun x => { r with name := x }
  | "versioning_selection_mechanism" =>
    (Node.once key r.mechanism (Node.optional Node.text) v).map fun x => { r with mechanism := x }
  | "image_url" =>
    (Node.once key r.imageUrl (Node.optional Node.text) v).map fun x => { r with imageUrl := x }
  | "image_digest" =>
    (Node.once key r.imageDigest (Node.optional Node.text) v).map fun x =>
      { r with imageDigest := x }
  | _ => .ok r

/-- Reads a component. -/
def read (n : Node) : Except Fault StoredComponent := do
  let r ← Node.record ⟨none, none, none, none, none, none⟩ field n
  let repository ← Node.required "repository" r.repository
  let ref ← Node.required "ref" r.ref
  return {
    repository := repository
    ref := ref
    name := r.name.join
    mechanism := r.mechanism.join
    imageUrl := r.imageUrl.join
    imageDigest := r.imageDigest.join }

end StoredComponent

namespace StoredVersion

/-- The fields of an entry met so far. -/
structure Fields where
  version : Option String
  imageUrl : Option (Option String)
  imageDigest : Option (Option String)

/-- Reads one field of an entry. -/
def field (r : Fields) (key : String) (v : Node) : Except Fault Fields :=
  match key with
  | "version" => (Node.once key r.version Node.text v).map fun x => { r with version := x }
  | "image_url" =>
    (Node.once key r.imageUrl (Node.optional Node.text) v).map fun x => { r with imageUrl := x }
  | "image_digest" =>
    (Node.once key r.imageDigest (Node.optional Node.text) v).map fun x =>
      { r with imageDigest := x }
  | _ => .ok r

/-- Reads an entry of the older table. -/
def read (n : Node) : Except Fault StoredVersion := do
  let r ← Node.record ⟨none, none, none⟩ field n
  let version ← Node.required "version" r.version
  return { version := version, imageUrl := r.imageUrl.join, imageDigest := r.imageDigest.join }

end StoredVersion

namespace StoredMetadata

/-- The fields of the metadata met so far. -/
structure Fields where
  generatedAt : Option String
  status : Option String
  testedAt : Option (Option String)

/-- Reads one field of the metadata. -/
def field (r : Fields) (key : String) (v : Node) : Except Fault Fields :=
  match key with
  | "generated_at" =>
    (Node.once key r.generatedAt Node.text v).map fun x => { r with generatedAt := x }
  | "status" => (Node.once key r.status Node.text v).map fun x => { r with status := x }
  | "tested_at" =>
    (Node.once key r.testedAt (Node.optional Node.text) v).map fun x => { r with testedAt := x }
  | _ => .ok r

/-- Reads the metadata of a snapshot. -/
def read (n : Node) : Except Fault StoredMetadata := do
  let r ← Node.record ⟨none, none, none⟩ field n
  let generatedAt ← Node.required "generated_at" r.generatedAt
  let status ← Node.required "status" r.status
  return { generatedAt := generatedAt, status := status, testedAt := r.testedAt.join }

end StoredMetadata

namespace StoredSnapshot

/-- The fields of a snapshot met so far. -/
structure Fields where
  metadata : Option StoredMetadata
  components : Option (Option (List StoredComponent))
  versions : Option (Option (List (String × StoredVersion)))

/-- Reads one field of a snapshot. -/
def field (r : Fields) (key : String) (v : Node) : Except Fault Fields :=
  match key with
  | "metadata" =>
    (Node.once key r.metadata StoredMetadata.read v).map fun x => { r with metadata := x }
  | "components" =>
    (Node.once key r.components (Node.optional (Node.list StoredComponent.read)) v).map fun x =>
      { r with components := x }
  | "versions" =>
    (Node.once key r.versions (Node.optional (Node.table StoredVersion.read)) v).map fun x =>
      { r with versions := x }
  | _ => .ok r

/-- Reads a snapshot. -/
def read (n : Node) : Except Fault StoredSnapshot := do
  let r ← Node.record ⟨none, none, none⟩ field n
  let metadata ← Node.required "metadata" r.metadata
  return { metadata := metadata, components := r.components.join, versions := r.versions.join }

/-- Reads the list of snapshots of a log, if there is one. -/
def readLog (n : Node) : Except Fault (Option (List StoredSnapshot)) :=
  (Node.record none (fun before key v =>
    match key with
    | "snapshots" => Node.once key before (Node.optional (Node.list read)) v
    | _ => .ok before) n).map Option.join

end StoredSnapshot

/-! ## From stored fields to the log -/

/-- The address of an image without its tag; a port is kept. -/
def dropImageTag (url : String) : String :=
  match Text.cutLast ':' url.toList with
  | some (image, tag) => if tag.contains '/' then url else String.ofList image
  | none => url

/-- The name of a component that was stored without one: one for each image, else the
repository. -/
def impliedName (repository : String) (imageUrl : Option String) : String :=
  match imageUrl with
  | some url => imageName repository (dropImageTag url)
  | none => repository

/-- The mechanism of a component that was stored without one. -/
def impliedMechanism (imageUrl : Option String) : Mechanism :=
  if imageUrl.isSome then .commit else .release

namespace StoredComponent

/-- The component that stored fields stand for. -/
def toComponent (s : StoredComponent) : Except EntryProblem Component :=
  let build (mechanism : Mechanism) : Component := {
    repository := s.repository
    ref := s.ref
    name := s.name.getD (impliedName s.repository s.imageUrl)
    mechanism := mechanism
    imageUrl := s.imageUrl
    imageDigest := s.imageDigest }
  match s.mechanism with
  | none => .ok (build (impliedMechanism s.imageUrl))
  | some word =>
    match Mechanism.ofWord? word with
    | some mechanism => .ok (build mechanism)
    | none => .error (.unknownMechanism word)

end StoredComponent

namespace StoredVersion

/-- The component for an entry of the older table; the key names the repository, with the image
after it or not. -/
def toComponent (key : String) (s : StoredVersion) : Component :=
  let repository :=
    match RepositoryId.baseOf key with
    | .ok base => base
    | .error _ => key
  { repository := repository
    ref := s.version
    name := impliedName repository s.imageUrl
    mechanism := impliedMechanism s.imageUrl
    imageUrl := s.imageUrl
    imageDigest := s.imageDigest }

end StoredVersion

/-- The components of a list, or what is wrong with the first that is not in order. -/
def toComponents : List StoredComponent → Except EntryProblem (List Component)
  | [] => .ok []
  | s :: rest =>
    match s.toComponent with
    | .error problem => .error problem
    | .ok c =>
      match toComponents rest with
      | .error problem => .error problem
      | .ok cs => .ok (c :: cs)

namespace StoredSnapshot

/-- The components of a snapshot, in whichever layout they were given. -/
def toComponentList (s : StoredSnapshot) : Except EntryProblem (List Component) :=
  match s.components, s.versions with
  | some components, _ => toComponents components
  | none, some versions => .ok (versions.map fun (key, v) => v.toComponent key)
  | none, none => .error .noComponents

/-- The snapshot that stored fields stand for. -/
def toSnapshot (s : StoredSnapshot) : Except EntryProblem Snapshot :=
  match Status.parse s.metadata.status with
  | .error normal => .error (.unknownStatus normal)
  | .ok status =>
    match s.toComponentList with
    | .error problem => .error problem
    | .ok components => .ok {
        metadata := {
          generatedAt := s.metadata.generatedAt
          status := status
          testedAt := s.metadata.testedAt }
        components := components }

/-- The snapshots of a log from a position on, or what is wrong with the first that is not in
order. -/
def toSnapshots (index : Nat) : List StoredSnapshot → Except LogProblem (List Snapshot)
  | [] => .ok []
  | s :: rest =>
    match s.toSnapshot with
    | .error problem => .error (.entry index problem)
    | .ok snapshot =>
      match toSnapshots (index + 1) rest with
      | .error problem => .error problem
      | .ok snapshots => .ok (snapshot :: snapshots)

end StoredSnapshot

namespace SnapshotLog

/-- The log for stored fields. -/
def ofStored : Option (List StoredSnapshot) → Except LogProblem SnapshotLog
  | none => .error .noList
  | some snapshots =>
    match StoredSnapshot.toSnapshots 0 snapshots with
    | .error problem => .error problem
    | .ok snapshots => .ok ⟨snapshots⟩

/-- The log that a document holds. -/
def ofDocument (d : Yaml.Document) : Except LogProblem SnapshotLog :=
  match d.record StoredSnapshot.readLog with
  | .error fault => .error (.yaml fault)
  | .ok stored => ofStored stored

/-- Reads a log in any of its layouts. -/
def parse (content : String) : Except LogProblem SnapshotLog :=
  ofDocument (Yaml.Document.read content)

/-! ## Writing -/

/-- A field that is left out when there is no value. -/
def optionalField (key : String) (value : Option String) : List (String × Tree) :=
  match value with
  | some s => [(key, .text s)]
  | none => []

/-- The tree of a component. -/
def componentTree (c : Component) : Tree :=
  .record ([
    ("repository", .text c.repository),
    ("ref", .text c.ref),
    ("name", .text c.name),
    ("versioning_selection_mechanism", .text c.mechanism.word)] ++
    optionalField "image_url" c.imageUrl ++ optionalField "image_digest" c.imageDigest)

/-- The tree of the metadata of a snapshot. -/
def metadataTree (m : SnapshotStanding) : Tree :=
  .record ([("generated_at", .text m.generatedAt), ("status", .text m.status.word)] ++
    optionalField "tested_at" m.testedAt)

/-- The tree of a snapshot. -/
def snapshotTree (s : Snapshot) : Tree :=
  .record [
    ("metadata", metadataTree s.metadata),
    ("components", .list (s.components.map componentTree))]

/-- The tree of a log. -/
def tree (log : SnapshotLog) : Tree :=
  .record [("snapshots", .list (log.snapshots.map snapshotTree))]

/-- Writes a log in its current layout. -/
def render (log : SnapshotLog) : String :=
  log.tree.render

end SnapshotLog

end ReleaseCandidates
