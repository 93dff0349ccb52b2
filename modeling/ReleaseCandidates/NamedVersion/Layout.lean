import ReleaseCandidates.Failure
import ReleaseCandidates.NamedVersion
import ReleaseCandidates.Yaml.Record

set_option autoImplicit false

/-! # The layout of the versions file

Named versions are curated in a YAML document with a list of versions. A version lists its
components; in an older layout it has a table from repositories to commits instead, which counts
when there is no list. -/

namespace ReleaseCandidates

open Yaml (Fault Node)

namespace VersionPart

/-- The fields of a component met so far. -/
structure Fields where
  repository : Option String
  ref : Option String
  imageUrl : Option (Option String)

/-- Reads one field of a component. -/
def field (r : Fields) (key : String) (v : Node) : Except Fault Fields :=
  match key with
  | "repository" =>
    (Node.once key r.repository Node.text v).map fun x => { r with repository := x }
  | "ref" => (Node.once key r.ref Node.text v).map fun x => { r with ref := x }
  | "image_url" =>
    (Node.once key r.imageUrl (Node.optional Node.text) v).map fun x => { r with imageUrl := x }
  | _ => .ok r

/-- Reads a component of a version. -/
def read (n : Node) : Except Fault VersionPart := do
  let r ← Node.record ⟨none, none, none⟩ field n
  let repository ← Node.required "repository" r.repository
  let ref ← Node.required "ref" r.ref
  return { repository := repository, ref := ref, imageUrl := r.imageUrl.join }

/-- Reads the commit that the older table gives for a repository. -/
def readPin (n : Node) : Except Fault String := do
  let sha ← Node.record none (fun before key v =>
    match key with
    | "commit_sha" => Node.once key before Node.text v
    | _ => .ok before) n
  Node.required "commit_sha" sha

end VersionPart

/-- A version with the lists that were given. -/
structure StoredRecord where
  name : String
  components : Option (List VersionPart)
  repositories : Option (List (String × String))
  deriving DecidableEq, Repr

namespace StoredRecord

/-- The fields of a version met so far. -/
structure Fields where
  name : Option String
  components : Option (Option (List VersionPart))
  repositories : Option (Option (List (String × String)))

/-- Reads one field of a version. -/
def field (r : Fields) (key : String) (v : Node) : Except Fault Fields :=
  match key with
  | "name" => (Node.once key r.name Node.text v).map fun x => { r with name := x }
  | "components" =>
    (Node.once key r.components (Node.optional (Node.list VersionPart.read)) v).map fun x =>
      { r with components := x }
  | "repositories" =>
    (Node.once key r.repositories (Node.optional (Node.table VersionPart.readPin)) v).map
      fun x => { r with repositories := x }
  | _ => .ok r

/-- Reads a version. -/
def read (n : Node) : Except Fault StoredRecord := do
  let r ← Node.record ⟨none, none, none⟩ field n
  let name ← Node.required "name" r.name
  return { name := name, components := r.components.join, repositories := r.repositories.join }

/-- Reads the list of versions, if there is one. -/
def readAll (n : Node) : Except Fault (Option (List StoredRecord)) :=
  (Node.record none (fun before key v =>
    match key with
    | "versions" => Node.once key before (Node.optional (Node.list read)) v
    | _ => .ok before) n).map Option.join

/-- The record that stored fields stand for. -/
def toRecord (s : StoredRecord) : Except VersionsProblem NamedVersion :=
  match s.components, s.repositories with
  | some components, _ => .ok ⟨s.name, components⟩
  | none, some repositories =>
    .ok ⟨s.name, repositories.map fun (repository, sha) => ⟨repository, sha, none⟩⟩
  | none, none => .error (.noComponents s.name)

/-- The records of a list, or what is wrong with the first that is not in order. -/
def toRecords : List StoredRecord → Except VersionsProblem (List NamedVersion)
  | [] => .ok []
  | s :: rest =>
    match s.toRecord with
    | .error problem => .error problem
    | .ok r =>
      match toRecords rest with
      | .error problem => .error problem
      | .ok rs => .ok (r :: rs)

end StoredRecord

/-- Reads the text of a versions file. -/
def NamedVersion.parseAll (content : String) : Except VersionsProblem (List NamedVersion) :=
  match Yaml.readRecord StoredRecord.readAll content with
  | .error fault => .error (.yaml fault)
  | .ok none => .error .noList
  | .ok (some records) => StoredRecord.toRecords records

end ReleaseCandidates
