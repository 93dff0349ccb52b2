import ReleaseCandidates.Configuration
import ReleaseCandidates.Yaml.Record

set_option autoImplicit false

/-! # The layout of the configuration file

The configuration is a YAML record. Settings that are not known are collected by name; their values
may be anything, but they have to be proper values: they are read to their end, and no mapping in
them may give a key twice. -/

namespace ReleaseCandidates

open Yaml (Fault Node)

namespace ConfiguredRepository

/-- The fields of an entry met so far. -/
structure Fields where
  repository : Option String
  release : Option (Option String)
  commit : Option (Option (List String))

/-- Reads how the tags of releases start; nothing is set by default. -/
def readRelease (n : Node) : Except Fault String :=
  (Node.record none (fun before key v =>
    match key with
    | "prefix" => Node.once key before Node.text v
    | _ => .ok before) n).map fun (tagStart : Option String) => tagStart.getD ""

/-- Reads the list of images; it is empty by default. -/
def readCommit (n : Node) : Except Fault (List String) :=
  (Node.record none (fun before key v =>
    match key with
    | "images" => Node.once key before (Node.list Node.text) v
    | _ => .ok before) n).map fun (images : Option (List String)) => images.getD []

/-- Reads one field of an entry. -/
def field (r : Fields) (key : String) (v : Node) : Except Fault Fields :=
  match key with
  | "repository" =>
    (Node.once key r.repository Node.text v).map fun x => { r with repository := x }
  | "release" =>
    (Node.once key r.release (Node.optional readRelease) v).map fun x => { r with release := x }
  | "commit" =>
    (Node.once key r.commit (Node.optional readCommit) v).map fun x => { r with commit := x }
  | _ => .ok r

/-- Reads an entry. -/
def read (n : Node) : Except Fault ConfiguredRepository := do
  let r ← Node.record ⟨none, none, none⟩ field n
  let repository ← Node.required "repository" r.repository
  return { repository := repository, release := r.release.join, commit := r.commit.join }

end ConfiguredRepository

namespace TestCommand

/-- The fields of a test command met so far. -/
structure Fields where
  program : Option (Option String)
  playbook : Option (Option String)
  inventory : Option (Option String)

/-- Reads one field of a test command. -/
def field (r : Fields) (key : String) (v : Node) : Except Fault Fields :=
  match key with
  | "program" =>
    (Node.once key r.program (Node.optional Node.text) v).map fun x => { r with program := x }
  | "playbook" =>
    (Node.once key r.playbook (Node.optional Node.text) v).map fun x => { r with playbook := x }
  | "inventory" =>
    (Node.once key r.inventory (Node.optional Node.text) v).map fun x => { r with inventory := x }
  | _ => .ok r

/-- Reads a test command. -/
def read (n : Node) : Except Fault TestCommand := do
  let r ← Node.record ⟨none, none, none⟩ field n
  return { program := r.program.join, playbook := r.playbook.join, inventory := r.inventory.join }

end TestCommand

namespace Configuration

/-- How many collections a value of an unknown setting may be nested in itself. -/
def unknownDepth : Nat := 127

/-- How often aliases may be followed, for every mark in the document. -/
def jumpFactor : Nat := 100

/-- The settings met so far. -/
structure Fields where
  repositories : Option (Option (List ConfiguredRepository)) := none
  maxCommits : Option (Option Nat) := none
  maxReleases : Option (Option Nat) := none
  concurrency : Option (Option Nat) := none
  forgeUrl : Option (Option String) := none
  snapshotFile : Option (Option String) := none
  versionsFile : Option (Option String) := none
  testAction : Option (Option TestCommand) := none
  tagMessage : Option (Option String) := none
  unknown : List (String × Node) := []

/-- Reads one setting. -/
def field (r : Fields) (key : String) (v : Node) : Except Fault Fields :=
  match key with
  | "repositories" =>
    (Node.once key r.repositories (Node.optional (Node.list ConfiguredRepository.read)) v).map fun x =>
      { r with repositories := x }
  | "max_commits" =>
    (Node.once key r.maxCommits (Node.optional Node.count) v).map fun x =>
      { r with maxCommits := x }
  | "max_releases" =>
    (Node.once key r.maxReleases (Node.optional Node.count) v).map fun x =>
      { r with maxReleases := x }
  | "concurrency" =>
    (Node.once key r.concurrency (Node.optional Node.count) v).map fun x =>
      { r with concurrency := x }
  | "github_api_url" =>
    (Node.once key r.forgeUrl (Node.optional Node.text) v).map fun x => { r with forgeUrl := x }
  | "snapshot_file" =>
    (Node.once key r.snapshotFile (Node.optional Node.text) v).map fun x =>
      { r with snapshotFile := x }
  | "versions_file" =>
    (Node.once key r.versionsFile (Node.optional Node.text) v).map fun x =>
      { r with versionsFile := x }
  | "test_action" =>
    (Node.once key r.testAction (Node.optional TestCommand.read) v).map fun x =>
      { r with testAction := x }
  | "tag_message" =>
    (Node.once key r.tagMessage (Node.optional Node.text) v).map fun x =>
      { r with tagMessage := x }
  | _ =>
    if v.isReadable unknownDepth then .ok { r with unknown := r.unknown ++ [(key, v)] }
    else .error .unreadable

/-- Reads the settings. -/
def read (n : Node) : Except Fault Configuration := do
  let r ← Node.record {} field n
  if r.unknown.any fun (_, v) => v.hasRepeatedKey then throw .unreadable
  return {
    repositories := r.repositories.join
    maxCommits := r.maxCommits.join
    maxReleases := r.maxReleases.join
    concurrency := r.concurrency.join
    forgeUrl := r.forgeUrl.join
    snapshotFile := r.snapshotFile.join
    versionsFile := r.versionsFile.join
    testAction := r.testAction.join
    tagMessage := r.tagMessage.join
    unknown := r.unknown.map Prod.fst }

/-- Reads the text of a configuration file, without a check of the values. -/
def parse (content : String) : Except Fault Configuration :=
  let d := Yaml.Document.read content
  match d.record read with
  | .error fault => .error fault
  | .ok config => if d.jumps > jumpFactor * d.marks then .error .unreadable else .ok config

end Configuration

end ReleaseCandidates
