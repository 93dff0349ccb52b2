import ReleaseCandidates.Proofs.Yaml.TreeNodes
import ReleaseCandidates.SnapshotLog.Layout

set_option autoImplicit false

/-! # What is written is what is decoded

A log is written as a tree of records and read from the tree of a document by readers of their own,
which know three layouts and leave much out. `SnapshotLog.ofDocument_of_root` says that on the trees
that are written the readers undo the writer, field for field and for any texts: a field that is
left out is read as none, and the words for status and mechanism stand for what they were written
for. -/

namespace ReleaseCandidates

open Yaml (Fault Node Tree)

/-! ## Fields as they are written -/

/-- The stored fields of a component that is written: all that it has. -/
def Component.toStored (c : Component) : StoredComponent where
  repository := c.repository
  ref := c.ref
  name := some c.name
  mechanism := some c.mechanism.word
  imageUrl := c.imageUrl
  imageDigest := c.imageDigest

/-- The stored metadata of a snapshot that is written. -/
def SnapshotStanding.toStored (m : SnapshotStanding) : StoredMetadata where
  generatedAt := m.generatedAt
  status := m.status.word
  testedAt := m.testedAt

/-- The stored fields of a snapshot that is written: the older table is not among them. -/
def Snapshot.toStored (s : Snapshot) : StoredSnapshot where
  metadata := s.metadata.toStored
  components := some (s.components.map Component.toStored)
  versions := none

/-! ## From the tree to the fields -/

theorem StoredComponent.read_componentTree (c : Component) :
    StoredComponent.read (SnapshotLog.componentTree c).node = .ok c.toStored := by
  obtain ⟨repository, ref, name, mechanism, imageUrl, imageDigest⟩ := c
  cases imageUrl <;> cases imageDigest <;>
    simp [SnapshotLog.componentTree, SnapshotLog.optionalField, StoredComponent.read,
      StoredComponent.field, Tree.record_node, Tree.foldFields_cons, Node.once, Node.required,
      Except.map, bind, Except.bind, pure, Except.pure, Component.toStored]

theorem StoredMetadata.read_metadataTree (m : SnapshotStanding) :
    StoredMetadata.read (SnapshotLog.metadataTree m).node = .ok m.toStored := by
  obtain ⟨generatedAt, status, testedAt⟩ := m
  cases testedAt <;>
    simp [SnapshotLog.metadataTree, SnapshotLog.optionalField, StoredMetadata.read,
      StoredMetadata.field, Tree.record_node, Tree.foldFields_cons, Node.once, Node.required,
      Except.map, bind, Except.bind, pure, Except.pure, SnapshotStanding.toStored]

/-- A snapshot is read with what its list of components is read as. -/
theorem StoredSnapshot.read_components (m : SnapshotStanding) {t : Tree}
    {components : List StoredComponent}
    (h : Node.optional (Node.list StoredComponent.read) t.node = .ok (some components)) :
    StoredSnapshot.read
        (Tree.record [("metadata", SnapshotLog.metadataTree m), ("components", t)]).node =
      .ok ⟨m.toStored, some components, none⟩ := by
  simp [StoredSnapshot.read, StoredSnapshot.field, Tree.record_node, Tree.foldFields_cons,
    Node.once, Node.required, StoredMetadata.read_metadataTree, h, Except.map, bind, Except.bind,
    pure, Except.pure]

theorem StoredSnapshot.read_snapshotTree (s : Snapshot) :
    StoredSnapshot.read (SnapshotLog.snapshotTree s).node = .ok s.toStored := by
  refine StoredSnapshot.read_components s.metadata ?_
  rw [Tree.optional_node_list, Tree.list_node_map StoredComponent.read_componentTree]
  rfl

/-- A log is read with what its snapshots are read as. -/
theorem StoredSnapshot.readLog_map {α : Type} {write : α → Tree} {stored : α → StoredSnapshot}
    (h : ∀ a, StoredSnapshot.read (write a).node = .ok (stored a)) (as : List α) :
    StoredSnapshot.readLog (Tree.record [("snapshots", .list (as.map write))]).node =
      .ok (some (as.map stored)) := by
  simp [StoredSnapshot.readLog, Tree.record_node, Tree.foldFields_cons, Node.once,
    Tree.list_node_map h, Except.map]

theorem StoredSnapshot.readLog_tree (log : SnapshotLog) :
    StoredSnapshot.readLog log.tree.node = .ok (some (log.snapshots.map Snapshot.toStored)) :=
  readLog_map read_snapshotTree log.snapshots

/-! ## From the fields to the log -/

theorem Component.toComponent_toStored (c : Component) : c.toStored.toComponent = .ok c := by
  simp [Component.toStored, StoredComponent.toComponent, Mechanism.ofWord?_word]

/-- The components of a list are taken one by one. -/
theorem toComponents_map {stored : Component → StoredComponent} {cs : List Component}
    (h : ∀ c ∈ cs, (stored c).toComponent = .ok c) : toComponents (cs.map stored) = .ok cs := by
  induction cs with
  | nil => rfl
  | cons c cs ih =>
    obtain ⟨hc, hcs⟩ := List.forall_mem_cons.1 h
    simp only [List.map_cons, toComponents, hc, ih hcs]

theorem toComponents_toStored (cs : List Component) :
    toComponents (cs.map Component.toStored) = .ok cs :=
  toComponents_map fun c _ => c.toComponent_toStored

/-- A snapshot stands for what its components stand for, whichever way they are stored. -/
theorem StoredSnapshot.toSnapshot_of_components (m : SnapshotStanding) {stored : StoredSnapshot}
    {components : List Component} (hmetadata : stored.metadata = m.toStored)
    (hcomponents : stored.toComponentList = .ok components) :
    stored.toSnapshot = .ok ⟨m, components⟩ := by
  rw [StoredSnapshot.toSnapshot, hmetadata, hcomponents]
  simp only [SnapshotStanding.toStored, Status.parse_word]

theorem Snapshot.toSnapshot_toStored (s : Snapshot) : s.toStored.toSnapshot = .ok s :=
  StoredSnapshot.toSnapshot_of_components s.metadata rfl (toComponents_toStored s.components)

/-- The snapshots of a log are taken one by one. -/
theorem StoredSnapshot.toSnapshots_map {α : Type} {stored : α → StoredSnapshot}
    {snapshot : α → Snapshot} {as : List α} (index : Nat)
    (h : ∀ a ∈ as, (stored a).toSnapshot = .ok (snapshot a)) :
    StoredSnapshot.toSnapshots index (as.map stored) = .ok (as.map snapshot) := by
  induction as generalizing index with
  | nil => rfl
  | cons a as ih =>
    obtain ⟨ha, has⟩ := List.forall_mem_cons.1 h
    simp only [List.map_cons, StoredSnapshot.toSnapshots, ha, ih (index + 1) has]

theorem StoredSnapshot.toSnapshots_toStored (index : Nat) (snapshots : List Snapshot) :
    StoredSnapshot.toSnapshots index (snapshots.map Snapshot.toStored) = .ok snapshots := by
  rw [toSnapshots_map index fun s _ => s.toSnapshot_toStored, List.map_id']

/-- **The readers undo the writer.** A document with the tree that a log is written as holds that
log. -/
theorem SnapshotLog.ofDocument_of_root {d : Yaml.Document} {log : SnapshotLog}
    (hroot : d.root = log.tree.node) (hcomplete : d.complete = true) :
    SnapshotLog.ofDocument d = .ok log := by
  have hrecord : d.record StoredSnapshot.readLog =
      .ok (some (log.snapshots.map Snapshot.toStored)) := by
    simp only [Yaml.Document.record, hroot, StoredSnapshot.readLog_tree, hcomplete, if_true]
  simp only [SnapshotLog.ofDocument, hrecord, SnapshotLog.ofStored,
    StoredSnapshot.toSnapshots_toStored]

end ReleaseCandidates
