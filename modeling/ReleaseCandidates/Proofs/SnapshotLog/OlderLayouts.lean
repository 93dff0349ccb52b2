import ReleaseCandidates.Proofs.RepositoryId.Canonical
import ReleaseCandidates.Proofs.SnapshotLog.RoundTrip
import ReleaseCandidates.Proofs.Yaml.Notations
import ReleaseCandidates.Proofs.Yaml.Tables

set_option autoImplicit false

/-! # Logs of the older layouts

Before names and mechanisms were stored, a snapshot listed its components without them, and before
that it had a table from keys to versions. What was left out follows from the rest for whatever a
scan can have found: the tag that a scan looks for has neither a colon nor a slash, so the address
of the image is known without it, and the name is made of that and the repository as the scan makes
it (`Component.toComponent_toOlder`). A key of the table names the repository, whatever follows it
(`Component.toComponent_toVersion`).

The layouts are trees, and nothing hangs on the notation in which a document holds them: the readers
go by the tree.

Main statement: `SnapshotLog.older_layouts_migrate`. -/

namespace ReleaseCandidates

open Yaml (Fault Node Tree)
open Yaml.Node (GoesByTree goesByTree_text)

/-! ## The readers go by the tree -/

theorem StoredComponent.goesByTree_field (r : Fields) (key : String) :
    GoesByTree (field r key) := by
  intro t n hheld r' hr
  unfold field at hr ⊢
  split at hr
  · exact ((goesByTree_text.once _ _).map _) t n hheld r' hr
  · exact ((goesByTree_text.once _ _).map _) t n hheld r' hr
  · exact ((goesByTree_text.optional.once _ _).map _) t n hheld r' hr
  · exact ((goesByTree_text.optional.once _ _).map _) t n hheld r' hr
  · exact ((goesByTree_text.optional.once _ _).map _) t n hheld r' hr
  · exact ((goesByTree_text.optional.once _ _).map _) t n hheld r' hr
  · exact hr

theorem StoredComponent.goesByTree_read : GoesByTree read :=
  (GoesByTree.record goesByTree_field _).bind _

theorem StoredVersion.goesByTree_field (r : Fields) (key : String) : GoesByTree (field r key) := by
  intro t n hheld r' hr
  unfold field at hr ⊢
  split at hr
  · exact ((goesByTree_text.once _ _).map _) t n hheld r' hr
  · exact ((goesByTree_text.optional.once _ _).map _) t n hheld r' hr
  · exact ((goesByTree_text.optional.once _ _).map _) t n hheld r' hr
  · exact hr

theorem StoredVersion.goesByTree_read : GoesByTree read :=
  (GoesByTree.record goesByTree_field _).bind _

theorem StoredMetadata.goesByTree_field (r : Fields) (key : String) : GoesByTree (field r key) := by
  intro t n hheld r' hr
  unfold field at hr ⊢
  split at hr
  · exact ((goesByTree_text.once _ _).map _) t n hheld r' hr
  · exact ((goesByTree_text.once _ _).map _) t n hheld r' hr
  · exact ((goesByTree_text.optional.once _ _).map _) t n hheld r' hr
  · exact hr

theorem StoredMetadata.goesByTree_read : GoesByTree read :=
  (GoesByTree.record goesByTree_field _).bind _

namespace StoredSnapshot

theorem goesByTree_field (r : Fields) (key : String) : GoesByTree (field r key) := by
  intro t n hheld r' hr
  unfold field at hr ⊢
  split at hr
  · exact ((StoredMetadata.goesByTree_read.once _ _).map _) t n hheld r' hr
  · exact ((StoredComponent.goesByTree_read.list.optional.once _ _).map _) t n hheld r' hr
  · exact ((StoredVersion.goesByTree_read.table.optional.once _ _).map _) t n hheld r' hr
  · exact hr

theorem goesByTree_read : GoesByTree read :=
  (GoesByTree.record goesByTree_field _).bind _

theorem goesByTree_readLog : GoesByTree readLog := by
  refine (GoesByTree.record (fun before key => ?_) none).map Option.join
  intro t n hheld r' hr
  split at hr
  · exact (goesByTree_read.list.optional.once _ _) t n hheld r' hr
  · exact hr

end StoredSnapshot

/-- A document holds the log that is read from its tree. -/
theorem SnapshotLog.ofDocument_of_holds {d : Yaml.Document} {t : Tree}
    {stored : Option (List StoredSnapshot)} (h : d.Holds t)
    (hread : StoredSnapshot.readLog t.node = .ok stored) : ofDocument d = ofStored stored := by
  have hroot := StoredSnapshot.goesByTree_readLog t d.root h.1 stored hread
  rw [ofDocument, Yaml.Document.record, hroot, h.2]
  rfl

/-! ## Components that a scan finds -/

namespace Component

/-- A component as a scan makes it: the repository is in its canonical spelling, and an image was
published under the tag for a commit. -/
inductive Scanned : Component → Prop where
  | release {repository : String} (tag : String)
      (canonical : RepositoryId.IsCanonical repository) : Scanned (ofRelease repository tag)
  | image {repository sha : String} (image : String) (digest : Option String)
      (canonical : RepositoryId.IsCanonical repository) (colon : ':' ∉ sha.toList)
      (slash : '/' ∉ sha.toList) : Scanned (ofImage repository sha image (imageTag sha) digest)

/-- A key of the older table for a component: its repository, or an accepted text that goes on
behind it, such as with the last part of the image. -/
def HasKey (c : Component) (key : String) : Prop :=
  key = c.repository ∨
    (∃ part, key = c.repository ++ "/" ++ part) ∧ (RepositoryId.parse key).isOk = true

variable {c : Component} {key : String}

theorem Scanned.isCanonical (h : c.Scanned) : RepositoryId.IsCanonical c.repository := by
  cases h with
  | release tag canonical => exact canonical
  | image image digest canonical colon slash => exact canonical

/-- The address of an image is known without its tag. -/
theorem dropImageTag_imageTag {sha : String} (image : String) (colon : ':' ∉ sha.toList)
    (slash : '/' ∉ sha.toList) : dropImageTag (image ++ ":" ++ imageTag sha) = image := by
  have hcolon : ':' ∉ (imageTag sha).toList := by simpa [imageTag] using colon
  have hslash : (imageTag sha).toList.contains '/' = false := by simpa [imageTag] using slash
  have htext : (image ++ ":" ++ imageTag sha).toList =
      image.toList ++ ':' :: (imageTag sha).toList := by simp
  rw [dropImageTag, htext, Text.cutLast_append image.toList hcolon]
  simp only [hslash, Bool.false_eq_true, if_false, String.ofList_toList]

theorem Scanned.impliedName_eq (h : c.Scanned) : impliedName c.repository c.imageUrl = c.name := by
  cases h with
  | release tag canonical => rfl
  | image image digest canonical colon slash =>
    show imageName _ (dropImageTag _) = _
    rw [dropImageTag_imageTag image colon slash]
    rfl

theorem Scanned.impliedMechanism_eq (h : c.Scanned) :
    impliedMechanism c.imageUrl = c.mechanism := by
  cases h <;> rfl

/-- The stored fields of a component in the older list. -/
def toOlder (c : Component) : StoredComponent where
  repository := c.repository
  ref := c.ref
  name := none
  mechanism := none
  imageUrl := c.imageUrl
  imageDigest := c.imageDigest

/-- The stored fields of a component in the older table. -/
def toVersion (c : Component) : StoredVersion where
  version := c.ref
  imageUrl := c.imageUrl
  imageDigest := c.imageDigest

/-- Name and mechanism follow from the rest. -/
theorem toComponent_toOlder (h : c.Scanned) : c.toOlder.toComponent = .ok c := by
  simp only [toOlder, StoredComponent.toComponent, Option.getD_none, h.impliedName_eq,
    h.impliedMechanism_eq]

theorem baseOf_key (h : c.Scanned) (hkey : c.HasKey key) :
    RepositoryId.baseOf key = .ok c.repository := by
  rcases hkey with rfl | ⟨⟨part, rfl⟩, haccepted⟩
  · exact h.isCanonical
  · exact RepositoryId.baseOf_append h.isCanonical haccepted

/-- The repository follows from the key. -/
theorem toComponent_toVersion (h : c.Scanned) (hkey : c.HasKey key) :
    c.toVersion.toComponent key = c := by
  simp only [StoredVersion.toComponent, baseOf_key h hkey, toVersion, h.impliedName_eq,
    h.impliedMechanism_eq]

end Component

/-! ## Snapshots in one of the layouts -/

/-- The components of a snapshot as they are laid out. -/
inductive ComponentLayout where
  /-- A list with every field. -/
  | current (components : List Component)
  /-- The older list, without names and mechanisms. -/
  | list (components : List Component)
  /-- The older table, whose keys stand for the repositories. -/
  | table (entries : List (String × Component)) (distinct : (entries.map Prod.fst).Nodup)

namespace ComponentLayout

/-- The tree of a component in the older list. -/
def olderTree (c : Component) : Tree :=
  .record ([("repository", .text c.repository), ("ref", .text c.ref)] ++
    SnapshotLog.optionalField "image_url" c.imageUrl ++
    SnapshotLog.optionalField "image_digest" c.imageDigest)

/-- The tree of a component in the older table. -/
def versionTree (c : Component) : Tree :=
  .record ([("version", .text c.ref)] ++ SnapshotLog.optionalField "image_url" c.imageUrl ++
    SnapshotLog.optionalField "image_digest" c.imageDigest)

/-- The field that holds the components. -/
def field : ComponentLayout → String × Tree
  | current components => ("components", .list (components.map SnapshotLog.componentTree))
  | list components => ("components", .list (components.map olderTree))
  | table entries _ => ("versions", .record (entries.map fun e => (e.1, versionTree e.2)))

/-- The components in the order in which they stand. -/
def given : ComponentLayout → List Component
  | current components => components
  | list components => components
  | table entries _ => entries.map Prod.snd

/-- The components in the order in which they are read: a table is read by its keys. -/
def migrated : ComponentLayout → List Component
  | current components => components
  | list components => components
  | table entries _ => (Yaml.sortedByKey entries).map Prod.snd

/-- Whether it is the older table. -/
def isTable : ComponentLayout → Bool
  | current _ | list _ => false
  | table _ _ => true

/-- Whether what is left out follows: the components are those of a scan, under keys of theirs. -/
def OfScan : ComponentLayout → Prop
  | current _ => True
  | list components => ∀ c ∈ components, c.Scanned
  | table entries _ => ∀ e ∈ entries, e.2.Scanned ∧ e.2.HasKey e.1

theorem migrated_perm (l : ComponentLayout) : l.migrated.Perm l.given := by
  cases l with
  | current components => exact .refl _
  | list components => exact .refl _
  | table entries distinct => exact (List.perm_insertionSort Yaml.KeyLE entries).map Prod.snd

theorem read_olderTree (c : Component) :
    StoredComponent.read (olderTree c).node = .ok c.toOlder := by
  obtain ⟨repository, ref, name, mechanism, imageUrl, imageDigest⟩ := c
  cases imageUrl <;> cases imageDigest <;>
    simp [olderTree, SnapshotLog.optionalField, StoredComponent.read, StoredComponent.field,
      Tree.record_node, Tree.foldFields_cons, Node.once, Node.required, Except.map, bind,
      Except.bind, pure, Except.pure, Component.toOlder]

theorem storable_olderTree (c : Component) : (olderTree c).Storable := by
  refine ⟨by simp, ?_⟩
  rw [SnapshotLog.fieldsStorable_append, SnapshotLog.fieldsStorable_append]
  refine ⟨⟨?_, SnapshotLog.fieldsStorable_optionalField (by decide) _⟩,
    SnapshotLog.fieldsStorable_optionalField (by decide) _⟩
  simp only [Tree.FieldsStorable, Tree.Storable, and_true, true_and]
  decide

theorem read_versionTree (c : Component) :
    StoredVersion.read (versionTree c).node = .ok c.toVersion := by
  obtain ⟨repository, ref, name, mechanism, imageUrl, imageDigest⟩ := c
  cases imageUrl <;> cases imageDigest <;>
    simp [versionTree, SnapshotLog.optionalField, StoredVersion.read, StoredVersion.field,
      Tree.record_node, Tree.foldFields_cons, Node.once, Node.required, Except.map, bind,
      Except.bind, pure, Except.pure, Component.toVersion]

end ComponentLayout

/-- A snapshot as it is laid out. -/
structure SnapshotLayout where
  standing : SnapshotStanding
  layout : ComponentLayout

namespace SnapshotLayout

/-- The tree of a snapshot. -/
def tree (s : SnapshotLayout) : Tree :=
  .record [("metadata", SnapshotLog.metadataTree s.standing), s.layout.field]

/-- The stored fields of a snapshot. -/
def toStored (s : SnapshotLayout) : StoredSnapshot :=
  match s.layout with
  | .current components => ⟨s.standing.toStored, some (components.map Component.toStored), none⟩
  | .list components => ⟨s.standing.toStored, some (components.map Component.toOlder), none⟩
  | .table entries _ => ⟨s.standing.toStored, none,
      some ((Yaml.sortedByKey entries).map fun e => (e.1, e.2.toVersion))⟩

/-- The snapshot that it stands for. -/
def snapshot (s : SnapshotLayout) : Snapshot := ⟨s.standing, s.layout.migrated⟩

variable {s : SnapshotLayout}

/-- A snapshot is read with what its table is read as. -/
theorem read_versions (m : SnapshotStanding) {t : Tree} {versions : List (String × StoredVersion)}
    (h : Node.optional (Node.table StoredVersion.read) t.node = .ok (some versions)) :
    StoredSnapshot.read
        (Tree.record [("metadata", SnapshotLog.metadataTree m), ("versions", t)]).node =
      .ok ⟨m.toStored, none, some versions⟩ := by
  simp [StoredSnapshot.read, StoredSnapshot.field, Tree.record_node, Tree.foldFields_cons,
    Node.once, Node.required, StoredMetadata.read_metadataTree, h, Except.map, bind, Except.bind,
    pure, Except.pure]

theorem read_tree (s : SnapshotLayout) : StoredSnapshot.read s.tree.node = .ok s.toStored := by
  obtain ⟨standing, layout⟩ := s
  cases layout with
  | current components => exact StoredSnapshot.read_snapshotTree ⟨standing, components⟩
  | list components =>
    refine StoredSnapshot.read_components standing ?_
    rw [Tree.optional_node_list, Tree.list_node_map ComponentLayout.read_olderTree]
    rfl
  | table entries distinct =>
    refine read_versions standing ?_
    rw [Tree.optional_node_record, Tree.table_node ComponentLayout.read_versionTree distinct]
    rfl

/-- Lists have plain words for keys, so the program itself could write them. -/
theorem storable_tree (h : s.layout.isTable = false) : s.tree.Storable := by
  obtain ⟨standing, layout⟩ := s
  cases layout with
  | current components =>
    exact SnapshotLog.storable_snapshotTree ⟨standing, components⟩
  | list components =>
    exact ⟨by simp, by decide, SnapshotLog.storable_metadataTree standing, by decide,
      SnapshotLog.itemsStorable_map fun c _ => ⟨rfl, ComponentLayout.storable_olderTree c⟩, trivial⟩
  | table entries distinct => cases h

/-- What is left out is found again. -/
theorem toSnapshot_toStored (h : s.layout.OfScan) : s.toStored.toSnapshot = .ok s.snapshot := by
  obtain ⟨standing, layout⟩ := s
  cases layout with
  | current components => exact Snapshot.toSnapshot_toStored ⟨standing, components⟩
  | list components =>
    exact StoredSnapshot.toSnapshot_of_components standing rfl
      (toComponents_map fun c hc => c.toComponent_toOlder (h c hc))
  | table entries distinct =>
    refine StoredSnapshot.toSnapshot_of_components standing rfl (congrArg Except.ok ?_)
    rw [List.map_map]
    refine List.map_congr_left fun e he => ?_
    obtain ⟨hscanned, hkey⟩ := h e ((List.mem_insertionSort Yaml.KeyLE).1 he)
    exact Component.toComponent_toVersion hscanned hkey

end SnapshotLayout

namespace SnapshotLog

/-- The tree of a log whose snapshots are laid out one way or another. -/
def layoutTree (layouts : List SnapshotLayout) : Tree :=
  .record [("snapshots", .list (layouts.map SnapshotLayout.tree))]

/-- The log that it stands for. -/
def ofLayouts (layouts : List SnapshotLayout) : SnapshotLog :=
  ⟨layouts.map SnapshotLayout.snapshot⟩

/-- A document that holds the layouts of snapshots of scans is read as their log. -/
theorem parse_of_holds {content : String} {layouts : List SnapshotLayout}
    (holds : (Yaml.Document.read content).Holds (layoutTree layouts))
    (scanned : ∀ s ∈ layouts, s.layout.OfScan) : parse content = .ok (ofLayouts layouts) := by
  rw [parse, ofDocument_of_holds holds
    (StoredSnapshot.readLog_map SnapshotLayout.read_tree layouts), ofStored,
    StoredSnapshot.toSnapshots_map 0 fun s hs => SnapshotLayout.toSnapshot_toStored (scanned s hs)]
  rfl

/-- Of lists nothing has to be supposed: what the program would write for them it reads back. -/
theorem parse_render_layoutTree {layouts : List SnapshotLayout}
    (lists : ∀ s ∈ layouts, s.layout.isTable = false)
    (scanned : ∀ s ∈ layouts, s.layout.OfScan) :
    parse (layoutTree layouts).render = .ok (ofLayouts layouts) := by
  have hstorable : (layoutTree layouts).Storable :=
    ⟨by simp, by decide,
      itemsStorable_map fun s hs => ⟨rfl, SnapshotLayout.storable_tree (lists s hs)⟩, trivial⟩
  exact parse_of_holds (Yaml.Document.holds_render rfl hstorable) scanned

theorem holdsNewest_ofLayouts {newest : SnapshotLayout} {older : List SnapshotLayout}
    {offered : List Component} (h : ∀ c, c ∈ offered ↔ c ∈ newest.layout.given) :
    (ofLayouts (newest :: older)).holdsNewest offered = true := by
  show sameComponents newest.layout.migrated offered = true
  rw [sameComponents_iff]
  intro k
  simp only [List.mem_map, newest.layout.migrated_perm.mem_iff, h]

/-- **Logs of the older layouts stand for what a scan has recorded.** Let a document hold snapshots,
each laid out as the current list, as the older list or as the older table, and let the components
in the older ones be such as a scan finds, those of a table under keys of theirs. Then it is read as
the log of all these snapshots with exactly these components, a list in its order and a table in the
order of its keys; and offering the components of the newest snapshot once more, in any order,
changes nothing. -/
theorem older_layouts_migrate {content : String} {layouts : List SnapshotLayout}
    (holds : (Yaml.Document.read content).Holds (layoutTree layouts))
    (scanned : ∀ s ∈ layouts, s.layout.OfScan) :
    parse content = .ok (ofLayouts layouts) ∧
      ∀ (newest : SnapshotLayout) (older : List SnapshotLayout) (offered : List Component)
        (time : Instant), layouts = newest :: older →
        (∀ c, c ∈ offered ↔ c ∈ newest.layout.given) →
          (ofLayouts layouts).offer offered time = (.unchanged, ofLayouts layouts) := by
  refine ⟨parse_of_holds holds scanned, ?_⟩
  rintro newest older offered time rfl hoffered
  exact offer_of_holdsNewest time (holdsNewest_ofLayouts hoffered)

/-- The lines of a log with a snapshot in the older table above one in the older list. -/
def olderLines : List String := [
  "snapshots:",
  "- metadata:",
  "    generated_at: \"2025-03-11T12:00\"",
  "    status: pending",
  "  versions:",
  "    o/b/c:",
  "      version: c2",
  "      image_url: localhost:5000/c:latest-c2",
  "    o/a:",
  "      version: v1",
  "- metadata:",
  "    generated_at: 2025-03-10T12:00",
  "    status: failed",
  "  components:",
  "  - repository: o/s",
  "    ref: c1",
  "    image_url: quay.io/s:latest-c1"]

/-- The text of the log. -/
def olderLog : String :=
  String.ofList (olderLines.flatMap fun line => line.toList ++ ['\n'])

/-- The layouts of its snapshots. -/
def olderLayouts : List SnapshotLayout := [
  ⟨⟨"2025-03-11T12:00", .pending, none⟩, .table [
    ("o/b/c", .ofImage "o/b" "c2" "localhost:5000/c" (imageTag "c2") none),
    ("o/a", .ofRelease "o/a" "v1")] (by decide)⟩,
  ⟨⟨"2025-03-10T12:00", .failed, none⟩, .list [
    .ofImage "o/s" "c1" "quay.io/s" (imageTag "c1") none]⟩]

theorem older_layouts_migrate_of_table_above_list :
    parse olderLog = .ok ⟨[
        ⟨⟨"2025-03-11T12:00", .pending, none⟩, [.ofRelease "o/a" "v1",
          .ofImage "o/b" "c2" "localhost:5000/c" (imageTag "c2") none]⟩,
        ⟨⟨"2025-03-10T12:00", .failed, none⟩,
          [.ofImage "o/s" "c1" "quay.io/s" (imageTag "c1") none]⟩]⟩ ∧
      ((ofLayouts olderLayouts).offer [.ofImage "o/b" "c2" "localhost:5000/c" (imageTag "c2") none,
        .ofRelease "o/a" "v1"] .epoch).1 = .unchanged := by
  have hholds : (Yaml.Document.read olderLog).Holds (layoutTree olderLayouts) := by
    rw [Yaml.Document.read, Yaml.scan_eq, olderLog, String.toList_ofList]
    decide +kernel
  have hscanned : ∀ s ∈ olderLayouts, s.layout.OfScan := by
    simp only [olderLayouts, List.forall_mem_cons, List.not_mem_nil, ComponentLayout.OfScan]
    refine ⟨⟨⟨.image _ _ ?_ ?_ ?_, .inr ⟨⟨"c", rfl⟩, ?_⟩⟩, ⟨.release _ ?_, .inl rfl⟩, nofun⟩,
      ⟨.image _ _ ?_ ?_ ?_, nofun⟩, nofun⟩
    all_goals decide +kernel
  have hlog : ofLayouts olderLayouts = ⟨[
      ⟨⟨"2025-03-11T12:00", .pending, none⟩, [.ofRelease "o/a" "v1",
        .ofImage "o/b" "c2" "localhost:5000/c" (imageTag "c2") none]⟩,
      ⟨⟨"2025-03-10T12:00", .failed, none⟩,
        [.ofImage "o/s" "c1" "quay.io/s" (imageTag "c1") none]⟩]⟩ := by
    decide +kernel
  obtain ⟨hparse, hoffer⟩ := older_layouts_migrate hholds hscanned
  refine ⟨hlog ▸ hparse, congrArg Prod.fst (hoffer _ _ _ .epoch rfl fun c => ?_)⟩
  simp [ComponentLayout.given]

end SnapshotLog

end ReleaseCandidates
