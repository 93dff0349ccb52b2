import ReleaseCandidates.Proofs.FileSystem.Replaced
import ReleaseCandidates.Proofs.SnapshotLog.Decoding
import ReleaseCandidates.Proofs.Yaml.RoundTrip
import ReleaseCandidates.SnapshotLog.Stored

set_option autoImplicit false

/-! # Logs are read back

A log that is written and read again is the same log, whatever texts its entries hold
(`SnapshotLog.parse_render`). So rewriting a stored log in the current layout loses nothing of what
was read from it in any layout, and rewriting it again changes nothing
(`SnapshotLog.decoding_undoes_encoding`). -/

namespace ReleaseCandidates

open Yaml (Tree)

namespace SnapshotLog

/-! ## The trees of logs can be stored -/

theorem fieldsStorable_append {fields fields' : List (String × Tree)} :
    Tree.FieldsStorable (fields ++ fields') ↔
      Tree.FieldsStorable fields ∧ Tree.FieldsStorable fields' := by
  induction fields with
  | nil => simp [Tree.FieldsStorable]
  | cons field fields ih => simp [Tree.FieldsStorable, ih, and_assoc]

theorem fieldsStorable_optionalField {key : String} (h : Yaml.IsKey key) (value : Option String) :
    Tree.FieldsStorable (optionalField key value) := by
  cases value with
  | none => exact trivial
  | some s => exact ⟨h, trivial, trivial⟩

theorem itemsStorable_map {α : Type} {f : α → Tree} {items : List α}
    (h : ∀ a ∈ items, (f a).isRecord = true ∧ (f a).Storable) :
    Tree.ItemsStorable (items.map f) := by
  induction items with
  | nil => exact trivial
  | cons a items ih =>
    obtain ⟨⟨hrecord, hstorable⟩, hitems⟩ := List.forall_mem_cons.1 h
    exact ⟨hrecord, hstorable, ih hitems⟩

theorem storable_componentTree (c : Component) : (componentTree c).Storable := by
  refine ⟨by simp, ?_⟩
  rw [fieldsStorable_append, fieldsStorable_append]
  refine ⟨⟨?_, fieldsStorable_optionalField (by decide) _⟩,
    fieldsStorable_optionalField (by decide) _⟩
  simp only [Tree.FieldsStorable, Tree.Storable, and_true, true_and]
  decide

theorem storable_metadataTree (m : SnapshotStanding) : (metadataTree m).Storable := by
  refine ⟨by simp, ?_⟩
  rw [fieldsStorable_append]
  refine ⟨?_, fieldsStorable_optionalField (by decide) _⟩
  simp only [Tree.FieldsStorable, Tree.Storable, and_true, true_and]
  decide

theorem storable_snapshotTree (s : Snapshot) : (snapshotTree s).Storable :=
  ⟨by simp, by decide, storable_metadataTree s.metadata, by decide,
    itemsStorable_map fun c _ => ⟨rfl, storable_componentTree c⟩, trivial⟩

theorem storable_tree (log : SnapshotLog) : log.tree.Storable :=
  ⟨by simp, by decide, itemsStorable_map fun s _ => ⟨rfl, storable_snapshotTree s⟩, trivial⟩

/-! ## Reading back -/

/-- **What is written for a log is read as that log.** -/
theorem parse_render (log : SnapshotLog) : parse log.render = .ok log := by
  obtain ⟨hroot, hcomplete⟩ := Yaml.Document.read_render rfl (storable_tree log)
  exact ofDocument_of_root hroot hcomplete

/-- Rewrites a stored log in the current layout. -/
def migrate (content : String) : Except LogProblem String :=
  (parse content).map render

/-- **Decoding undoes encoding, and migration is idempotent.** Every log comes back from the text
that is written for it, and that text is what saving it leaves in the file. A content in any layout
that can be read stands for the same log after it is rewritten, and a rewritten one stays as it is. -/
theorem decoding_undoes_encoding :
    (∀ log : SnapshotLog, parse log.render = .ok log) ∧
      (∀ (path : String) (log : SnapshotLog) (fs : FileSystem),
        (StoredLog.save path log fs).map (fun fs' => fs'.inspect path) =
          (StoredLog.save path log fs).map fun _ => .ok (.file (.text log.render))) ∧
      ∀ content : String, (migrate content).bind parse = parse content ∧
        (migrate content).bind migrate = migrate content := by
  refine ⟨parse_render, ?_, ?_⟩
  · intro path log fs
    cases hsave : StoredLog.save path log fs with
    | error failure => rfl
    | ok fs' =>
      show Except.ok (fs'.inspect path) = _
      rw [FileSystem.inspect_of_replaceFile hsave]
      rfl
  · intro content
    unfold migrate
    cases hparse : parse content with
    | error problem => exact ⟨rfl, rfl⟩
    | ok log =>
      refine ⟨parse_render log, ?_⟩
      show (parse log.render).map render = .ok log.render
      rw [parse_render]
      rfl

end SnapshotLog

end ReleaseCandidates
