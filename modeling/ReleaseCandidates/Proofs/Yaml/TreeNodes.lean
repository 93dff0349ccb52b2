import ReleaseCandidates.Yaml.Record
import ReleaseCandidates.Yaml.Tree

set_option autoImplicit false

/-! # What the readers make of a tree

A tree that was written comes back as a node for each text, list and record in it. Here it is said
what the readers find there: a text is set apart in a way that cannot be taken for an absent value,
the items of a list are read one by one, and the fields of a record in their order. -/

namespace ReleaseCandidates.Yaml

/-! ## Texts that are written -/

/-- What is written plain stands for a text, so it is neither empty nor a word for nothing. -/
theorem meaning_of_writtenStyle_plain {s : String} (h : writtenStyle s = .plain) :
    meaning s = .text s := by
  unfold writtenStyle at h
  simp only at h
  split at h
  · split at h <;> cases h
  · split at h
    · rename_i hplain
      simp only [Bool.and_eq_true, decide_eq_true_eq] at hplain
      exact hplain.1.1
    · split at h <;> cases h

theorem not_absent_of_meaning_text {s : String} (h : meaning s = .text s) :
    (s.isEmpty || isNullWord s) = false := by
  cases habsent : s.isEmpty || isNullWord s with
  | false => rfl
  | true => simp [meaning, habsent] at h

namespace Tree

@[simp] theorem text_node (s : String) : (Tree.text s).node.text = .ok s := rfl

theorem isAbsent_node_text (s : String) : (Tree.text s).node.isAbsent = .ok false := by
  simp only [Tree.node, Node.isAbsent]
  cases hstyle : writtenStyle s with
  | plain => simp [not_absent_of_meaning_text (meaning_of_writtenStyle_plain hstyle)]
  | singleQuoted => rfl
  | doubleQuoted => rfl
  | literal => rfl
  | folded => rfl

/-- A text that is written is no list and no record without entries. -/
theorem isBare_node_text (s : String) : (Tree.text s).node.isBare = false := by
  cases hbare : (Tree.text s).node.isBare with
  | false => rfl
  | true =>
    -- what is bare is absent too
    have habsent := isAbsent_node_text s
    simp only [Tree.node, Node.isBare, Bool.and_eq_true, beq_iff_eq] at hbare
    simp [Tree.node, Node.isAbsent, hbare.1, hbare.2] at habsent

/-- A text that is written is never taken for an absent one. -/
@[simp] theorem optional_text_node (s : String) :
    Node.optional Node.text (Tree.text s).node = .ok (some s) := by
  simp [Node.optional, isAbsent_node_text, Except.map]

@[simp] theorem optional_node_list {α : Type} (read : Node → Except Fault α) (items : List Tree) :
    Node.optional read (Tree.list items).node = (read (Tree.list items).node).map some := rfl

@[simp] theorem optional_node_record {α : Type} (read : Node → Except Fault α)
    (fields : List (String × Tree)) :
    Node.optional read (Tree.record fields).node = (read (Tree.record fields).node).map some := rfl

variable {ρ : Type} {step : ρ → String → Node → Except Fault ρ}

theorem record_node (start : ρ) (fields : List (String × Tree)) :
    Node.record start step (Tree.record fields).node =
      Node.foldFields step start (Tree.fieldNodes fields) := rfl

@[simp] theorem foldFields_nil (r : ρ) :
    Node.foldFields step r (Tree.fieldNodes []) = .ok r := rfl

theorem foldFields_cons (r : ρ) (key : String) (t : Tree) (fields : List (String × Tree)) :
    Node.foldFields step r (Tree.fieldNodes ((key, t) :: fields)) =
      match step r key t.node with
      | .error fault => .error fault
      | .ok r => Node.foldFields step r (Tree.fieldNodes fields) := rfl

/-- The items of a list are read one by one. -/
theorem list_node_map {α β : Type} {read : Node → Except Fault β} {write : α → Tree}
    {result : α → β} (h : ∀ a, read (write a).node = .ok (result a)) (as : List α) :
    Node.list read (Tree.list (as.map write)).node = .ok (as.map result) := by
  have hitems : Node.readItems read (Tree.itemNodes (as.map write)) = .ok (as.map result) := by
    induction as with
    | nil => rfl
    | cons a as ih => simp only [List.map_cons, Tree.itemNodes, Node.readItems, h, ih]
  simpa only [Tree.node, Node.list] using hitems

end Tree

end ReleaseCandidates.Yaml
