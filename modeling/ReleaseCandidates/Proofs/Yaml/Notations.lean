import ReleaseCandidates.Proofs.Yaml.RoundTrip
import ReleaseCandidates.Proofs.Yaml.TreeNodes

set_option autoImplicit false

/-! # Trees in any notation

A tree of texts, lists and records can be written in many ways: with other quotes, in flow style,
with tags that fit, over anchors and aliases. A document holds a tree if all its texts are read as
texts and stand in the same places (`Document.Holds`); what the program writes itself is one such
document (`Document.holds_render`).

The readers of records go by the tree alone (`Node.GoesByTree`): what they read from a tree as it is
written they read from every document that holds it. Each way to put readers together keeps that. -/

namespace ReleaseCandidates.Yaml

/-! ## Nodes that hold a tree -/

namespace Tree

mutual

/-- Whether a node holds a tree: its texts are present and are read as written, its items and fields
stand in their order. Tags do not count. -/
def heldBy : Tree → Node → Bool
  | .text s, n => decide (n.text = .ok s) && decide (n.isAbsent = .ok false)
  | .list items, .sequence _ nodes => itemsHeldBy items nodes
  | .record fields, .mapping _ entries => fieldsHeldBy fields entries
  | _, _ => false

/-- Whether nodes hold the items of a list. -/
def itemsHeldBy : List Tree → List Node → Bool
  | [], [] => true
  | t :: ts, n :: ns => t.heldBy n && itemsHeldBy ts ns
  | _, _ => false

/-- Whether entries hold the fields of a record. -/
def fieldsHeldBy : List (String × Tree) → List (Node × Node) → Bool
  | [], [] => true
  | (key, t) :: fields, (k, n) :: entries =>
    decide (k.keyText = .ok key) && t.heldBy n && fieldsHeldBy fields entries
  | _, _ => false

end

mutual

/-- What a tree is read back as holds it. -/
theorem heldBy_node : ∀ t : Tree, t.heldBy t.node = true
  | .text s => by
    rw [heldBy, isAbsent_node_text, text_node]
    simp
  | .list items => itemsHeldBy_itemNodes items
  | .record fields => fieldsHeldBy_fieldNodes fields

theorem itemsHeldBy_itemNodes : ∀ items : List Tree, itemsHeldBy items (itemNodes items) = true
  | [] => rfl
  | t :: ts => by
    rw [itemNodes, itemsHeldBy, heldBy_node t, itemsHeldBy_itemNodes ts, Bool.and_self]

theorem fieldsHeldBy_fieldNodes :
    ∀ fields : List (String × Tree), fieldsHeldBy fields (fieldNodes fields) = true
  | [] => rfl
  | (key, t) :: fields => by
    rw [fieldNodes, fieldsHeldBy, heldBy_node t, fieldsHeldBy_fieldNodes fields]
    simp [Node.keyText, Node.text]

end

variable {t : Tree} {n : Node}

/-- A node that holds a tree is no absent value. -/
theorem isAbsent_of_heldBy (h : t.heldBy n = true) : n.isAbsent = .ok false := by
  cases t with
  | text s =>
    rw [heldBy, Bool.and_eq_true] at h
    exact of_decide_eq_true h.2
  | list items =>
    cases n with
    | sequence tag nodes => rfl
    | _ => cases h
  | record fields =>
    cases n with
    | mapping tag entries => rfl
    | _ => cases h

end Tree

/-- The text holds one document, and that holds a tree. -/
def Document.Holds (d : Document) (t : Tree) : Prop :=
  t.heldBy d.root = true ∧ d.complete = true

instance (d : Document) (t : Tree) : Decidable (d.Holds t) :=
  inferInstanceAs (Decidable (_ ∧ _))

/-- What the program writes for a tree is a document that holds it. -/
theorem Document.holds_render {t : Tree} (hrecord : t.isRecord = true) (ht : t.Storable) :
    (Document.read t.render).Holds t := by
  obtain ⟨hroot, hcomplete⟩ := Document.read_render hrecord ht
  exact ⟨hroot ▸ t.heldBy_node, hcomplete⟩

/-! ## Readers that go by the tree -/

theorem bind_eq_ok_iff {α β : Type} {x : Except Fault α} {f : α → Except Fault β} {b : β} :
    x >>= f = .ok b ↔ ∃ a, x = .ok a ∧ f a = .ok b := by
  cases x with
  | error fault => exact ⟨nofun, fun ⟨a, ha, _⟩ => nomatch ha⟩
  | ok a =>
    constructor
    · exact fun h => ⟨a, rfl, h⟩
    · rintro ⟨a', ha, h⟩
      obtain rfl := Except.ok.inj ha
      exact h

namespace Node

/-- What is read from a tree as it is written is read from every node that holds it. -/
def GoesByTree {α : Type} (read : Node → Except Fault α) : Prop :=
  ∀ (t : Tree) (n : Node), t.heldBy n = true → ∀ a, read t.node = .ok a → read n = .ok a

variable {α β ρ : Type} {read : Node → Except Fault α} {step : ρ → String → Node → Except Fault ρ}

theorem readItems_cons (n : Node) (ns : List Node) : readItems read (n :: ns) =
    read n >>= fun a => readItems read ns >>= fun as => .ok (a :: as) := by
  rw [readItems]
  cases read n with
  | error fault => rfl
  | ok a => cases readItems read ns <;> rfl

theorem foldFields_cons {k n : Node} {key : String} (hkey : k.keyText = .ok key) (r : ρ)
    (entries : List (Node × Node)) : foldFields step r ((k, n) :: entries) =
      step r key n >>= fun r => foldFields step r entries := by
  rw [foldFields, hkey]
  dsimp only
  cases step r key n <;> rfl

theorem goesByTree_text : GoesByTree text := by
  intro t n h s hs
  cases t with
  | text s' =>
    obtain rfl := Except.ok.inj hs
    rw [Tree.heldBy, Bool.and_eq_true] at h
    exact of_decide_eq_true h.1
  | list items => cases hs
  | record fields => cases hs

namespace GoesByTree

theorem bind (h : GoesByTree read) (f : α → Except Fault β) :
    GoesByTree fun n => read n >>= f := by
  intro t n hheld b hb
  obtain ⟨a, ha, hf⟩ := bind_eq_ok_iff.1 hb
  exact bind_eq_ok_iff.2 ⟨a, h t n hheld a ha, hf⟩

theorem map (h : GoesByTree read) (f : α → β) : GoesByTree fun n => (read n).map f :=
  h.bind fun a => .ok (f a)

theorem optional (h : GoesByTree read) : GoesByTree (Node.optional read) := by
  intro t n hheld a ha
  rw [Node.optional, Tree.isAbsent_of_heldBy t.heldBy_node] at ha
  rw [Node.optional, Tree.isAbsent_of_heldBy hheld]
  exact h.map some t n hheld a ha

theorem once (h : GoesByTree read) (name : String) (before : Option α) :
    GoesByTree (Node.once name before read) := by
  intro t n hheld a ha
  rw [Node.once] at ha ⊢
  split at ha
  · cases ha
  · rw [if_neg ‹_›]
    exact h.map some t n hheld a ha

theorem readItems (h : GoesByTree read) {items : List Tree} {nodes : List Node}
    (hheld : Tree.itemsHeldBy items nodes = true) {as : List α}
    (has : Node.readItems read (Tree.itemNodes items) = .ok as) :
    Node.readItems read nodes = .ok as := by
  induction items generalizing nodes as with
  | nil =>
    cases nodes with
    | nil => exact has
    | cons n ns => cases hheld
  | cons t ts ih =>
    cases nodes with
    | nil => cases hheld
    | cons n ns =>
      rw [Tree.itemsHeldBy, Bool.and_eq_true] at hheld
      rw [Tree.itemNodes, readItems_cons, bind_eq_ok_iff] at has
      obtain ⟨a, ha, hrest⟩ := has
      obtain ⟨rest, hrest, hcons⟩ := bind_eq_ok_iff.1 hrest
      rw [readItems_cons, bind_eq_ok_iff]
      exact ⟨a, h t n hheld.1 a ha, bind_eq_ok_iff.2 ⟨rest, ih hheld.2 hrest, hcons⟩⟩

theorem list (h : GoesByTree read) : GoesByTree (Node.list read) := by
  intro t n hheld as has
  cases t with
  | text s =>
    have hitems : Node.list read (Tree.text s).node = .error .unreadable := by
      show (if (Tree.text s).node.isBare then _ else _) = _
      rw [Tree.isBare_node_text]
      rfl
    rw [hitems] at has
    cases has
  | list items =>
    cases n with
    | sequence tag nodes => exact h.readItems hheld has
    | _ => cases hheld
  | record fields => cases has

theorem foldFields (h : ∀ r key, GoesByTree (step r key)) {fields : List (String × Tree)}
    {entries : List (Node × Node)} (hheld : Tree.fieldsHeldBy fields entries = true) {r r' : ρ}
    (hr : Node.foldFields step r (Tree.fieldNodes fields) = .ok r') :
    Node.foldFields step r entries = .ok r' := by
  induction fields generalizing entries r with
  | nil =>
    cases entries with
    | nil => exact hr
    | cons entry entries => cases hheld
  | cons field fields ih =>
    obtain ⟨key, t⟩ := field
    cases entries with
    | nil => cases hheld
    | cons entry entries =>
      obtain ⟨k, n⟩ := entry
      simp only [Tree.fieldsHeldBy, Bool.and_eq_true, decide_eq_true_eq] at hheld
      obtain ⟨⟨hkey, hn⟩, hentries⟩ := hheld
      rw [Tree.fieldNodes, foldFields_cons rfl, bind_eq_ok_iff] at hr
      obtain ⟨r₁, hstep, hrest⟩ := hr
      rw [foldFields_cons hkey, bind_eq_ok_iff]
      exact ⟨r₁, h r key t n hn r₁ hstep, ih hentries hrest⟩

theorem record (h : ∀ r key, GoesByTree (step r key)) (start : ρ) :
    GoesByTree (Node.record start step) := by
  intro t n hheld r hr
  cases t with
  | text s =>
    have hentries : (Tree.text s).node.entries = .error .unreadable := by
      show (if (Tree.text s).node.isBare then _ else _) = _
      rw [Tree.isBare_node_text]
      rfl
    rw [Node.record, hentries] at hr
    cases hr
  | list items => cases hr
  | record fields =>
    cases n with
    | mapping tag entries => exact foldFields h hheld hr
    | _ => cases hheld

theorem table (h : GoesByTree read) : GoesByTree (Node.table read) :=
  record (fun acc key => h.map fun a => insertSorted key a acc) []

end GoesByTree

end Node

end ReleaseCandidates.Yaml
