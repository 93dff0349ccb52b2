import ReleaseCandidates.Proofs.Yaml.Storable
import ReleaseCandidates.Yaml.Document

set_option autoImplicit false

/-! # From the tokens of a tree to the tree

The builder makes of the tokens of a stored tree the tree again (`node_tokens`), and leaves the
tokens after them. Its fuel is four for each token, more than the calls that one token takes. -/

namespace ReleaseCandidates.Yaml.Builder

variable {b : Builder} {x : Token} {rest : List Token} {fuel : Nat}

/-- The builder further on, with so many more marks. -/
def past (b : Builder) (rest : List Token) (marks : Nat) : Builder :=
  { b with tokens := rest, marks := b.marks + marks }

@[simp] theorem past_tokens (b : Builder) (rest : List Token) (n : Nat) :
    (b.past rest n).tokens = rest := rfl

@[simp] theorem past_broken (b : Builder) (rest : List Token) (n : Nat) :
    (b.past rest n).broken = b.broken := rfl

theorem past_past (b : Builder) (rest rest' : List Token) (n k : Nat) :
    (b.past rest n).past rest' k = b.past rest' (n + k) := by
  simp only [past, Nat.add_assoc]

theorem pass_eq (h : b.tokens = x :: rest) : b.pass = b.past rest 0 := by
  simp [pass, past, h]

theorem peek_eq (h : b.tokens = x :: rest) : b.peek = some x := by
  simp [peek, h]

/-! ## Single nodes -/

theorem properties_eq (h : b.tokens = x :: rest) (hanchor : ∀ name, x ≠ .anchor name)
    (htag : ∀ handle suffix, x ≠ .tag handle suffix) : b.properties = (⟨none, none⟩, b) := by
  unfold properties
  rw [peek_eq h]
  split
  · rename_i name hx
    exact absurd (Option.some.inj hx) (hanchor name)
  · rename_i handle suffix hx
    exact absurd (Option.some.inj hx) (htag handle suffix)
  · rfl

/-- A scalar token is a node. -/
theorem node_scalar {text : String} {style : Style} (h : b.tokens = .scalar text style :: rest)
    (block indentless : Bool) :
    node (fuel + 1) block indentless b = (.scalar ⟨text, style, none⟩, b.past rest 1) := by
  rw [node, peek_eq h]
  simp only [properties_eq h (by simp) (by simp), peek_eq h]
  simp [leaf, open_, close, mark, pass_eq h, past]

/-- A token that opens a collection is followed by it. -/
theorem node_collection {shape : Shape} {block indentless : Bool}
    (h : b.tokens = x :: rest) (hshape : shapeOf block indentless x = some shape) :
    node (fuel + 1) block indentless b = collection fuel shape none (b.mark 2) := by
  have halias : ∀ name, x ≠ .alias name := by rintro name rfl; cases hshape
  have hanchor : ∀ name, x ≠ .anchor name := by rintro name rfl; cases hshape
  have htag : ∀ handle suffix, x ≠ .tag handle suffix := by rintro handle suffix rfl; cases hshape
  have hscalar : ∀ text style, x ≠ .scalar text style := by rintro text style rfl; cases hshape
  rw [node, peek_eq h]
  split
  · rename_i name hx
    exact absurd (Option.some.inj hx) (halias name)
  · simp only [properties_eq h hanchor htag, peek_eq h, hshape]
    rw [if_neg (by simp)]
    rfl

theorem past_zero (h : b.tokens = rest) : b.past rest 0 = b := by
  subst h; rfl

theorem nextIn_eq (h : b.tokens = x :: rest) (ts : List Token) : b.nextIn ts = ts.contains x := by
  simp [nextIn, peek_eq h]

/-- A scalar is a part of an entry. -/
theorem blockPart_scalar {text : String} {style : Style} (hfuel : 2 ≤ fuel)
    (h : b.tokens = .scalar text style :: rest) :
    blockPart fuel b = (.scalar ⟨text, style, none⟩, b.past rest 1) := by
  obtain ⟨fuel, rfl⟩ : ∃ k, fuel = k + 2 := ⟨fuel - 2, by omega⟩
  rw [blockPart, peek_eq h]
  simp only [nextIn_eq h]
  rw [if_neg (by simp), node_scalar h]

/-! ## Trees -/

open Yaml.Tree in
/-- A tree that is stored starts with a token that cannot stand for a node left out. -/
theorem exists_tokens_eq_cons {t : Tree} :
    ∃ y ys, t.tokens = y :: ys ∧ [Token.key, .value, .blockEnd].contains y = false := by
  cases t with
  | text s => exact ⟨_, _, rfl, rfl⟩
  | list items =>
    cases items with
    | nil => exact ⟨_, _, rfl, rfl⟩
    | cons t ts => exact ⟨_, _, rfl, rfl⟩
  | record fields => exact ⟨_, _, rfl, rfl⟩

open Yaml.Tree in
theorem exists_tokens_eq_of_isRecord {t : Tree} (h : t.isRecord = true) :
    ∃ ys, t.tokens = .blockMappingStart :: ys := by
  obtain ⟨key, value, fields, rfl⟩ := exists_fields_of_isRecord h
  exact ⟨_, rfl⟩

/-- What may follow a list that no token closes. -/
def EndsList (rest : List Token) : Prop :=
  ∃ y ys, rest = y :: ys ∧ y ≠ .item

theorem endsList_fieldTokens (fields : List (String × Tree)) (rest : List Token) :
    EndsList (Tree.fieldTokens fields ++ .blockEnd :: rest) := by
  cases fields with
  | nil => exact ⟨_, _, rfl, by simp⟩
  | cons field fields => exact ⟨_, _, rfl, by simp⟩

mutual

/-- The builder makes a stored tree of its tokens. A list has to be allowed at the column of the
mapping around it, and to be followed by something else than a further item. -/
theorem node_tokens : ∀ (t : Tree) (b : Builder) (rest : List Token) (fuel : Nat)
    (indentless : Bool), t.Storable → b.broken = false → b.tokens = t.tokens ++ rest →
    (t.isRecord = false → indentless = true ∧ EndsList rest) → 4 * t.tokens.length ≤ fuel →
    ∃ n, node fuel true indentless b = (t.node, b.past rest n)
  | .text s, b, rest, fuel, indentless, _, _, hb, _, hfuel => by
    obtain ⟨fuel, rfl⟩ : ∃ k, fuel = k + 1 := ⟨fuel - 1, by simp [Tree.tokens] at hfuel; omega⟩
    exact ⟨1, node_scalar hb true indentless⟩
  | .list [], b, rest, fuel, indentless, _, _, hb, _, hfuel => by
    simp only [Tree.tokens, List.length_cons, List.length_nil] at hfuel
    obtain ⟨fuel, rfl⟩ : ∃ k, fuel = k + 3 := ⟨fuel - 3, by omega⟩
    have hb' : b.tokens = .flowSequenceStart :: .flowSequenceEnd :: rest := hb
    refine ⟨2, ?_⟩
    rw [node_collection hb' rfl, collection]
    simp [flowItems, mark, pass, peek, hb', past, Tree.node, Tree.itemNodes]
  | .list (t :: ts), b, rest, fuel, indentless, ht, hbroken, hb, hlist, hfuel => by
    -- no token closes such a list: its items end where something else than an item comes
    obtain ⟨rfl, hrest⟩ := hlist rfl
    have hlen : (Tree.list (t :: ts)).tokens.length = (Tree.itemTokens (t :: ts)).length := rfl
    have hpos : 0 < (Tree.itemTokens (t :: ts)).length := by simp [Tree.itemTokens]
    obtain ⟨fuel, rfl⟩ : ∃ k, fuel = k + 2 := ⟨fuel - 2, by omega⟩
    have hb' : b.tokens = .item :: (t.tokens ++ Tree.itemTokens ts ++ rest) := by
      rw [hb]; simp [Tree.tokens]
    obtain ⟨n, hitems⟩ := blockItems_itemTokens (t :: ts) (b.mark 2) rest fuel [] ht hbroken
      hb hrest (by omega) (by omega)
    refine ⟨2 + n, ?_⟩
    rw [node_collection hb' rfl, collection]
    simp only [hitems, List.append_nil, List.reverse_reverse, Tree.node]
    simp [past, mark, Nat.add_assoc]
  | .record fields, b, rest, fuel, indentless, ht, hbroken, hb, _, hfuel => by
    have hlen : (Tree.record fields).tokens.length = (Tree.fieldTokens fields).length + 2 := by
      simp [Tree.tokens]
    obtain ⟨fuel, rfl⟩ : ∃ k, fuel = k + 2 := ⟨fuel - 2, by omega⟩
    have hb' : b.tokens = .blockMappingStart :: (Tree.fieldTokens fields ++ .blockEnd :: rest) := by
      rw [hb]; simp [Tree.tokens]
    have hpass : (b.mark 2).pass = b.past (Tree.fieldTokens fields ++ .blockEnd :: rest) 2 := by
      simp [mark, pass, past, hb']
    obtain ⟨n, hfields⟩ := blockEntries_fieldTokens fields
      (b.past (Tree.fieldTokens fields ++ .blockEnd :: rest) 2) rest fuel [] ht.2 hbroken rfl
      (by omega)
    refine ⟨2 + n, ?_⟩
    rw [node_collection hb' rfl, collection]
    simp only [hpass, hfields, List.append_nil, List.reverse_reverse, Tree.node, past_past]

/-- The builder makes the items of a list of their tokens. -/
theorem blockItems_itemTokens : ∀ (ts : List Tree) (b : Builder) (rest : List Token) (fuel : Nat)
    (acc : List Node), Tree.ItemsStorable ts → b.broken = false →
    b.tokens = Tree.itemTokens ts ++ rest → EndsList rest →
    4 * (Tree.itemTokens ts).length ≤ fuel + 2 → 0 < fuel →
    ∃ n, blockItems fuel false b acc = ((Tree.itemNodes ts).reverse ++ acc, b.past rest n)
  | [], b, rest, fuel, acc, _, _, hb, hrest, hfuel, hpos => by
    obtain ⟨y, ys, rfl, hy⟩ := hrest
    obtain ⟨fuel, rfl⟩ : ∃ k, fuel = k + 1 := ⟨fuel - 1, by omega⟩
    have hb' : b.tokens = y :: ys := hb
    refine ⟨0, ?_⟩
    rw [blockItems, peek_eq hb', past_zero hb']
    split
    · next h => exact absurd (Option.some.inj h) hy
    · rfl
    · rfl
    · next h => cases h
  | t :: ts, b, rest, fuel, acc, ht, hbroken, hb, hrest, hfuel, hpos => by
    obtain ⟨hrecord, hstorable, hts⟩ := ht
    obtain ⟨fuel, rfl⟩ : ∃ k, fuel = k + 1 := ⟨fuel - 1, by omega⟩
    simp only [Tree.itemTokens, List.length_cons, List.length_append, List.cons_append,
      List.append_assoc] at hfuel hb
    obtain ⟨ys, hy⟩ := exists_tokens_eq_of_isRecord hrecord
    have hpass : b.pass.tokens = .blockMappingStart :: (ys ++ (Tree.itemTokens ts ++ rest)) := by
      rw [pass_eq hb, past_tokens, hy, List.cons_append]
    obtain ⟨n, hnode⟩ := node_tokens t b.pass (Tree.itemTokens ts ++ rest) fuel false hstorable
      hbroken (by rw [hpass, hy, List.cons_append]) (by simp [hrecord]) (by omega)
    obtain ⟨k, hitems⟩ := blockItems_itemTokens ts (b.pass.past (Tree.itemTokens ts ++ rest) n) rest
      fuel (t.node :: acc) hts hbroken rfl hrest (by omega) (by omega)
    refine ⟨n + k, ?_⟩
    -- a record starts with a token of its own, so no item is taken for one that was left out
    have hnext : b.pass.nextIn [.item, .key, .value, .blockEnd] = false := by
      rw [nextIn_eq hpass]; rfl
    have hbroken' : b.pass.broken = false := hbroken
    rw [blockItems, peek_eq hb]
    simp only [peek_eq hpass, hnext, hnode, hitems, past_broken, hbroken', Bool.false_eq_true,
      if_false]
    simp [Tree.itemNodes, past, pass, Nat.add_assoc]

/-- The builder makes the fields of a record of their tokens. -/
theorem blockEntries_fieldTokens : ∀ (fields : List (String × Tree)) (b : Builder)
    (rest : List Token) (fuel : Nat) (acc : List (Node × Node)), Tree.FieldsStorable fields →
    b.broken = false → b.tokens = Tree.fieldTokens fields ++ .blockEnd :: rest →
    4 * (Tree.fieldTokens fields).length < fuel →
    ∃ n, blockEntries fuel b acc = ((Tree.fieldNodes fields).reverse ++ acc, b.past rest n)
  | [], b, rest, fuel, acc, _, _, hb, hfuel => by
    obtain ⟨fuel, rfl⟩ : ∃ k, fuel = k + 1 := ⟨fuel - 1, by omega⟩
    have hb' : b.tokens = .blockEnd :: rest := hb
    refine ⟨0, ?_⟩
    rw [blockEntries, peek_eq hb', pass_eq hb']
    rfl
  | (k, t) :: fields, b, rest, fuel, acc, ht, hbroken, hb, hfuel => by
    obtain ⟨-, hstorable, hfields⟩ := ht
    obtain ⟨fuel, rfl⟩ : ∃ k, fuel = k + 1 := ⟨fuel - 1, by omega⟩
    simp only [Tree.fieldTokens, List.length_cons, List.length_append, List.cons_append,
      List.append_assoc] at hfuel hb
    let valueTokens := t.tokens ++ (Tree.fieldTokens fields ++ .blockEnd :: rest)
    have hkey : blockPart fuel b.pass =
        (.scalar ⟨k, .plain, none⟩, b.past (.value :: valueTokens) 1) := by
      rw [pass_eq hb]
      exact blockPart_scalar (by omega) rfl
    obtain ⟨n, hvalue⟩ : ∃ n, blockPart fuel (b.past (.value :: valueTokens) 1).pass =
        (t.node, b.past (Tree.fieldTokens fields ++ .blockEnd :: rest) n) := by
      obtain ⟨fuel, rfl⟩ : ∃ k, fuel = k + 1 := ⟨fuel - 1, by omega⟩
      obtain ⟨y, ys, hy, hyin⟩ := exists_tokens_eq_cons (t := t)
      rw [pass_eq (past_tokens b _ 1), past_past]
      -- a value may be a list at the column of its key, since fields end with no item
      obtain ⟨n, hnode⟩ := node_tokens t (b.past valueTokens 1) _ fuel true hstorable hbroken rfl
        (fun _ => ⟨rfl, endsList_fieldTokens fields rest⟩) (by omega)
      have hhead : (b.past valueTokens 1).tokens =
          y :: (ys ++ (Tree.fieldTokens fields ++ .blockEnd :: rest)) := by
        rw [past_tokens, ← List.cons_append, ← hy]
      refine ⟨1 + n, ?_⟩
      rw [blockPart, peek_eq hhead]
      simp only [nextIn_eq hhead]
      rw [if_neg (by rw [hyin]; exact Bool.false_ne_true), hnode, past_past]
    obtain ⟨m, hentries⟩ := blockEntries_fieldTokens fields
      (b.past (Tree.fieldTokens fields ++ .blockEnd :: rest) n) rest fuel
      ((.scalar ⟨k, .plain, none⟩, t.node) :: acc) hfields hbroken rfl (by omega)
    refine ⟨n + m, ?_⟩
    rw [blockEntries, peek_eq hb, hkey]
    simp only [past_broken, hbroken, hvalue, Bool.false_eq_true, if_false]
    rw [peek_eq (past_tokens b _ 1)]
    simp only [hentries, past_past, Tree.fieldNodes, List.reverse_cons, List.append_assoc,
      List.singleton_append]

end

/-! ## Documents -/

/-- The tokens of a record make a whole document, with an end mark after them or without one. -/
theorem document_tokens {t : Tree} (hrecord : t.isRecord = true) (ht : t.Storable)
    (rest : List Token) (hrest : atEnd rest = true) :
    (start (t.tokens ++ rest)).document.root = t.node ∧
      (start (t.tokens ++ rest)).document.complete = true := by
  obtain ⟨ys, hys⟩ := exists_tokens_eq_of_isRecord hrecord
  have htokens : (start (t.tokens ++ rest)).tokens = .blockMappingStart :: (ys ++ rest) := by
    show t.tokens ++ rest = _
    rw [hys, List.cons_append]
  obtain ⟨n, hnode⟩ := node_tokens t (start (t.tokens ++ rest)) rest
    (4 * (start (t.tokens ++ rest)).tokens.length + 8) false ht rfl rfl (by simp [hrecord])
    (by simp only [start, List.length_append]; omega)
  unfold document
  rw [peek_eq htokens]
  simp only [startsExplicitly, hnode, Bool.false_eq_true, if_false]
  simp [past, start, hrest]

end ReleaseCandidates.Yaml.Builder
