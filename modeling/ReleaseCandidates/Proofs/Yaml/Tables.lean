import Mathlib.Data.List.Sort
import Mathlib.Data.String.Basic
import ReleaseCandidates.Proofs.Yaml.TreeNodes

set_option autoImplicit false

/-! # Tables are read in the order of their keys

A table goes entry by entry into a list that is kept in order. Where no key is given twice, nothing
is replaced on the way, and the list is the table sorted by its keys, in whatever order its entries
stand in the document (`Tree.table_node`). -/

namespace ReleaseCandidates.Yaml

variable {α β : Type} {entries sorted : List (String × α)} {key : String} {value : α}

/-! ## Entries in order -/

/-- Order of entries by their keys. -/
def KeyLE (a b : String × α) : Prop := a.1 ≤ b.1

instance : DecidableRel (KeyLE (α := α)) :=
  fun a b => inferInstanceAs (Decidable (a.1 ≤ b.1))

instance : Std.Total (KeyLE (α := α)) :=
  ⟨fun a b => le_total a.1 b.1⟩

instance : IsTrans (String × α) KeyLE :=
  ⟨fun _ _ _ => le_trans⟩

/-- The entries of a table in the order of their keys. -/
def sortedByKey (entries : List (String × α)) : List (String × α) :=
  entries.insertionSort KeyLE

/-- A new key is set by putting it in its place. -/
theorem insertSorted_eq_orderedInsert (h : key ∉ entries.map Prod.fst) (value : α) :
    Node.insertSorted key value entries = entries.orderedInsert KeyLE (key, value) := by
  induction entries with
  | nil => rfl
  | cons entry rest ih =>
    obtain ⟨hne, hrest⟩ := not_or.1 (mt List.mem_cons.2 h)
    have hiff : KeyLE (key, value) entry ↔ key < entry.1 := (lt_iff_le_and_ne.trans
      (and_iff_left hne)).symm
    rw [Node.insertSorted, if_neg hne, List.orderedInsert_cons, ih hrest]
    simp only [hiff]

theorem foldl_insertSorted (hnodup : ((sorted ++ entries).map Prod.fst).Nodup)
    (hsorted : sorted.Pairwise KeyLE) :
    (entries.foldl (fun acc e => Node.insertSorted e.1 e.2 acc) sorted).Perm (sorted ++ entries) ∧
      (entries.foldl (fun acc e => Node.insertSorted e.1 e.2 acc) sorted).Pairwise KeyLE := by
  induction entries generalizing sorted with
  | nil => exact ⟨by simp, hsorted⟩
  | cons entry entries ih =>
    have hfresh : entry.1 ∉ sorted.map Prod.fst := by
      rw [List.map_append, List.map_cons] at hnodup
      exact fun hmem => (List.nodup_append.1 hnodup).2.2 _ hmem _ List.mem_cons_self rfl
    have hperm : (sorted.orderedInsert KeyLE entry ++ entries).Perm (sorted ++ entry :: entries) :=
      ((List.perm_orderedInsert KeyLE entry sorted).append_right entries).trans
        List.perm_middle.symm
    rw [List.foldl_cons, insertSorted_eq_orderedInsert hfresh]
    obtain ⟨hsame, hordered⟩ := ih ((hperm.map Prod.fst).nodup_iff.2 hnodup)
      (hsorted.orderedInsert entry sorted)
    exact ⟨hsame.trans hperm, hordered⟩

/-- Setting the entries of a table one by one sorts them, if no key is given twice. -/
theorem foldl_insertSorted_nil (hnodup : (entries.map Prod.fst).Nodup) :
    entries.foldl (fun acc e => Node.insertSorted e.1 e.2 acc) [] = sortedByKey entries := by
  obtain ⟨hperm, hordered⟩ := foldl_insertSorted hnodup .nil
  refine List.Perm.eq_of_pairwise (fun a b ha hb hab hba => ?_) hordered
    (List.pairwise_insertionSort KeyLE entries)
    (hperm.trans (List.perm_insertionSort KeyLE entries).symm)
  exact List.inj_on_of_nodup_map hnodup (hperm.mem_iff.1 ha)
    ((List.mem_insertionSort KeyLE).1 hb) (le_antisymm hab hba)

theorem sortedByKey_map (f : α → β) (entries : List (String × α)) :
    sortedByKey (entries.map fun e => (e.1, f e.2)) =
      (sortedByKey entries).map fun e => (e.1, f e.2) :=
  (List.map_insertionSort KeyLE KeyLE (fun e => (e.1, f e.2)) entries
    fun _ _ _ _ => Iff.rfl).symm

/-! ## Tables as they are written -/

namespace Tree

variable {read : Node → Except Fault β} {write : α → Tree} {result : α → β}

theorem foldFields_table (h : ∀ a, read (write a).node = .ok (result a))
    (entries : List (String × α)) (acc : List (String × β)) :
    Node.foldFields (fun acc key v => (read v).map fun a => Node.insertSorted key a acc) acc
        (fieldNodes (entries.map fun e => (e.1, write e.2))) =
      .ok ((entries.map fun e => (e.1, result e.2)).foldl
        (fun acc e => Node.insertSorted e.1 e.2 acc) acc) := by
  induction entries generalizing acc with
  | nil => rfl
  | cons entry entries ih =>
    rw [List.map_cons, foldFields_cons, h]
    exact ih _

/-- A table whose keys differ is read sorted by its keys. -/
theorem table_node (h : ∀ a, read (write a).node = .ok (result a))
    (hnodup : (entries.map Prod.fst).Nodup) :
    Node.table read (Tree.record (entries.map fun e => (e.1, write e.2))).node =
      .ok ((sortedByKey entries).map fun e => (e.1, result e.2)) := by
  have hkeys : ((entries.map fun e => (e.1, result e.2)).map Prod.fst).Nodup := by
    rwa [List.map_map]
  rw [Node.table, record_node, foldFields_table h, foldl_insertSorted_nil hkeys, sortedByKey_map]

end Tree

end ReleaseCandidates.Yaml
