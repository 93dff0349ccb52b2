import Mathlib.Data.List.Sigma
import ReleaseCandidates.Proofs.SnapshotLog.Identity
import ReleaseCandidates.Proofs.TestRun.Verdict

set_option autoImplicit false

/-! # The order in which entries take their turn

The next entry to be tested is found by a pass over the pending ones that keeps the best so far. If
it is taken out of them and the next one is found among the others, and so on, every pending entry
takes its turn once (`SnapshotLog.inTurn_perm`). Where the times of all of them can be read, no
entry comes before one that was made later (`SnapshotLog.pairwise_inTurn`); otherwise the comparison
is no order, and all that can be said is that the passes go over the entries from the front.

A verdict takes just the one entry out of the pending ones (`SnapshotLog.waitingAt_set`). -/

namespace ReleaseCandidates

/-- The entry was not made before another one, as far as their times can be read. -/
def Snapshot.NotBefore (a b : Snapshot) : Prop :=
  ∀ t u, a.time? = some t → b.time? = some u → ¬ t.Before u

namespace Snapshot

variable {a b c : Snapshot}

theorem NotBefore.refl (a : Snapshot) : a.NotBefore a := by
  intro t u ht hu hbefore
  obtain rfl := Option.some.inj (ht.symm.trans hu)
  exact hbefore.ne rfl

theorem NotBefore.trans (hb : b.time?.isSome) (hab : a.NotBefore b) (hbc : b.NotBefore c) :
    a.NotBefore c := by
  obtain ⟨u, hu⟩ := Option.isSome_iff_exists.1 hb
  intro t v ht hv
  exact Instant.not_before_trans (hab t u ht hu) (hbc u v hu hv)

theorem notBefore_of_compareAge_gt (h : a.compareAge b = .gt) : a.NotBefore b := by
  intro t u ht hu hbefore
  simp only [compareAge, ht, hu, if_neg hbefore.ne, Instant.compare_eq_lt_iff.2 hbefore] at h
  cases h

theorem notBefore_of_compareAge_ne_gt (h : a.compareAge b ≠ .gt) : b.NotBefore a := by
  intro u t hu ht hbefore
  refine h ?_
  simp only [compareAge, ht, hu, if_neg (Ne.symm hbefore.ne), Instant.compare_eq_gt_iff.2 hbefore]

end Snapshot

namespace SnapshotLog

variable {log : SnapshotLog} {candidates : List (Snapshot × Nat)} {s : Snapshot} {k : Nat}

/-! ## The best of some candidates -/

theorem foldl_laterAt_isSome (candidates : List (Snapshot × Nat)) (best : Snapshot × Nat) :
    (candidates.foldl laterAt (some best)).isSome := by
  induction candidates generalizing best with
  | nil => rfl
  | cons candidate rest ih =>
    rw [List.foldl_cons, laterAt]
    split
    · exact ih candidate
    · exact ih best

/-- There is a best one unless there are no candidates. -/
theorem eq_nil_of_foldl_laterAt (h : candidates.foldl laterAt none = none) : candidates = [] := by
  cases candidates with
  | nil => rfl
  | cons candidate rest =>
    have hsome := foldl_laterAt_isSome rest candidate
    rw [List.foldl_cons, laterAt] at h
    rw [h] at hsome
    cases hsome

theorem mem_of_foldl_laterAt {p : Snapshot × Nat} (h : candidates.foldl laterAt none = some p) :
    p ∈ candidates :=
  (foldl_laterAt_mem h).resolve_left nofun

/-- Where all times can be read, the best one was made before none of the others. -/
theorem notBefore_of_foldl_laterAt {best p : Snapshot × Nat} (hbest : best.1.time?.isSome)
    (htimes : ∀ q ∈ candidates, q.1.time?.isSome)
    (h : candidates.foldl laterAt (some best) = some p) :
    p.1.NotBefore best.1 ∧ ∀ q ∈ candidates, p.1.NotBefore q.1 := by
  induction candidates generalizing best with
  | nil =>
    obtain rfl := Option.some.inj h
    exact ⟨.refl _, nofun⟩
  | cons candidate rest ih =>
    have hcandidate := htimes candidate List.mem_cons_self
    have hrest : ∀ q ∈ rest, q.1.time?.isSome := fun q hq => htimes q (List.mem_cons_of_mem _ hq)
    rw [List.foldl_cons, laterAt] at h
    split at h
    · rename_i hgt
      obtain ⟨hnew, hothers⟩ := ih hcandidate hrest h
      exact ⟨hnew.trans hcandidate (Snapshot.notBefore_of_compareAge_gt hgt),
        List.forall_mem_cons.2 ⟨hnew, hothers⟩⟩
    · rename_i hgt
      obtain ⟨hkept, hothers⟩ := ih hbest hrest h
      exact ⟨hkept, List.forall_mem_cons.2
        ⟨hkept.trans hbest (Snapshot.notBefore_of_compareAge_ne_gt hgt), hothers⟩⟩

theorem notBefore_of_best {p : Snapshot × Nat} (htimes : ∀ q ∈ candidates, q.1.time?.isSome)
    (h : candidates.foldl laterAt none = some p) : ∀ q ∈ candidates, p.1.NotBefore q.1 := by
  cases candidates with
  | nil => exact nofun
  | cons first rest =>
    obtain ⟨hfirst, hrest⟩ := List.forall_mem_cons.1 htimes
    exact List.forall_mem_cons.2 (notBefore_of_foldl_laterAt hfirst hrest h)

/-! ## Turns -/

/-- The candidates in turn: the best one, then the best of the others, and so on. -/
def inTurn (candidates : List (Snapshot × Nat)) : List (Snapshot × Nat) :=
  match _h : candidates.foldl laterAt none with
  | none => []
  | some p => p :: inTurn (candidates.erase p)
termination_by candidates.length
decreasing_by
  have hmem : p ∈ candidates := mem_of_foldl_laterAt ‹_›
  rw [List.length_erase_of_mem hmem]
  exact Nat.sub_one_lt (List.length_pos_of_mem hmem).ne'

theorem inTurn_of_best {p : Snapshot × Nat} (h : candidates.foldl laterAt none = some p) :
    inTurn candidates = p :: inTurn (candidates.erase p) := by
  rw [inTurn]
  split
  · rename_i hnone
    rw [hnone] at h
    cases h
  · rename_i q hq
    obtain rfl := Option.some.inj (hq.symm.trans h)
    rfl

theorem inTurn_nil : inTurn [] = [] := by
  rw [inTurn]
  rfl

theorem inTurn_perm (candidates : List (Snapshot × Nat)) :
    (inTurn candidates).Perm candidates := by
  induction candidates using inTurn.induct with
  | case1 candidates hnone => rw [eq_nil_of_foldl_laterAt hnone, inTurn_nil]
  | case2 candidates p hbest ih =>
    rw [inTurn_of_best hbest]
    exact (ih.cons p).trans (List.perm_cons_erase (mem_of_foldl_laterAt hbest)).symm

/-- Where all times can be read, entries that were made later have their turn first. -/
theorem pairwise_inTurn (htimes : ∀ q ∈ candidates, q.1.time?.isSome) :
    (inTurn candidates).Pairwise fun p q => p.1.NotBefore q.1 := by
  induction candidates using inTurn.induct with
  | case1 candidates hnone =>
    rw [eq_nil_of_foldl_laterAt hnone, inTurn_nil]
    exact .nil
  | case2 candidates p hbest ih =>
    have hmem {q : Snapshot × Nat} (hq : q ∈ inTurn (candidates.erase p)) : q ∈ candidates :=
      List.mem_of_mem_erase ((inTurn_perm _).mem_iff.1 hq)
    rw [inTurn_of_best hbest, List.pairwise_cons]
    exact ⟨fun q hq => notBefore_of_best htimes hbest q (hmem hq),
      ih fun q hq => htimes q (List.mem_of_mem_erase hq)⟩

/-! ## Pending entries -/

/-- The pending entries with their positions, newest first. -/
def waitingAt (log : SnapshotLog) : List (Snapshot × Nat) :=
  log.snapshots.zipIdx.filter fun p => p.1.isPending

theorem nextPendingAt?_eq (log : SnapshotLog) :
    log.nextPendingAt? = log.waitingAt.foldl laterAt none := rfl

theorem mem_waitingAt :
    (s, k) ∈ log.waitingAt ↔ log.snapshots[k]? = some s ∧ s.status = .pending := by
  rw [waitingAt, List.mem_filter, List.mk_mem_zipIdx_iff_getElem?]
  simp [Snapshot.isPending]

theorem mem_waiting_of_mem_waitingAt {p : Snapshot × Nat} (h : p ∈ log.waitingAt) :
    p.1 ∈ log.waiting := by
  obtain ⟨hentry, hpending⟩ := mem_waitingAt.1 h
  rw [waiting, List.mem_filter, Snapshot.isPending, beq_iff_eq]
  exact ⟨List.mem_of_getElem? hentry, hpending⟩

/-- Elements that are replaced by others which do not count are gone from those that do. -/
theorem filter_set_eq_erase {α : Type} [BEq α] [LawfulBEq α] (counts : α → Bool) {l : List α}
    {x y : α} {i : Nat} (hnodup : l.Nodup) (hx : l[i]? = some x) (hcounts : counts x = true)
    (hy : counts y = false) : (l.set i y).filter counts = (l.filter counts).erase x := by
  induction l generalizing i with
  | nil => simp at hx
  | cons z rest ih =>
    cases i with
    | zero =>
      obtain rfl : z = x := by simpa using hx
      rw [List.set_cons_zero, List.filter_cons_of_neg (by simp [hy]),
        List.filter_cons_of_pos hcounts, List.erase_cons_head]
    | succ i =>
      have hz : z ≠ x := by
        rintro rfl
        exact (List.nodup_cons.1 hnodup).1 (List.mem_of_getElem? hx)
      have hrest := ih (List.nodup_cons.1 hnodup).2 hx
      rw [List.set_cons_succ]
      by_cases hcz : counts z = true
      · rw [List.filter_cons_of_pos hcz, List.filter_cons_of_pos hcz, hrest,
          List.erase_cons_tail (by simpa using hz)]
      · rw [List.filter_cons_of_neg hcz, List.filter_cons_of_neg hcz, hrest]

theorem zipIdx_set (entries : List Snapshot) (k : Nat) (done : Snapshot) :
    (entries.set k done).zipIdx = entries.zipIdx.set k (done, k) := by
  refine List.ext_getElem? fun i => ?_
  by_cases hi : k = i
  · subst hi
    by_cases hlt : k < entries.length <;> simp [hlt]
  · simp [List.getElem?_zipIdx, List.getElem?_set_ne hi]

/-- With its verdict an entry is not among the pending ones any more, and the others still are. -/
theorem waitingAt_set {done : Snapshot} (h : log.snapshots[k]? = some s)
    (hpending : s.status = .pending) (hdone : done.status ≠ .pending) :
    waitingAt ⟨log.snapshots.set k done⟩ = log.waitingAt.erase (s, k) := by
  have hnodup : log.snapshots.zipIdx.Nodup := (List.nodup_zipIdx_map_snd log.snapshots).of_map
  have hentry : log.snapshots.zipIdx[k]? = some (s, k) := by
    simp [List.getElem?_zipIdx, h]
  have hcounts : s.isPending = true := by
    rw [Snapshot.isPending, hpending]
    rfl
  have hcounts' : done.isPending = false := by
    rw [Snapshot.isPending, beq_eq_false_iff_ne]
    exact hdone
  rw [waitingAt, waitingAt, zipIdx_set]
  exact filter_set_eq_erase _ hnodup hentry hcounts hcounts'

end SnapshotLog

end ReleaseCandidates
