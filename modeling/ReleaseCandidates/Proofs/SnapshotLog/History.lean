import Mathlib.Data.List.Forall2
import ReleaseCandidates.SnapshotLog

set_option autoImplicit false

/-! # The history of a log

A log changes in two ways: components are offered to it, and a verdict is recorded in it. This
module says what one change does to the entries that are there already (`GrownFrom`), and from that
what any number of changes does: the entries of an earlier moment are at every later moment the
oldest ones, in the same order and with the same identity and components, and the only thing that
has happened to one of them is that a verdict it was waiting for has come in. Nothing is assumed of
the log or of the snapshots handed in; ids may repeat and copies may be stale. -/

namespace ReleaseCandidates

/-! ## Changes -/

/-- A change asked of a log. -/
inductive LogChange where
  /-- Components found at an instant are offered. -/
  | offer (components : List Component) (time : Instant)
  /-- The verdict that a copy of an entry carries is to be recorded. -/
  | verdict (updated : Snapshot) (now : Instant)

/-- What a change answers when it is not refused. -/
inductive LogAnswer where
  | offered (outcome : OfferOutcome)
  | recorded (snapshot : Snapshot)
  deriving DecidableEq, Repr

/-- The answer to a change, and the log after it. -/
def LogChange.apply (log : SnapshotLog) : LogChange → Except Failure LogAnswer × SnapshotLog
  | .offer components time =>
    ((.ok (.offered (log.offer components time).1)), (log.offer components time).2)
  | .verdict updated now =>
    match log.recordVerdict updated now with
    | .ok (stored, log) => (.ok (.recorded stored), log)
    | .error failure => (.error failure, log)

/-- The log after a number of changes, one after the other. -/
def SnapshotLog.after (log : SnapshotLog) (changes : List LogChange) : SnapshotLog :=
  changes.foldl (fun log change => (change.apply log).2) log

@[simp] theorem SnapshotLog.after_nil (log : SnapshotLog) : log.after [] = log := rfl

@[simp] theorem SnapshotLog.after_cons (log : SnapshotLog) (change : LogChange)
    (changes : List LogChange) :
    log.after (change :: changes) = ((change.apply log).2).after changes := rfl

theorem SnapshotLog.after_append (log : SnapshotLog) (first second : List LogChange) :
    log.after (first ++ second) = (log.after first).after second := by
  simp only [SnapshotLog.after, List.foldl_append]

/-- A change that is refused leaves the log as it was. -/
theorem LogChange.apply_of_error {log : SnapshotLog} {change : LogChange} {failure : Failure}
    (h : (change.apply log).1 = .error failure) : (change.apply log).2 = log := by
  cases change with
  | offer components time => cases h
  | verdict updated now =>
    simp only [LogChange.apply] at h ⊢
    split at h
    · cases h
    · rfl

/-! ## What may become of an entry -/

/-- What may become of an entry of a log: it stays as it is, or a verdict comes in that it was
waiting for, with the time of the verdict. -/
inductive Snapshot.Becomes : Snapshot → Snapshot → Prop where
  | same (s : Snapshot) : Becomes s s
  | judged {s : Snapshot} (status : Status) (time : Instant) (waiting : s.status = .pending)
      (final : status ≠ .pending) : Becomes s (s.withVerdict status time)

namespace Snapshot.Becomes

variable {s t u : Snapshot}

theorem id_eq (h : Becomes s t) : t.id = s.id := by
  cases h with
  | same => rfl
  | judged status time waiting final => rfl

theorem components_eq (h : Becomes s t) : t.components = s.components := by
  cases h with
  | same => rfl
  | judged status time waiting final => rfl

/-- Nothing becomes of an entry whose tests are over. -/
theorem eq_of_final (h : Becomes s t) (hs : s.status ≠ .pending) : t = s := by
  cases h with
  | same => rfl
  | judged status time waiting final => exact absurd waiting hs

theorem trans (h₁ : Becomes s t) (h₂ : Becomes t u) : Becomes s u := by
  cases h₁ with
  | same => exact h₂
  | judged status time waiting final =>
    -- the first verdict is final, so the second step is none
    rw [h₂.eq_of_final (by simpa using final)]
    exact .judged status time waiting final

end Snapshot.Becomes

/-! ## What may become of a log -/

/-- The entries of `earlier` are the oldest entries of `later`, in their order, each of them the
same or with the verdict that it was waiting for. -/
def SnapshotLog.GrownFrom (earlier later : SnapshotLog) : Prop :=
  ∃ added kept, later.snapshots = added ++ kept ∧
    List.Forall₂ Snapshot.Becomes earlier.snapshots kept

namespace SnapshotLog

variable {log earlier middle later : SnapshotLog}

theorem forall₂_becomes_refl (entries : List Snapshot) :
    List.Forall₂ Snapshot.Becomes entries entries :=
  List.forall₂_same.2 fun s _ => .same s

theorem GrownFrom.refl (log : SnapshotLog) : GrownFrom log log :=
  ⟨[], log.snapshots, rfl, forall₂_becomes_refl log.snapshots⟩

theorem forall₂_becomes_trans {a b c : List Snapshot} (h₁ : List.Forall₂ Snapshot.Becomes a b)
    (h₂ : List.Forall₂ Snapshot.Becomes b c) : List.Forall₂ Snapshot.Becomes a c := by
  induction h₁ generalizing c with
  | nil => exact h₂
  | cons hs hrest ih =>
    cases h₂ with
    | cons ht hrest₂ => exact .cons (hs.trans ht) (ih hrest₂)

theorem GrownFrom.trans (h₁ : GrownFrom earlier middle) (h₂ : GrownFrom middle later) :
    GrownFrom earlier later := by
  obtain ⟨added₁, kept₁, hm, hk₁⟩ := h₁
  obtain ⟨added₂, kept₂, hl, hk₂⟩ := h₂
  -- of what was kept last, the part after the entries added first stands for the oldest entries
  have hold : List.Forall₂ Snapshot.Becomes kept₁ (kept₂.drop added₁.length) := by
    simpa [hm] using List.forall₂_drop added₁.length hk₂
  refine ⟨added₂ ++ kept₂.take added₁.length, kept₂.drop added₁.length, ?_,
    forall₂_becomes_trans hk₁ hold⟩
  rw [hl, List.append_assoc, List.take_append_drop]

/-! ## One change -/

theorem grownFrom_offer (log : SnapshotLog) (components : List Component) (time : Instant) :
    GrownFrom log (log.offer components time).2 := by
  cases h : log.holdsNewest components with
  | true =>
    rw [offer_of_holdsNewest time h]
    exact GrownFrom.refl log
  | false =>
    rw [offer_of_not_holdsNewest time h]
    exact ⟨[Snapshot.pending components time], log.snapshots, rfl,
      forall₂_becomes_refl log.snapshots⟩

/-- A recorded verdict comes in for one entry, and all others stay. -/
theorem completeFirst_becomes {id : String} {status : Status} {time : Instant}
    {entries after : List Snapshot} {done : Snapshot}
    (h : completeFirst id status time entries = .ok (done, after)) :
    List.Forall₂ Snapshot.Becomes entries after := by
  induction entries generalizing after with
  | nil => simp [completeFirst] at h
  | cons s rest ih =>
    simp only [completeFirst] at h
    split at h
    · split at h
      · rename_i done' hc
        obtain ⟨-, rfl⟩ : done' = done ∧ done' :: rest = after := by simpa using h
        rw [Snapshot.complete_eq_ok_iff] at hc
        obtain ⟨waiting, final, rfl⟩ := hc
        exact .cons (.judged status time waiting final) (forall₂_becomes_refl rest)
      · cases h
    · split at h
      · rename_i done' rest' hc
        obtain ⟨rfl, rfl⟩ : done' = done ∧ s :: rest' = after := by simpa using h
        exact .cons (.same s) (ih hc)
      · cases h

theorem grownFrom_recordVerdict {updated stored : Snapshot} {now : Instant}
    (h : log.recordVerdict updated now = .ok (stored, later)) : GrownFrom log later := by
  simp only [recordVerdict] at h
  split at h
  · rename_i done entries hc
    obtain ⟨-, rfl⟩ : done = stored ∧ (⟨entries⟩ : SnapshotLog) = later := by simpa using h
    exact ⟨[], entries, rfl, completeFirst_becomes hc⟩
  · cases h

theorem grownFrom_apply (log : SnapshotLog) (change : LogChange) :
    GrownFrom log (change.apply log).2 := by
  cases change with
  | offer components time => exact grownFrom_offer log components time
  | verdict updated now =>
    simp only [LogChange.apply]
    split
    · rename_i stored later h
      exact grownFrom_recordVerdict h
    · exact GrownFrom.refl log

/-! ## Any number of changes -/

theorem grownFrom_after (log : SnapshotLog) (changes : List LogChange) :
    GrownFrom log (log.after changes) := by
  induction changes generalizing log with
  | nil => exact GrownFrom.refl log
  | cons change changes ih =>
    exact (grownFrom_apply log change).trans (ih (change.apply log).2)

/-- Of two moments in a run of changes the later one has grown out of the earlier one. -/
theorem grownFrom_moments (log : SnapshotLog) (changes : List LogChange) {i j : Nat}
    (hij : i ≤ j) : GrownFrom (log.after (changes.take i)) (log.after (changes.take j)) := by
  have hi : changes.take i = (changes.take j).take i := by
    rw [List.take_take, Nat.min_eq_left hij]
  rw [hi, ← List.take_append_drop i (changes.take j), after_append,
    List.take_append_drop i (changes.take j)]
  exact grownFrom_after _ _

/-! ## Times of verdicts -/

/-- Every entry whose tests are over has a time of its verdict, and no other has one. -/
def Timed (log : SnapshotLog) : Prop :=
  ∀ s ∈ log.snapshots, s.testedAt.isSome = s.status.isFinal

theorem timed_empty : Timed empty := by
  intro s hs
  cases hs

theorem timed_of_becomes {s t : Snapshot} (h : s.Becomes t)
    (hs : s.testedAt.isSome = s.status.isFinal) : t.testedAt.isSome = t.status.isFinal := by
  cases h with
  | same => exact hs
  | judged status time waiting final =>
    have hf : status.isFinal = true := Status.isFinal_iff.2 final
    simp [Snapshot.withVerdict, Snapshot.testedAt, Snapshot.status, hf]

theorem forall₂_becomes_timed {entries after : List Snapshot}
    (h : List.Forall₂ Snapshot.Becomes entries after)
    (he : ∀ s ∈ entries, s.testedAt.isSome = s.status.isFinal) :
    ∀ s ∈ after, s.testedAt.isSome = s.status.isFinal := by
  induction h with
  | nil => exact he
  | cons hs hrest ih =>
    intro t ht
    rcases List.mem_cons.1 ht with rfl | ht
    · exact timed_of_becomes hs (he _ List.mem_cons_self)
    · exact ih (fun s hs => he s (List.mem_cons_of_mem _ hs)) t ht

theorem timed_apply {log : SnapshotLog} (hlog : Timed log) (change : LogChange) :
    Timed (change.apply log).2 := by
  cases change with
  | offer components time =>
    simp only [LogChange.apply]
    cases h : log.holdsNewest components with
    | true => rw [offer_of_holdsNewest time h]; exact hlog
    | false =>
      rw [offer_of_not_holdsNewest time h]
      intro s hs
      rcases List.mem_cons.1 hs with rfl | hs
      · rfl
      · exact hlog s hs
  | verdict updated now =>
    simp only [LogChange.apply, recordVerdict]
    cases h : completeFirst updated.id updated.status (verdictTime updated now) log.snapshots with
    | ok result => exact forall₂_becomes_timed (completeFirst_becomes h) hlog
    | error failure => exact hlog

theorem timed_after {log : SnapshotLog} (hlog : Timed log) (changes : List LogChange) :
    Timed (log.after changes) := by
  induction changes generalizing log with
  | nil => exact hlog
  | cons change changes ih => exact ih (timed_apply hlog change)

/-! ## The history -/

/-- **The history of a log only grows, and every verdict is final.** Over any changes of any log the
log of a later moment has grown out of the log of an earlier one; a change that is refused at any
moment leaves the log alone; and in a log that started empty exactly the entries whose tests are
over have a time of their verdict. -/
theorem history_append_only (log : SnapshotLog) (changes : List LogChange) :
    (∀ i j, i ≤ j → GrownFrom (log.after (changes.take i)) (log.after (changes.take j))) ∧
      (∀ i (change : LogChange) (failure : Failure),
        (change.apply (log.after (changes.take i))).1 = .error failure →
          (change.apply (log.after (changes.take i))).2 = log.after (changes.take i)) ∧
      ∀ i, Timed (empty.after (changes.take i)) :=
  ⟨fun _ _ hij => grownFrom_moments log changes hij,
    fun _ _ _ h => LogChange.apply_of_error h,
    fun _ => timed_after timed_empty _⟩

end SnapshotLog

end ReleaseCandidates
