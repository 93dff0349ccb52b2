import Mathlib
import ReleaseCandidates.Proofs.SnapshotLog.Turns

set_option autoImplicit false

/-! # The pending entry that was made last

Where the times of all pending entries can be read, the comparison by age is the order of the pairs
of time and identity (`Snapshot.compareAge_eq_gt_iff`), in whatever notation the times are given.
The pass over the pending entries that keeps the best so far then finds the maximum of these pairs,
and among the entries with that pair the one nearest the front of the log.

Main statement: `SnapshotLog.nextPending?_is_newest`. -/

namespace ReleaseCandidates

theorem Instant.eq_iff {t u : Instant} : t = u ↔ t.second = u.second ∧ t.nanos = u.nanos := by
  cases t
  cases u
  simp only [mk.injEq]

namespace Snapshot

variable {a b : Snapshot} {t u : Instant}

/-! ## Pairs of time and identity -/

/-- The pair of time and identity is at least that of another entry. -/
def AtLeast (a b : Snapshot) : Prop :=
  ∃ t u, a.time? = some t ∧ b.time? = some u ∧ (u.Before t ∨ u = t ∧ b.id ≤ a.id)

/-- The pair of time and identity in lexicographic order; a time that cannot be read counts as the
start of 1970. -/
def age (s : Snapshot) : ℤ ×ₗ ℕ ×ₗ String :=
  toLex ((s.time?.getD .epoch).second, toLex ((s.time?.getD .epoch).nanos, s.id))

theorem age_lt_age_iff (ha : a.time? = some t) (hb : b.time? = some u) :
    a.age < b.age ↔ t.Before u ∨ t = u ∧ a.id < b.id := by
  rw [age, age, ha, hb, Prod.Lex.toLex_lt_toLex, Prod.Lex.toLex_lt_toLex, Instant.Before,
    Instant.eq_iff, or_assoc, and_assoc, ← and_or_left]
  rfl

theorem age_le_age_iff (ha : a.time? = some t) (hb : b.time? = some u) :
    a.age ≤ b.age ↔ t.Before u ∨ t = u ∧ a.id ≤ b.id := by
  rw [age, age, ha, hb, Prod.Lex.toLex_le_toLex, Prod.Lex.toLex_le_toLex, Instant.Before,
    Instant.eq_iff, or_assoc, and_assoc, ← and_or_left]
  rfl

theorem atLeast_iff (ha : a.time? = some t) (hb : b.time? = some u) :
    a.AtLeast b ↔ b.age ≤ a.age := by
  rw [age_le_age_iff hb ha]
  constructor
  · rintro ⟨t', u', ha', hb', h⟩
    obtain rfl := Option.some.inj (ha.symm.trans ha')
    obtain rfl := Option.some.inj (hb.symm.trans hb')
    exact h
  · exact fun h => ⟨t, u, ha, hb, h⟩

/-- Equal pairs are those of equal identities, since the identity is the text of the time. -/
theorem age_eq_age_iff : a.age = b.age ↔ a.id = b.id := by
  constructor
  · exact fun h => congrArg (fun p => (ofLex (ofLex p).2).2) h
  · intro h
    have htime : a.time? = b.time? := congrArg Instant.parse? h
    rw [age, age, htime, h]

/-- Where both times can be read, entries are compared by their pairs. -/
theorem compareAge_eq_gt_iff (ha : a.time? = some t) (hb : b.time? = some u) :
    a.compareAge b = .gt ↔ b.age < a.age := by
  rw [age_lt_age_iff hb ha]
  simp only [compareAge, ha, hb]
  split
  · rename_i heq
    rw [compare_gt_iff_gt, or_iff_right fun hbefore => hbefore.ne heq.symm]
    exact (and_iff_right heq.symm).symm
  · rename_i hne
    rw [Instant.compare_eq_gt_iff, or_iff_left fun h => hne h.1.symm]

end Snapshot

namespace SnapshotLog

variable {log : SnapshotLog} {candidates : List (Snapshot × Nat)} {s : Snapshot} {k : Nat}

/-! ## The pass over the pending entries -/

theorem laterAt_eq_argAux {best : Option (Snapshot × Nat)} {candidate : Snapshot × Nat}
    (hbest : ∀ q ∈ best, q.1.time?.isSome) (hcandidate : candidate.1.time?.isSome) :
    laterAt best candidate = List.argAux (fun b c => c.1.age < b.1.age) best candidate := by
  cases best with
  | none => rfl
  | some current =>
    obtain ⟨t, ht⟩ := Option.isSome_iff_exists.1 (hbest current rfl)
    obtain ⟨u, hu⟩ := Option.isSome_iff_exists.1 hcandidate
    simp only [laterAt, List.argAux, Snapshot.compareAge_eq_gt_iff hu ht]

theorem foldl_laterAt_eq_argAux {best : Option (Snapshot × Nat)}
    (hbest : ∀ q ∈ best, q.1.time?.isSome) (htimes : ∀ q ∈ candidates, q.1.time?.isSome) :
    candidates.foldl laterAt best =
      candidates.foldl (List.argAux fun b c => c.1.age < b.1.age) best := by
  induction candidates generalizing best with
  | nil => rfl
  | cons candidate rest ih =>
    obtain ⟨hcandidate, hrest⟩ := List.forall_mem_cons.1 htimes
    rw [List.foldl_cons, List.foldl_cons, ← laterAt_eq_argAux hbest hcandidate]
    refine ih (fun q hq => ?_) hrest
    have hpass : [candidate].foldl laterAt best = some q := hq
    rcases foldl_laterAt_mem hpass with hkept | hnew
    · exact hbest q hkept
    · rwa [List.mem_singleton.1 hnew]

/-- Where all times can be read, the pass finds the first maximum of the pairs. -/
theorem foldl_laterAt_eq_argmax (htimes : ∀ q ∈ candidates, q.1.time?.isSome) :
    candidates.foldl laterAt none = candidates.argmax fun q => q.1.age :=
  foldl_laterAt_eq_argAux nofun htimes

/-! ## Positions -/

/-- In a list of rising places the elements are found in the order of their places. -/
theorem idxOf_le_idxOf_iff {α : Type} [DecidableEq α] {l : List α} {place : α → Nat}
    (hrising : l.Pairwise fun p q => place p < place q) {p q : α} (hp : p ∈ l) (hq : q ∈ l) :
    l.idxOf p ≤ l.idxOf q ↔ place p ≤ place q := by
  have hlt : ∀ {p q}, p ∈ l → q ∈ l → l.idxOf p < l.idxOf q → place p < place q := by
    intro p q hp hq hidx
    have hpair := List.pairwise_iff_getElem.1 hrising _ _
      (List.idxOf_lt_length_of_mem hp) (List.idxOf_lt_length_of_mem hq) hidx
    simpa using hpair
  constructor
  · intro hle
    rcases hle.lt_or_eq with hidx | hidx
    · exact (hlt hp hq hidx).le
    · rw [(List.idxOf_inj hp).1 hidx]
  · exact fun hle => not_lt.1 fun hidx => (hlt hq hp hidx).not_ge hle

theorem pairwise_waitingAt (log : SnapshotLog) :
    log.waitingAt.Pairwise fun p q => p.2 < q.2 := by
  refine List.Pairwise.filter _ ?_
  rw [List.pairwise_iff_getElem]
  intro i j hi hj hij
  simpa using hij

/-! ## The newest pending entry -/

/-- The entry at a position is pending, no pending entry has a greater pair of time and identity,
and none before it has the same pair. -/
structure NewestAt (log : SnapshotLog) (s : Snapshot) (k : Nat) : Prop where
  entry : log.snapshots[k]? = some s
  pending : s.status = .pending
  greatest : ∀ r ∈ log.snapshots, r.status = .pending → s.AtLeast r
  foremost : ∀ (j : Nat) (r : Snapshot), log.snapshots[j]? = some r → r.status = .pending →
    r.time? = s.time? → r.id = s.id → k ≤ j

section Readable

variable (htimes : ∀ r ∈ log.snapshots, r.status = .pending → r.time?.isSome)
include htimes

theorem isSome_time?_of_mem_waitingAt : ∀ q ∈ log.waitingAt, q.1.time?.isSome := by
  intro q hq
  obtain ⟨hentry, hpending⟩ := mem_waitingAt.1 hq
  exact htimes q.1 (List.mem_of_getElem? hentry) hpending

theorem atLeast_iff_of_mem {p q : Snapshot × Nat} (hp : p ∈ log.waitingAt)
    (hq : q ∈ log.waitingAt) : p.1.AtLeast q.1 ↔ q.1.age ≤ p.1.age := by
  obtain ⟨t, ht⟩ := Option.isSome_iff_exists.1 (isSome_time?_of_mem_waitingAt htimes p hp)
  obtain ⟨u, hu⟩ := Option.isSome_iff_exists.1 (isSome_time?_of_mem_waitingAt htimes q hq)
  exact Snapshot.atLeast_iff ht hu

theorem nextPendingAt?_eq_some_iff : log.nextPendingAt? = some (s, k) ↔ log.NewestAt s k := by
  rw [nextPendingAt?_eq, foldl_laterAt_eq_argmax (isSome_time?_of_mem_waitingAt htimes),
    List.argmax_eq_some_iff]
  constructor
  · rintro ⟨hmem, hgreatest, hforemost⟩
    obtain ⟨hentry, hpending⟩ := mem_waitingAt.1 hmem
    refine ⟨hentry, hpending, fun r hr hwaits => ?_, fun j r hr hwaits _ hid => ?_⟩
    · obtain ⟨j, hj⟩ := List.mem_iff_getElem?.1 hr
      have hother : (r, j) ∈ log.waitingAt := mem_waitingAt.2 ⟨hj, hwaits⟩
      exact (atLeast_iff_of_mem htimes hmem hother).2 (hgreatest _ hother)
    · have hother : (r, j) ∈ log.waitingAt := mem_waitingAt.2 ⟨hr, hwaits⟩
      have hage : s.age = r.age := Snapshot.age_eq_age_iff.2 hid.symm
      exact (idxOf_le_idxOf_iff (pairwise_waitingAt log) hmem hother).1 (hforemost _ hother hage.le)
  · intro hnewest
    have hmem : (s, k) ∈ log.waitingAt := mem_waitingAt.2 ⟨hnewest.entry, hnewest.pending⟩
    have hgreatest : ∀ q ∈ log.waitingAt, q.1.age ≤ s.age := by
      intro q hq
      obtain ⟨hentry, hwaits⟩ := mem_waitingAt.1 hq
      exact (atLeast_iff_of_mem htimes hmem hq).1
        (hnewest.greatest q.1 (List.mem_of_getElem? hentry) hwaits)
    refine ⟨hmem, hgreatest, fun q hq hage => ?_⟩
    have hid : q.1.id = s.id := Snapshot.age_eq_age_iff.1 (le_antisymm (hgreatest q hq) hage)
    obtain ⟨hentry, hwaits⟩ := mem_waitingAt.1 hq
    exact (idxOf_le_idxOf_iff (pairwise_waitingAt log) hmem hq).2
      (hnewest.foremost q.2 q.1 hentry hwaits (congrArg Instant.parse? hid) hid)

end Readable

/-- **Where all times can be read, the next entry is the exact maximum.** Let the times of all
pending entries of a log be readable, in any notation. Then there is a next entry unless none is
pending, and an entry is the next one exactly if it is pending, its pair of time and identity is at
least that of every pending entry, and no entry with the same pair stands before it. -/
theorem nextPending?_is_newest (log : SnapshotLog)
    (htimes : ∀ r ∈ log.snapshots, r.status = .pending → r.time?.isSome) :
    (log.nextPending? = none ↔ ∀ r ∈ log.snapshots, r.status ≠ .pending) ∧
      ∀ s, log.nextPending? = some s ↔ ∃ k, log.NewestAt s k := by
  rw [← map_nextPendingAt?]
  constructor
  · rw [Option.map_eq_none_iff, nextPendingAt?_eq]
    constructor
    · intro hnone r hr hwaits
      obtain ⟨j, hj⟩ := List.mem_iff_getElem?.1 hr
      have hmem : (r, j) ∈ log.waitingAt := mem_waitingAt.2 ⟨hj, hwaits⟩
      rw [eq_nil_of_foldl_laterAt hnone] at hmem
      cases hmem
    · intro hnone
      have hnil : log.waitingAt = [] := List.eq_nil_iff_forall_not_mem.2 fun q hq => by
        obtain ⟨hentry, hwaits⟩ := mem_waitingAt.1 hq
        exact hnone q.1 (List.mem_of_getElem? hentry) hwaits
      rw [hnil]
      rfl
  · intro s
    simp only [Option.map_eq_some_iff, Prod.exists, nextPendingAt?_eq_some_iff htimes]
    constructor
    · rintro ⟨_, k, hnewest, rfl⟩
      exact ⟨k, hnewest⟩
    · rintro ⟨k, hnewest⟩
      exact ⟨s, k, hnewest, rfl⟩

/-- Four pending entries, and one whose tests have failed. Three of the pending ones were made at
one instant, which is written with an offset twice and once without. -/
def inSeveralNotations : SnapshotLog := ⟨[
  ⟨⟨"2025-03-10T09:00:00.000000Z", .pending, none⟩, []⟩,
  ⟨⟨"2025-03-10T14:30:00+02:00", .pending, none⟩, [.ofRelease "o/a" "2"]⟩,
  ⟨⟨"2025-03-10T12:30:00", .pending, none⟩, []⟩,
  ⟨⟨"2025-03-10T14:30:00+02:00", .pending, none⟩, [.ofRelease "o/a" "1"]⟩,
  ⟨⟨"2025-03-11T09:00:00Z", .failed, none⟩, []⟩]⟩

theorem nextPending?_is_newest_in_several_notations :
    (∀ r ∈ inSeveralNotations.snapshots, r.status = .pending → r.time?.isSome) ∧
      inSeveralNotations.nextPending? =
        some ⟨⟨"2025-03-10T14:30:00+02:00", .pending, none⟩, [.ofRelease "o/a" "2"]⟩ ∧
      ∃ k, inSeveralNotations.NewestAt
        ⟨⟨"2025-03-10T14:30:00+02:00", .pending, none⟩, [.ofRelease "o/a" "2"]⟩ k := by
  have htimes : ∀ r ∈ inSeveralNotations.snapshots, r.status = .pending → r.time?.isSome := by
    decide +kernel
  have hnext : inSeveralNotations.nextPending? =
      some ⟨⟨"2025-03-10T14:30:00+02:00", .pending, none⟩, [.ofRelease "o/a" "2"]⟩ := by
    decide +kernel
  exact ⟨htimes, hnext, ((nextPending?_is_newest inSeveralNotations htimes).2 _).1 hnext⟩

end SnapshotLog

end ReleaseCandidates
