import Mathlib.Data.List.Rotate
import ReleaseCandidates.Proofs.SnapshotLog.Newest

set_option autoImplicit false

/-! # Times that cannot be read

Entries whose times can be read are compared by time, and all others by their identities as texts.
The two do not fit together: where the latest of the readable entries has a smaller text than some
unreadable one, and that has a smaller text than an early readable one, each of the three is newer
than another (`SnapshotLog.Tangle`). Which entry the pass over the pending ones ends with then hangs
on their order, and it can be one that was made before another.

Nothing else goes wrong. Without such a tangle some pending entry is older than none of the others
(`SnapshotLog.exists_newest`), and from wherever it stands the pass ends with it or with an entry of
the same identity.

Main statement: `SnapshotLog.passes_over_none_iff`. -/

namespace ReleaseCandidates

namespace Snapshot

variable {a b a' b' : Snapshot}

/-! ## Comparing entries -/

theorem time?_congr (h : a.id = b.id) : a.time? = b.time? :=
  congrArg Instant.parse? h

/-- The comparison hangs on the identities alone. -/
theorem compareAge_congr (ha : a.id = a'.id) (hb : b.id = b'.id) :
    a.compareAge b = a'.compareAge b' := by
  rw [compareAge, compareAge, time?_congr ha, time?_congr hb, ha, hb]

/-- Where one of the times cannot be read, entries are compared as texts. -/
theorem compareAge_eq_gt_iff_of_unread (h : a.time? = none ∨ b.time? = none) :
    a.compareAge b = .gt ↔ b.id < a.id := by
  have htexts : a.compareAge b = Ord.compare a.id b.id := by
    rw [compareAge]
    rcases h with h | h
    · rw [h]
    · rw [h]
      cases a.time? <;> rfl
  rw [htexts, compare_gt_iff_gt]

theorem AtLeast.compareAge_ne_gt (h : a.AtLeast b) : b.compareAge a ≠ .gt := by
  obtain ⟨t, u, ha, hb, hpair⟩ := h
  rw [Ne, compareAge_eq_gt_iff hb ha, not_lt]
  exact (atLeast_iff ha hb).1 ⟨t, u, ha, hb, hpair⟩

/-- Entries of which neither is newer have one identity. -/
theorem id_eq_of_compareAge (hab : a.compareAge b ≠ .gt) (hba : b.compareAge a ≠ .gt) :
    a.id = b.id := by
  cases ha : a.time? with
  | none =>
    rw [Ne, compareAge_eq_gt_iff_of_unread (.inl ha), not_lt] at hab
    rw [Ne, compareAge_eq_gt_iff_of_unread (.inr ha), not_lt] at hba
    exact le_antisymm hab hba
  | some t =>
    cases hb : b.time? with
    | none =>
      rw [Ne, compareAge_eq_gt_iff_of_unread (.inr hb), not_lt] at hab
      rw [Ne, compareAge_eq_gt_iff_of_unread (.inl hb), not_lt] at hba
      exact le_antisymm hab hba
    | some u =>
      rw [Ne, compareAge_eq_gt_iff ha hb, not_lt] at hab
      rw [Ne, compareAge_eq_gt_iff hb ha, not_lt] at hba
      exact age_eq_age_iff.1 (le_antisymm hab hba)

end Snapshot

namespace SnapshotLog

variable {log log' : SnapshotLog} {candidates : List Snapshot} {best : Option Snapshot}
  {s latest unread early : Snapshot}

/-! ## What the pass ends with -/

theorem later_eq_some {candidate y : Snapshot} (h : later best candidate = some y) :
    y = candidate ∨ best = some y := by
  cases best with
  | none => exact .inl (Option.some.inj h).symm
  | some current =>
    rw [later] at h
    split at h
    · exact .inl (Option.some.inj h).symm
    · exact .inr h

theorem foldl_later_mem (h : candidates.foldl later best = some s) :
    best = some s ∨ s ∈ candidates := by
  induction candidates generalizing best with
  | nil => exact .inl h
  | cons candidate rest ih =>
    rcases ih h with hbest | hmem
    · rcases later_eq_some hbest with rfl | hkept
      · exact .inr List.mem_cons_self
      · exact .inl hkept
    · exact .inr (List.mem_cons_of_mem _ hmem)

theorem mem_waiting_of_nextPending? (h : log.nextPending? = some s) : s ∈ log.waiting :=
  (foldl_later_mem h).resolve_left (Option.some_ne_none s).symm

/-- An entry that is older than none of the others is what the pass ends with, or an entry of the
same identity. -/
theorem foldl_later_of_newest (hbest : ∀ c ∈ best, c.compareAge s ≠ .gt)
    (hcandidates : ∀ c ∈ candidates, c.compareAge s ≠ .gt)
    (hs : s ∈ candidates ∨ ∃ c ∈ best, c.id = s.id) :
    ∃ y, candidates.foldl later best = some y ∧ y.id = s.id := by
  induction candidates generalizing best with
  | nil =>
    obtain ⟨c, hc, hid⟩ := hs.resolve_left nofun
    exact ⟨c, hc, hid⟩
  | cons candidate rest ih =>
    obtain ⟨hcandidate, hrest⟩ := List.forall_mem_cons.1 hcandidates
    refine ih (fun y hy => ?_) hrest ?_
    · rcases later_eq_some hy with rfl | hkept
      · exact hcandidate
      · exact hbest y hkept
    · rcases hs with hs | ⟨c, rfl, hid⟩
      · rcases List.mem_cons.1 hs with rfl | hs
        · refine .inr ?_
          cases best with
          | none => exact ⟨s, rfl, rfl⟩
          | some current =>
            by_cases hgt : s.compareAge current = .gt
            · exact ⟨s, if_pos hgt, rfl⟩
            · exact ⟨current, if_neg hgt, Snapshot.id_eq_of_compareAge (hbest current rfl) hgt⟩
        · exact .inl hs
      · -- the entry of this identity is kept, since the candidate is no newer
        have hkept : candidate.compareAge c ≠ .gt := by
          rwa [Snapshot.compareAge_congr rfl hid]
        exact .inr ⟨c, if_neg hkept, hid⟩

/-! ## Tangles -/

/-- Three pending entries each of which is newer than another: the latest of those whose times can
be read, the greatest text that names no time, and a readable one whose text is greater still. -/
structure Tangle (log : SnapshotLog) (latest unread early : Snapshot) : Prop where
  latest_mem : latest ∈ log.waiting
  latest_greatest : ∀ r ∈ log.waiting, r.time?.isSome → latest.AtLeast r
  unread_mem : unread ∈ log.waiting
  unread_none : unread.time? = none
  unread_greatest : ∀ r ∈ log.waiting, r.time? = none → r.id ≤ unread.id
  early_mem : early ∈ log.waiting
  early_isSome : early.time?.isSome
  latest_lt : latest.id < unread.id
  lt_early : unread.id < early.id

/-- Whether some pending entries are tangled. -/
def Tangled (log : SnapshotLog) : Prop :=
  ∃ latest unread early, log.Tangle latest unread early

/-- An entry that is pending and older than none of the pending ones. -/
def Newest (log : SnapshotLog) (s : Snapshot) : Prop :=
  s ∈ log.waiting ∧ ∀ r ∈ log.waiting, r.compareAge s ≠ .gt

/-- Of the entries that have a property, one has the greatest value. -/
theorem exists_greatest {β : Type} [LinearOrder β] {entries : List Snapshot} {P : Snapshot → Prop}
    (f : Snapshot → β) (h : ∃ r ∈ entries, P r) :
    ∃ m ∈ entries, P m ∧ ∀ r ∈ entries, P r → f r ≤ f m := by
  classical
  obtain ⟨r, hr, hP⟩ := h
  have hmem : r ∈ entries.filter P := List.mem_filter.2 ⟨hr, decide_eq_true hP⟩
  cases hmax : (entries.filter P).argmax f with
  | none =>
    rw [List.argmax_eq_none.1 hmax] at hmem
    cases hmem
  | some m =>
    obtain ⟨hm, hPm⟩ := List.mem_filter.1 (List.argmax_mem hmax)
    exact ⟨m, hm, of_decide_eq_true hPm, fun q hq hPq =>
      List.le_of_mem_argmax (List.mem_filter.2 ⟨hq, decide_eq_true hPq⟩) hmax⟩

/-- The latest of the readable entries. -/
theorem exists_latest (h : ∃ r ∈ log.waiting, r.time?.isSome) :
    ∃ latest ∈ log.waiting, latest.time?.isSome ∧
      ∀ r ∈ log.waiting, r.time?.isSome → latest.AtLeast r := by
  obtain ⟨latest, hmem, hread, hgreatest⟩ := exists_greatest Snapshot.age h
  refine ⟨latest, hmem, hread, fun r hr hreadable => ?_⟩
  obtain ⟨t, ht⟩ := Option.isSome_iff_exists.1 hread
  obtain ⟨u, hu⟩ := Option.isSome_iff_exists.1 hreadable
  exact (Snapshot.atLeast_iff ht hu).2 (hgreatest r hr hreadable)

/-- The latest readable entry is older than none if no unreadable one has a greater text. -/
theorem newest_of_latest (hmem : latest ∈ log.waiting)
    (hgreatest : ∀ r ∈ log.waiting, r.time?.isSome → latest.AtLeast r)
    (hunread : ∀ r ∈ log.waiting, r.time? = none → r.id ≤ latest.id) : log.Newest latest := by
  refine ⟨hmem, fun r hr => ?_⟩
  cases htime : r.time? with
  | none =>
    rw [Ne, Snapshot.compareAge_eq_gt_iff_of_unread (.inl htime), not_lt]
    exact hunread r hr htime
  | some t => exact (hgreatest r hr (Option.isSome_of_mem htime)).compareAge_ne_gt

/-- The greatest unreadable entry is older than none if no readable one has a greater text. -/
theorem newest_of_unread (hmem : unread ∈ log.waiting) (hnone : unread.time? = none)
    (hgreatest : ∀ r ∈ log.waiting, r.id ≤ unread.id) : log.Newest unread := by
  refine ⟨hmem, fun r hr => ?_⟩
  rw [Ne, Snapshot.compareAge_eq_gt_iff_of_unread (.inr hnone), not_lt]
  exact hgreatest r hr

/-- Without a tangle some pending entry is older than none of the others. -/
theorem exists_newest (hwaits : log.waiting ≠ []) (h : ¬ log.Tangled) : ∃ s, log.Newest s := by
  by_cases hunread : ∃ r ∈ log.waiting, r.time? = none
  · obtain ⟨unread, humem, hnone, hugreatest⟩ := exists_greatest Snapshot.id hunread
    by_cases hearly : ∃ r ∈ log.waiting, r.time?.isSome ∧ unread.id < r.id
    · obtain ⟨early, hemem, heread, hlt⟩ := hearly
      obtain ⟨latest, hlmem, -, hlgreatest⟩ := exists_latest ⟨early, hemem, heread⟩
      have hle : unread.id ≤ latest.id := not_lt.1 fun hlatest => h ⟨latest, unread, early,
        hlmem, hlgreatest, humem, hnone, hugreatest, hemem, heread, hlatest, hlt⟩
      exact ⟨latest, newest_of_latest hlmem hlgreatest fun r hr htime =>
        (hugreatest r hr htime).trans hle⟩
    · refine ⟨unread, newest_of_unread humem hnone fun r hr => ?_⟩
      cases htime : r.time? with
      | none => exact hugreatest r hr htime
      | some t => exact not_lt.1 fun hlt => hearly ⟨r, hr, Option.isSome_of_mem htime, hlt⟩
  · have hread : ∀ r ∈ log.waiting, r.time? ≠ none := fun r hr hnone => hunread ⟨r, hr, hnone⟩
    obtain ⟨r, hr⟩ := List.exists_mem_of_ne_nil _ hwaits
    obtain ⟨latest, hmem, -, hgreatest⟩ :=
      exists_latest ⟨r, hr, Option.isSome_iff_ne_none.2 (hread r hr)⟩
    exact ⟨latest, newest_of_latest hmem hgreatest fun r hr hnone => absurd hnone (hread r hr)⟩

/-! ## Logs in another order -/

theorem waiting_perm (h : log'.snapshots.Perm log.snapshots) : log'.waiting.Perm log.waiting :=
  h.filter _

/-- With a newest entry, every order gives an entry of its identity. -/
theorem Newest.exists_next (hs : log.Newest s) (h : log'.snapshots.Perm log.snapshots) :
    ∃ y, log'.nextPending? = some y ∧ y.id = s.id := by
  have hperm := waiting_perm h
  exact foldl_later_of_newest nofun (fun c hc => hs.2 c (hperm.mem_iff.1 hc))
    (.inl (hperm.mem_iff.2 hs.1))

/-- Where no identity is repeated, an entry is known by its identity. -/
theorem eq_of_id_eq (hnodup : log.ids.Nodup) {r : Snapshot} (hs : s ∈ log.snapshots)
    (hr : r ∈ log.snapshots) (h : s.id = r.id) : s = r :=
  List.inj_on_of_nodup_map hnodup hs hr h

/-- With a newest entry and no repeated identity, every order gives that entry. -/
theorem Newest.nextPending?_eq (hs : log.Newest s) (hnodup : log.ids.Nodup)
    (h : log'.snapshots.Perm log.snapshots) : log'.nextPending? = some s := by
  obtain ⟨y, hy, hid⟩ := hs.exists_next h
  have hmem : y ∈ log.waiting := (waiting_perm h).mem_iff.1 (mem_waiting_of_nextPending? hy)
  rw [← eq_of_id_eq hnodup (List.mem_of_mem_filter hmem) (List.mem_of_mem_filter hs.1) hid]
  exact hy

/-- No pending entry was made later than the next one, as far as their times can be read. -/
def PassesOverNone (log : SnapshotLog) : Prop :=
  ∀ s, log.nextPending? = some s → ∀ r ∈ log.waiting, s.NotBefore r

theorem Newest.passesOverNone (hs : log.Newest s) (h : log'.snapshots.Perm log.snapshots) :
    log'.PassesOverNone := by
  obtain ⟨y, hy, hid⟩ := hs.exists_next h
  intro z hz r hr
  obtain rfl := Option.some.inj (hy.symm.trans hz)
  apply Snapshot.notBefore_of_compareAge_ne_gt
  rw [Snapshot.compareAge_congr rfl hid]
  exact hs.2 r ((waiting_perm h).mem_iff.1 hr)

/-- Without a tangle and without repeated identities, every order gives the same entry. -/
theorem nextPending?_eq_of_not_tangled (h : ¬ log.Tangled) (hnodup : log.ids.Nodup)
    (hperm : log'.snapshots.Perm log.snapshots) : log'.nextPending? = log.nextPending? := by
  by_cases hwaits : log.waiting = []
  · have hwaits' : log'.waiting = [] := List.Perm.eq_nil (hwaits ▸ waiting_perm hperm)
    rw [nextPending?, nextPending?, hwaits, hwaits']
  · obtain ⟨s, hs⟩ := exists_newest hwaits h
    rw [hs.nextPending?_eq hnodup hperm, hs.nextPending?_eq hnodup (.refl _)]

theorem passesOverNone_of_not_tangled (h : ¬ log.Tangled)
    (hperm : log'.snapshots.Perm log.snapshots) : log'.PassesOverNone := by
  intro s hs r hr
  have hwaits : log.waiting ≠ [] := List.ne_nil_of_mem ((waiting_perm hperm).mem_iff.1 hr)
  obtain ⟨newest, hnewest⟩ := exists_newest hwaits h
  exact hnewest.passesOverNone hperm s hs r hr

/-! ## What a tangle does -/

/-- The others first, then the greatest unreadable entry and the early one with a greater text. -/
def earlyLast (log : SnapshotLog) (unread early : Snapshot) : SnapshotLog :=
  ⟨(log.snapshots.erase unread).erase early ++ [unread, early]⟩

namespace Tangle

variable (h : log.Tangle latest unread early)
include h

theorem latest_isSome : latest.time?.isSome := by
  obtain ⟨t, -, ht, -⟩ := h.latest_greatest early h.early_mem h.early_isSome
  exact Option.isSome_of_mem ht

theorem early_ne_unread : early ≠ unread := fun heq => h.lt_early.ne' (congrArg Snapshot.id heq)

theorem earlyLast_perm : (log.earlyLast unread early).snapshots.Perm log.snapshots := by
  have hunread : unread ∈ log.snapshots := List.mem_of_mem_filter h.unread_mem
  have hearly : early ∈ log.snapshots.erase unread :=
    (List.mem_erase_of_ne h.early_ne_unread).2 (List.mem_of_mem_filter h.early_mem)
  exact List.perm_append_comm.trans (((List.perm_cons_erase hearly).symm.cons unread).trans
    (List.perm_cons_erase hunread).symm)

/-- Whatever the others come to, two more steps lead to a readable entry of a text greater than any
unreadable one. -/
theorem exists_later_early (hbest : ∀ x ∈ best, x ∈ log.waiting) :
    ∃ z, later (later best unread) early = some z ∧
      z ∈ log.waiting ∧ z.time?.isSome ∧ unread.id < z.id := by
  -- the early entry comes after every unreadable one
  have hearly : ∀ {x : Snapshot}, x.time? = none → x.id ≤ unread.id →
      ∃ z, later (some x) early = some z ∧ z ∈ log.waiting ∧ z.time?.isSome ∧ unread.id < z.id :=
    fun hx hle => ⟨early, if_pos ((Snapshot.compareAge_eq_gt_iff_of_unread (.inr hx)).2
      (hle.trans_lt h.lt_early)), h.early_mem, h.early_isSome, h.lt_early⟩
  cases best with
  | none => exact hearly h.unread_none le_rfl
  | some x =>
    by_cases hgt : unread.compareAge x = .gt
    · rw [later, if_pos hgt]
      exact hearly h.unread_none le_rfl
    · rw [later, if_neg hgt]
      have hxmem : x ∈ log.waiting := hbest x rfl
      cases hx : x.time? with
      | none => exact hearly hx (h.unread_greatest x hxmem hx)
      | some t =>
        have hne : unread.id ≠ x.id := fun heq => by
          rw [← Snapshot.time?_congr heq, h.unread_none] at hx
          cases hx
        rw [Snapshot.compareAge_eq_gt_iff_of_unread (.inl h.unread_none), not_lt] at hgt
        by_cases hnewer : early.compareAge x = .gt
        · exact ⟨early, if_pos hnewer, h.early_mem, h.early_isSome, h.lt_early⟩
        · exact ⟨x, if_neg hnewer, hxmem, Option.isSome_of_mem hx, lt_of_le_of_ne hgt hne⟩

/-- The pass over that order ends with a readable entry that was made before another. -/
theorem exists_next_earlyLast : ∃ z, (log.earlyLast unread early).nextPending? = some z ∧
    z ∈ log.waiting ∧ z.age < latest.age ∧ z.time?.isSome ∧ ¬ z.NotBefore latest := by
  obtain ⟨others, hothers⟩ : ∃ others, others =
    ((log.snapshots.erase unread).erase early).filter Snapshot.isPending := ⟨_, rfl⟩
  have hwaiting : (log.earlyLast unread early).waiting = others ++ [unread, early] := by
    rw [waiting, earlyLast, List.filter_append, hothers]
    congr 1
    simp only [List.filter_cons, List.of_mem_filter h.unread_mem, List.of_mem_filter h.early_mem,
      List.filter_nil, if_true]
  have hbest : ∀ x ∈ others.foldl later none, x ∈ log.waiting := by
    intro x hx
    have hmem : x ∈ others := (foldl_later_mem hx).resolve_left (Option.some_ne_none x).symm
    refine (waiting_perm h.earlyLast_perm).mem_iff.1 ?_
    rw [hwaiting]
    exact List.mem_append_left _ hmem
  obtain ⟨z, hz, hmem, hread, hlt⟩ := h.exists_later_early hbest
  obtain ⟨t, u, ht, hu, hpair⟩ := h.latest_greatest z hmem hread
  have hbefore : u.Before t := hpair.resolve_right fun hid =>
    (h.latest_lt.trans hlt).not_ge hid.2
  refine ⟨z, ?_, hmem, (Snapshot.age_lt_age_iff hu ht).2 (.inl hbefore), hread,
    fun hnot => hnot u t hu ht hbefore⟩
  rw [nextPending?, hwaiting, List.foldl_append]
  exact hz

end Tangle

/-- A tangled log has an order in which the pass goes over an entry that was made later. -/
theorem exists_perm_of_tangled (h : log.Tangled) :
    ∃ log' : SnapshotLog, log'.snapshots.Perm log.snapshots ∧ ¬ log'.PassesOverNone := by
  obtain ⟨latest, unread, early, h⟩ := h
  obtain ⟨z, hz, -, -, -, hnot⟩ := h.exists_next_earlyLast
  refine ⟨log.earlyLast unread early, h.earlyLast_perm, fun hpasses => hnot (hpasses z hz _ ?_)⟩
  exact (waiting_perm h.earlyLast_perm).mem_iff.2 h.latest_mem

/-- An entry is not found where a newer one follows it and no other has its identity. -/
theorem exists_perm_ne_some {z newer : Snapshot} (hnodup : log.ids.Nodup) (hz : z ∈ log.waiting)
    (hnewer : newer ∈ log.waiting) (hne : newer ≠ z) (hgt : newer.compareAge z = .gt) :
    ∃ log' : SnapshotLog, log'.snapshots.Perm log.snapshots ∧ log'.nextPending? ≠ some z := by
  obtain ⟨others, hothers⟩ : ∃ others, others = (log.snapshots.erase z).erase newer := ⟨_, rfl⟩
  have hmem : newer ∈ log.snapshots.erase z :=
    (List.mem_erase_of_ne hne).2 (List.mem_of_mem_filter hnewer)
  have hperm : (z :: newer :: others).Perm log.snapshots := by
    rw [hothers]
    exact ((List.perm_cons_erase hmem).symm.cons z).trans
      (List.perm_cons_erase (List.mem_of_mem_filter hz)).symm
  have hnotmem : z ∉ others := by
    have hlog : log.snapshots.Nodup := List.Nodup.of_map _ hnodup
    have hcons : (z :: newer :: others).Nodup := hperm.nodup_iff.2 hlog
    exact fun hin => (List.nodup_cons.1 hcons).1 (List.mem_cons_of_mem _ hin)
  refine ⟨⟨z :: newer :: others⟩, hperm, fun hnext => ?_⟩
  have hpass : (others.filter Snapshot.isPending).foldl later (some newer) = some z := by
    rw [nextPending?, waiting, List.filter_cons_of_pos (List.of_mem_filter hz),
      List.filter_cons_of_pos (List.of_mem_filter hnewer), List.foldl_cons,
      List.foldl_cons] at hnext
    rwa [later, later, if_pos hgt] at hnext
  rcases foldl_later_mem hpass with hkept | hin
  · exact hne (Option.some.inj hkept)
  · exact hnotmem (List.mem_of_mem_filter hin)

/-- A tangled log without repeated identities has an order that gives another entry. -/
theorem exists_perm_ne_of_tangled (h : log.Tangled) (hnodup : log.ids.Nodup) :
    ∃ log' : SnapshotLog,
      log'.snapshots.Perm log.snapshots ∧ log'.nextPending? ≠ log.nextPending? := by
  obtain ⟨latest, unread, early, h⟩ := h
  obtain ⟨z, hz, hmem, hage, hread, -⟩ := h.exists_next_earlyLast
  obtain ⟨t, ht⟩ := Option.isSome_iff_exists.1 hread
  obtain ⟨u, hu⟩ := Option.isSome_iff_exists.1 h.latest_isSome
  have hgt : latest.compareAge z = .gt := (Snapshot.compareAge_eq_gt_iff hu ht).2 hage
  have hne : latest ≠ z := fun heq => hage.ne (congrArg Snapshot.age heq.symm)
  obtain ⟨log', hperm, hother⟩ := exists_perm_ne_some hnodup hmem h.latest_mem hne hgt
  by_cases hlog : log.nextPending? = some z
  · exact ⟨log', hperm, hlog ▸ hother⟩
  · exact ⟨log.earlyLast unread early, h.earlyLast_perm, hz ▸ Ne.symm hlog⟩

/-- **A newer entry is passed over only where some are tangled.** The next entry is older than no
pending one in whatever order the entries of a log stand, exactly if none of them are tangled; and
where no identity is repeated, it is the same entry in whatever order exactly then. -/
theorem passes_over_none_iff (log : SnapshotLog) :
    ((∀ log' : SnapshotLog, log'.snapshots.Perm log.snapshots → log'.PassesOverNone) ↔
        ¬ log.Tangled) ∧
      (log.ids.Nodup →
        ((∀ log' : SnapshotLog, log'.snapshots.Perm log.snapshots →
            log'.nextPending? = log.nextPending?) ↔ ¬ log.Tangled)) := by
  refine ⟨⟨fun hall htangled => ?_, fun h log' => passesOverNone_of_not_tangled h⟩,
    fun hnodup => ⟨fun hall htangled => ?_,
      fun h log' => nextPending?_eq_of_not_tangled h hnodup⟩⟩
  · obtain ⟨log', hperm, hnot⟩ := exists_perm_of_tangled htangled
    exact hnot (hall log' hperm)
  · obtain ⟨log', hperm, hother⟩ := exists_perm_ne_of_tangled htangled hnodup
    exact hother (hall log' hperm)

/-- Three pending entries, one of a time that cannot be read and has the smallest text. -/
def withShortTime : SnapshotLog := ⟨[
  ⟨⟨"2025-03-10T10:00:00+05:00", .pending, none⟩, []⟩,
  ⟨⟨"2025-03-10T08", .pending, none⟩, []⟩,
  ⟨⟨"2025-03-10T09:00:00Z", .pending, none⟩, [.ofRelease "o/a" "1"]⟩]⟩

theorem passes_over_none_with_short_time :
    withShortTime.ids.Nodup ∧
      ∀ log' : SnapshotLog, log'.snapshots.Perm withShortTime.snapshots →
        log'.PassesOverNone ∧
          log'.nextPending? =
            some ⟨⟨"2025-03-10T09:00:00Z", .pending, none⟩, [.ofRelease "o/a" "1"]⟩ := by
  have hnodup : withShortTime.ids.Nodup := by decide +kernel
  have hnext : withShortTime.nextPending? =
      some ⟨⟨"2025-03-10T09:00:00Z", .pending, none⟩, [.ofRelease "o/a" "1"]⟩ := by
    decide +kernel
  have hsmallest : ∀ u ∈ withShortTime.waiting, u.time? = none →
      ∀ r ∈ withShortTime.waiting, ¬ r.id < u.id := by
    decide +kernel
  have htangled : ¬ withShortTime.Tangled := fun ⟨latest, unread, _, h⟩ =>
    hsmallest unread h.unread_mem h.unread_none latest h.latest_mem h.latest_lt
  have hiff := passes_over_none_iff withShortTime
  refine ⟨hnodup, fun log' hperm => ⟨hiff.1.2 htangled log' hperm, ?_⟩⟩
  rw [(hiff.2 hnodup).2 htangled log' hperm, hnext]

/-- Three pending entries that are tangled: the latest, one of a time without seconds, and an early
one in another notation. -/
def withoutSeconds : SnapshotLog := ⟨[
  ⟨⟨"2025-03-10T09:00:00Z", .pending, none⟩, []⟩,
  ⟨⟨"2025-03-10T09:30", .pending, none⟩, []⟩,
  ⟨⟨"2025-03-10T10:00:00+05:00", .pending, none⟩, []⟩]⟩

theorem passes_over_in_tangle :
    (¬ ∀ log : SnapshotLog, log.PassesOverNone) ∧
      ¬ ∀ log log' : SnapshotLog, log.ids.Nodup → log'.snapshots.Perm log.snapshots →
        log'.nextPending? = log.nextPending? := by
  constructor
  · intro hall
    have hnext : withoutSeconds.nextPending? =
        some ⟨⟨"2025-03-10T10:00:00+05:00", .pending, none⟩, []⟩ := by
      decide +kernel
    have hlatest : ⟨⟨"2025-03-10T09:00:00Z", .pending, none⟩, []⟩ ∈ withoutSeconds.waiting := by
      decide +kernel
    have hearly : Instant.parse? "2025-03-10T10:00:00+05:00" = some (.atSecond 1741582800) := by
      decide +kernel
    have hlate : Instant.parse? "2025-03-10T09:00:00Z" = some (.atSecond 1741597200) := by
      decide +kernel
    exact hall withoutSeconds _ hnext _ hlatest _ _ hearly hlate (.inl (by decide))
  · intro hall
    have hnodup : withoutSeconds.ids.Nodup := by decide +kernel
    have hrotated := hall withoutSeconds ⟨withoutSeconds.snapshots.rotate 2⟩ hnodup
      (List.rotate_perm _ _)
    revert hrotated
    decide +kernel

end SnapshotLog

end ReleaseCandidates
