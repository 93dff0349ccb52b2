import Mathlib.Data.Finset.Dedup
import Mathlib.Data.List.Destutter
import Mathlib.Data.List.SplitBy
import ReleaseCandidates.Proofs.SnapshotLog.History

set_option autoImplicit false

/-! # What a log remembers of the offers made to it

Two lists of components are the same to a log when they stand for the same artifacts, whatever
their order, repetitions, names and digests. A log that started empty holds, oldest first, one list
for each group of consecutive offers that are the same, namely the first of the group. Verdicts may
come in between: they change no components, so the newest entry stands for the last offer at every
moment (`newestArtifacts?_after`), and an offer is compared with the one before it although the log
only has an entry to compare with.

Main statement: `SnapshotLog.records_exactly_the_changes`. -/

namespace ReleaseCandidates

/-! ## Sets of artifacts -/

/-- The artifacts that components stand for: of each component the repository, the ref and the
image, if there is one. -/
def artifacts (components : List Component) : Finset (String × String × Option String) :=
  (components.map fun c => (c.repository, c.ref, c.imageUrl)).toFinset

/-- The identity of a component says what artifact it stands for. -/
theorem toFinset_map_key (components : List Component) :
    (components.map Component.key).toFinset = artifacts components := rfl

theorem sameComponents_iff_artifacts_eq {a b : List Component} :
    sameComponents a b = true ↔ artifacts a = artifacts b := by
  simp only [sameComponents_iff, ← toFinset_map_key, Finset.ext_iff, List.mem_toFinset]

/-- Two lists stand for different artifacts. -/
abbrev Differ (a b : List Component) : Prop :=
  artifacts a ≠ artifacts b

/-! ## Groups of equal offers -/

/-- Consecutive lists that stand for the same artifacts, put together. -/
def groupsOfSame (offers : List (List Component)) : List (List (List Component)) :=
  offers.splitBy fun a b => artifacts a = artifacts b

/-- The first of each group of consecutive lists that stand for the same artifacts. -/
def firstOfEachGroup (offers : List (List Component)) : List (List Component) :=
  (groupsOfSame offers).filterMap List.head?

section Groups

variable {a b : List Component} {rest : List (List Component)}

theorem exists_groupsOfSame_eq_cons (b : List Component) (rest : List (List Component)) :
    ∃ more groups, groupsOfSame (b :: rest) = (b :: more) :: groups := by
  obtain ⟨hflatten, hnil, -, -⟩ := List.splitBy_eq_iff.1 (rfl : groupsOfSame (b :: rest) = _)
  match hgroups : groupsOfSame (b :: rest) with
  | [] => simp [hgroups] at hflatten
  | [] :: groups => simp [hgroups] at hnil
  | (c :: more) :: groups =>
    rw [hgroups, List.flatten_cons, List.cons_append, List.cons.injEq] at hflatten
    exact ⟨more, groups, by rw [hflatten.1]⟩

theorem firstOfEachGroup_of_differ (h : Differ a b) :
    firstOfEachGroup (a :: b :: rest) = a :: firstOfEachGroup (b :: rest) := by
  have hsplit : groupsOfSame ([a] ++ b :: rest) = groupsOfSame [a] ++ groupsOfSame (b :: rest) :=
    List.splitBy_append_cons rest (by simpa using h)
  rw [firstOfEachGroup, ← List.singleton_append, hsplit]
  rfl

/-- A list that is the same as the one after it takes that one's place as the first of its group. -/
theorem firstOfEachGroup_cons_cons (h : artifacts a = artifacts b) :
    firstOfEachGroup (a :: b :: rest) = a :: (firstOfEachGroup (b :: rest)).tail := by
  obtain ⟨more, groups, hgroups⟩ := exists_groupsOfSame_eq_cons b rest
  have hsplit : groupsOfSame (a :: b :: rest) = (a :: b :: more) :: groups := by
    obtain ⟨hflatten, hnil, hchain, hends⟩ := List.splitBy_eq_iff.1 hgroups
    refine List.splitBy_eq_iff.2 ⟨?_, ?_, ?_, ?_⟩
    · rw [hflatten]
      rfl
    · simpa using hnil
    · intro group hgroup
      rcases List.mem_cons.1 hgroup with rfl | hgroup
      · exact .cons_cons (by simpa using h) (hchain _ List.mem_cons_self)
      · exact hchain group (List.mem_cons_of_mem _ hgroup)
    · rw [List.isChain_cons] at hends ⊢
      refine ⟨fun group hgroup => ?_, hends.2⟩
      obtain ⟨_, hne, hlast⟩ := hends.1 group hgroup
      refine ⟨List.cons_ne_nil _ _, hne, ?_⟩
      rw [List.getLast_cons (List.cons_ne_nil _ _)]
      exact hlast
  rw [firstOfEachGroup, firstOfEachGroup, hgroups, hsplit]
  rfl

/-- Only the artifacts of the first list count for the groups after its own. -/
theorem firstOfEachGroup_cons_congr (h : artifacts a = artifacts b) :
    firstOfEachGroup (a :: rest) = a :: (firstOfEachGroup (b :: rest)).tail := by
  cases rest with
  | nil => rfl
  | cons c rest =>
    by_cases hc : artifacts b = artifacts c
    · rw [firstOfEachGroup_cons_cons hc, firstOfEachGroup_cons_cons (h.trans hc), List.tail_cons]
    · have ha : Differ a c := fun heq => hc (h.symm.trans heq)
      rw [firstOfEachGroup_of_differ hc, firstOfEachGroup_of_differ ha, List.tail_cons]

theorem firstOfEachGroup_of_same (h : artifacts a = artifacts b) :
    firstOfEachGroup (a :: b :: rest) = firstOfEachGroup (a :: rest) := by
  rw [firstOfEachGroup_cons_cons h, ← firstOfEachGroup_cons_congr h]

/-- To keep the first of each group is to drop every list that is the same as the one kept last. -/
theorem firstOfEachGroup_cons (a : List Component) (rest : List (List Component)) :
    firstOfEachGroup (a :: rest) = rest.destutter' Differ a := by
  induction rest generalizing a with
  | nil => rfl
  | cons b rest ih =>
    by_cases h : artifacts a = artifacts b
    · rw [List.destutter'_cons_neg _ (not_not.2 h), firstOfEachGroup_of_same h, ih a]
    · rw [List.destutter'_cons_pos _ h, firstOfEachGroup_of_differ h, ih b]

theorem isChain_firstOfEachGroup (offers : List (List Component)) :
    (firstOfEachGroup offers).IsChain Differ := by
  cases offers with
  | nil => exact .nil
  | cons a rest =>
    rw [firstOfEachGroup_cons]
    exact List.isChain_destutter' _ rest a

end Groups

/-! ## Offers in a run of changes -/

/-- The components that a change offers, if it offers any. -/
def LogChange.offered? : LogChange → Option (List Component)
  | .offer components _ => some components
  | .verdict _ _ => none

/-- The lists of components that are offered in a run of changes, in order. -/
def offersOf (changes : List LogChange) : List (List Component) :=
  changes.filterMap LogChange.offered?

@[simp] theorem offersOf_offer (components : List Component) (time : Instant)
    (changes : List LogChange) :
    offersOf (.offer components time :: changes) = components :: offersOf changes := rfl

@[simp] theorem offersOf_verdict (updated : Snapshot) (now : Instant) (changes : List LogChange) :
    offersOf (.verdict updated now :: changes) = offersOf changes := rfl

namespace SnapshotLog

variable {log : SnapshotLog}

/-- The lists of components that a log holds, oldest first. -/
def recorded (log : SnapshotLog) : List (List Component) :=
  (log.snapshots.map Snapshot.components).reverse

/-- The artifacts of the newest entry. -/
def newestArtifacts? (log : SnapshotLog) : Option (Finset (String × String × Option String)) :=
  log.recorded.getLast?.map artifacts

theorem holdsNewest_iff {components : List Component} :
    log.holdsNewest components = true ↔ log.newestArtifacts? = some (artifacts components) := by
  obtain ⟨snapshots⟩ := log
  cases snapshots with
  | nil => simp [holdsNewest, newest?, newestArtifacts?, recorded]
  | cons newest older =>
    simp [holdsNewest, newest?, newestArtifacts?, recorded, sameComponents_iff_artifacts_eq]

/-! ## One change -/

/-- A verdict changes no components, so it leaves no trace in what is recorded. -/
theorem recorded_apply_verdict (log : SnapshotLog) (updated : Snapshot) (now : Instant) :
    ((LogChange.verdict updated now).apply log).2.recorded = log.recorded := by
  simp only [LogChange.apply, recordVerdict]
  cases h : completeFirst updated.id updated.status (verdictTime updated now) log.snapshots with
  | error failure => rfl
  | ok result => simp only [recorded, (completeFirst_frame h).2]

theorem apply_offer_of_same {components : List Component} (time : Instant)
    (h : log.newestArtifacts? = some (artifacts components)) :
    (LogChange.offer components time).apply log = (.ok (.offered .unchanged), log) := by
  simp only [LogChange.apply, offer_of_holdsNewest time (holdsNewest_iff.2 h)]

theorem apply_offer_of_differ {components : List Component} (time : Instant)
    (h : log.newestArtifacts? ≠ some (artifacts components)) :
    (LogChange.offer components time).apply log =
      (.ok (.offered (.inserted time.format)),
        ⟨Snapshot.pending components time :: log.snapshots⟩) := by
  have hnot : log.holdsNewest components = false :=
    Bool.eq_false_iff.2 fun hholds => h (holdsNewest_iff.1 hholds)
  simp only [LogChange.apply, offer_of_not_holdsNewest time hnot]

@[simp] theorem recorded_pending_cons (components : List Component) (time : Instant)
    (snapshots : List Snapshot) :
    recorded ⟨Snapshot.pending components time :: snapshots⟩ =
      recorded ⟨snapshots⟩ ++ [components] := by
  simp [recorded, Snapshot.pending]

/-- Whatever an offer was answered, the newest entry stands for it afterwards. -/
theorem newestArtifacts?_apply_offer (log : SnapshotLog) (components : List Component)
    (time : Instant) :
    ((LogChange.offer components time).apply log).2.newestArtifacts? =
      some (artifacts components) := by
  by_cases h : log.newestArtifacts? = some (artifacts components)
  · rw [apply_offer_of_same time h, h]
  · rw [apply_offer_of_differ time h]
    simp [newestArtifacts?]

/-! ## Any number of changes -/

/-- The newest entry stands for the last offer, and for what it stood for before as long as there
was none. -/
theorem newestArtifacts?_after (log : SnapshotLog) (changes : List LogChange) :
    (log.after changes).newestArtifacts? =
      (((offersOf changes).getLast?.map artifacts).or log.newestArtifacts?) := by
  induction changes generalizing log with
  | nil => rfl
  | cons change changes ih =>
    rw [after_cons, ih]
    cases change with
    | offer components time =>
      rw [newestArtifacts?_apply_offer, offersOf_offer, List.getLast?_cons]
      cases (offersOf changes).getLast? <;> rfl
    | verdict updated now =>
      rw [offersOf_verdict, newestArtifacts?, recorded_apply_verdict, newestArtifacts?]

/-- What is recorded after the newest entry: of the offers that are not the same as that entry, the
first of each group. -/
theorem recorded_after_of_newest (changes : List LogChange) {older : List (List Component)}
    {newest : List Component} (h : log.recorded = older ++ [newest]) :
    (log.after changes).recorded = older ++ firstOfEachGroup (newest :: offersOf changes) := by
  induction changes generalizing log older newest with
  | nil => exact h
  | cons change changes ih =>
    rw [after_cons]
    cases change with
    | offer components time =>
      have hnewest : log.newestArtifacts? = some (artifacts newest) := by
        simp [newestArtifacts?, h]
      by_cases hsame : artifacts newest = artifacts components
      · -- the entry goes on to stand for the offer, so the group goes on
        rw [apply_offer_of_same time (hnewest.trans (congrArg some hsame)), ih h, offersOf_offer,
          firstOfEachGroup_of_same hsame]
      · have hdiffer : log.newestArtifacts? ≠ some (artifacts components) := by
          simpa [hnewest] using hsame
        have hrecorded := recorded_pending_cons components time log.snapshots
        rw [apply_offer_of_differ time hdiffer, ih hrecorded, h, offersOf_offer,
          firstOfEachGroup_of_differ hsame, List.append_assoc, List.singleton_append]
    | verdict updated now =>
      rw [offersOf_verdict]
      exact ih ((recorded_apply_verdict log updated now).trans h)

theorem recorded_after_empty (changes : List LogChange) :
    (empty.after changes).recorded = firstOfEachGroup (offersOf changes) := by
  induction changes with
  | nil => rfl
  | cons change changes ih =>
    rw [after_cons]
    cases change with
    | offer components time =>
      -- the first offer makes the first entry; from then on there is a newest one
      have hfirst : empty.newestArtifacts? ≠ some (artifacts components) := nofun
      rw [apply_offer_of_differ time hfirst]
      exact recorded_after_of_newest changes (recorded_pending_cons components time [])
    | verdict updated now => exact ih

/-! ## The record -/

/-- **A log records exactly the changes of what is offered.** Over any offers to an empty log, with
any verdicts in between, the log holds the first of each group of consecutive offers that stand for
the same artifacts, oldest first; so no two neighbouring entries stand for the same; and at every
moment an offer is recorded, under its time, unless it is the same as the offer before it. -/
theorem records_exactly_the_changes (changes : List LogChange) :
    (empty.after changes).recorded = firstOfEachGroup (offersOf changes) ∧
      (empty.after changes).recorded.IsChain Differ ∧
      ∀ i components time,
        ((LogChange.offer components time).apply (empty.after (changes.take i))).1 =
          .ok (.offered
            (if (offersOf (changes.take i)).getLast?.map artifacts = some (artifacts components)
              then .unchanged else .inserted time.format)) := by
  refine ⟨recorded_after_empty changes, ?_, ?_⟩
  · rw [recorded_after_empty]
    exact isChain_firstOfEachGroup (offersOf changes)
  · intro i components time
    have hnewest : (empty.after (changes.take i)).newestArtifacts? =
        (offersOf (changes.take i)).getLast?.map artifacts := by
      rw [newestArtifacts?_after]
      exact Option.or_none
    split
    · next hsame => rw [apply_offer_of_same time (hnewest.trans hsame)]
    · next hdiffer => rw [apply_offer_of_differ time (hnewest ▸ hdiffer)]

end SnapshotLog

end ReleaseCandidates
