import Mathlib.Data.String.Basic
import ReleaseCandidates.Proofs.FileSystem.Elsewhere
import ReleaseCandidates.Proofs.SnapshotLog.OnFile
import ReleaseCandidates.TestRun

set_option autoImplicit false

/-! # Where the verdict of a test run goes

A test run picks an entry of the log, runs the tests for it and records the verdict under the
entry's identity. Between the two the identity is all that is kept, and nothing makes identities
unique: a log may be read that repeats one, and scans at the same instant give one. The verdict goes
to the first entry with the identity (`SnapshotLog.completeFirst_eq_of_first`), so it goes to the
entry that was tested only if no entry before that one has the same identity. Otherwise it goes
astray: to the earlier entry if that one is pending, and nowhere if its tests are over. Which
verdict is due is said by `TestRun.Deserves`, case by case.

Main statement: `TestRun.verdict_recorded_iff`. -/

namespace ReleaseCandidates

/-! ## Positions -/

namespace SnapshotLog

variable {log : SnapshotLog} {id : String} {status : Status} {time : Instant}
  {entries : List Snapshot} {e s : Snapshot} {j k : Nat}

/-- The later of the best entry so far and a candidate, both with their positions. -/
def laterAt (best : Option (Snapshot × Nat)) (candidate : Snapshot × Nat) :
    Option (Snapshot × Nat) :=
  match best with
  | some current =>
    if candidate.1.compareAge current.1 = .gt then some candidate else some current
  | none => some candidate

/-- The pending entry that was made last, with its position. -/
def nextPendingAt? (log : SnapshotLog) : Option (Snapshot × Nat) :=
  (log.snapshots.zipIdx.filter fun p => p.1.isPending).foldl laterAt none

theorem map_foldl_laterAt (candidates : List (Snapshot × Nat)) (best : Option (Snapshot × Nat)) :
    (candidates.foldl laterAt best).map Prod.fst =
      (candidates.map Prod.fst).foldl later (best.map Prod.fst) := by
  induction candidates generalizing best with
  | nil => rfl
  | cons candidate candidates ih =>
    have hstep : (laterAt best candidate).map Prod.fst =
        later (best.map Prod.fst) candidate.1 := by
      cases best with
      | none => rfl
      | some current =>
        simp only [laterAt, later, Option.map_some]
        split <;> rfl
    simp only [List.foldl_cons, List.map_cons, ih, hstep]

theorem map_nextPendingAt? (log : SnapshotLog) :
    log.nextPendingAt?.map Prod.fst = log.nextPending? := by
  have hwaiting : (log.snapshots.zipIdx.filter fun p => p.1.isPending).map Prod.fst =
      log.waiting :=
    calc (log.snapshots.zipIdx.filter fun p => p.1.isPending).map Prod.fst
        = (log.snapshots.zipIdx.map Prod.fst).filter Snapshot.isPending := by
          rw [List.filter_map]
          rfl
      _ = log.waiting := by rw [List.zipIdx_map_fst, waiting]
  rw [nextPendingAt?, map_foldl_laterAt, hwaiting]
  rfl

/-- The best of some candidates is one of them. -/
theorem foldl_laterAt_mem {candidates : List (Snapshot × Nat)} {best : Option (Snapshot × Nat)}
    {p : Snapshot × Nat} (h : candidates.foldl laterAt best = some p) :
    best = some p ∨ p ∈ candidates := by
  induction candidates generalizing best with
  | nil => exact .inl h
  | cons candidate candidates ih =>
    rcases ih h with hbest | hmem
    · have hcases : best = some p ∨ candidate = p := by
        cases best with
        | none => exact .inr (Option.some.inj hbest)
        | some current =>
          simp only [laterAt] at hbest
          split at hbest
          · exact .inr (Option.some.inj hbest)
          · exact .inl hbest
      rcases hcases with hbest | rfl
      · exact .inl hbest
      · exact .inr List.mem_cons_self
    · exact .inr (List.mem_cons_of_mem _ hmem)

theorem nextPendingAt?_eq_some (h : log.nextPendingAt? = some (s, k)) :
    log.snapshots[k]? = some s ∧ s.status = .pending := by
  rcases foldl_laterAt_mem h with hnone | hmem
  · cases hnone
  · obtain ⟨hmem, hpending⟩ := List.mem_filter.1 hmem
    exact ⟨List.mk_mem_zipIdx_iff_getElem?.1 hmem, by simpa [Snapshot.isPending] using hpending⟩

/-! ## The first entry with an identity -/

/-- No entry before a position has the identity. -/
def NoneBefore (log : SnapshotLog) (k : Nat) (id : String) : Prop :=
  ∀ j < k, ∀ e, log.snapshots[j]? = some e → e.id ≠ id

/-- An identity that an entry has is found at that entry or at one before it. -/
theorem exists_first (h : log.snapshots[k]? = some s) :
    ∃ j ≤ k, ∃ e, log.snapshots[j]? = some e ∧ e.id = s.id ∧ log.NoneBefore j s.id := by
  induction k using Nat.strong_induction_on generalizing s with
  | _ k ih =>
    by_cases hfirst : log.NoneBefore k s.id
    · exact ⟨k, Nat.le_refl k, s, h, rfl, hfirst⟩
    · simp only [NoneBefore, not_forall, not_not] at hfirst
      obtain ⟨j, hjk, e, he, hid⟩ := hfirst
      obtain ⟨i, hij, d, hd, hde, hnone⟩ := ih j hjk he
      exact ⟨i, hij.trans hjk.le, d, hd, hde.trans hid, hid ▸ hnone⟩

/-- A verdict is recorded for the first entry with the identity, if it is pending. -/
theorem completeFirst_eq_of_first (h : entries[j]? = some e)
    (hnone : ∀ i < j, ∀ d, entries[i]? = some d → d.id ≠ e.id) :
    completeFirst e.id status time entries =
      (e.complete status time).map fun done => (done, entries.set j done) := by
  induction entries generalizing j with
  | nil => simp at h
  | cons d rest ih =>
    cases j with
    | zero =>
      obtain rfl : d = e := by simpa using h
      simp only [completeFirst, if_pos]
      cases d.complete status time with
      | error failure => rfl
      | ok done => rfl
    | succ j =>
      have hd : d.id ≠ e.id := hnone 0 (Nat.succ_pos j) d rfl
      have hrest := ih (j := j) h fun i hi d' hd' => hnone (i + 1) (Nat.succ_lt_succ hi) d' hd'
      simp only [completeFirst, if_neg hd, hrest]
      cases e.complete status time with
      | error failure => rfl
      | ok done => rfl

theorem recordVerdict_eq_of_first {updated : Snapshot} (now : Instant)
    (h : log.snapshots[j]? = some e) (hid : e.id = updated.id)
    (hnone : log.NoneBefore j updated.id) :
    log.recordVerdict updated now =
      (e.complete updated.status (verdictTime updated now)).map
        fun done => (done, ⟨log.snapshots.set j done⟩) := by
  rw [recordVerdict, ← hid, completeFirst_eq_of_first h (hid ▸ hnone)]
  cases e.complete updated.status (verdictTime updated now) with
  | error failure => rfl
  | ok done => rfl

end SnapshotLog

/-- The position in a log that a choice is for. -/
def SnapshotChoice.position? (log : SnapshotLog) : SnapshotChoice → Option Nat
  | .pending => log.nextPendingAt?.map Prod.snd
  | .id name => log.snapshots.findIdx? fun s => s.id == name
  | .index i => if i < log.size then some i else none

namespace TestRun

open SnapshotLog (NoneBefore)

variable {path : String} {fs : FileSystem} {log : SnapshotLog} {selector : SnapshotChoice}
  {j k : Nat} {e s : Snapshot}

/-! ## Entries that are tested -/

/-- The choice is for the entry `s` at position `k`, and the entry is pending. -/
structure Chosen (log : SnapshotLog) (selector : SnapshotChoice) (k : Nat) (s : Snapshot) :
    Prop where
  position : selector.position? log = some k
  entry : log.snapshots[k]? = some s
  pending : s.status = .pending

theorem demand_eq_ok_some_iff {name : String} {found : Option Snapshot} :
    demand name found = .ok (some s) ↔ found = some s ∧ s.status = .pending := by
  cases found with
  | none => simp [demand]
  | some d =>
    rw [← Status.isFinal_eq_false_iff]
    cases hd : d.status.isFinal with
    | false =>
      simp only [demand, hd, Bool.false_eq_true, if_false, Except.ok.injEq, Option.some.injEq]
      exact ⟨fun heq => ⟨heq, heq ▸ hd⟩, fun heq => heq.1⟩
    | true =>
      simp only [demand, hd, if_true, reduceCtorEq, Option.some.injEq, false_iff, not_and]
      rintro rfl
      simp [hd]

/-- No entry is picked where no log can be loaded. -/
theorem select_of_unloaded {failure : Failure} (selector : SnapshotChoice)
    (h : StoredLog.load path fs = .error failure) : select path selector fs = .error failure := by
  cases selector <;>
    simp only [select, StoredLog.nextPending, StoredLog.withId, StoredLog.atPosition, h, Except.map]

/-- A run is for the entry that is chosen, and there is no other entry that it is for. -/
theorem select_eq_some_iff (hlog : StoredLog.load path fs = .ok log) :
    select path selector fs = .ok (some s) ↔ ∃ k, Chosen log selector k s := by
  cases selector with
  | pending =>
    unfold select StoredLog.nextPending
    simp only [hlog, Except.map, Except.ok.injEq, ← SnapshotLog.map_nextPendingAt?]
    constructor
    · intro h
      obtain ⟨⟨d, k⟩, hk, rfl⟩ := Option.map_eq_some_iff.1 h
      obtain ⟨hentry, hpending⟩ := SnapshotLog.nextPendingAt?_eq_some hk
      exact ⟨k, by simp [SnapshotChoice.position?, hk], hentry, hpending⟩
    · rintro ⟨k, hposition, hentry, -⟩
      obtain ⟨⟨d, i⟩, hi, rfl⟩ := Option.map_eq_some_iff.1 hposition
      have hd := (SnapshotLog.nextPendingAt?_eq_some hi).1
      simp only [hd, Option.some.injEq] at hentry
      simp [hi, hentry]
  | id id =>
    unfold select StoredLog.withId
    simp only [hlog, Except.map, demand_eq_ok_some_iff,
      SnapshotLog.withId?, List.find?_eq_bind_findIdx?_getElem?, Option.bind_eq_some_iff]
    exact ⟨fun ⟨⟨k, hk, hentry⟩, hpending⟩ => ⟨k, hk, hentry, hpending⟩,
      fun ⟨k, hk, hentry, hpending⟩ => ⟨⟨k, hk, hentry⟩, hpending⟩⟩
  | index index =>
    unfold select StoredLog.atPosition
    simp only [hlog, Except.map, demand_eq_ok_some_iff,
      SnapshotLog.atPosition?]
    constructor
    · rintro ⟨hentry, hpending⟩
      obtain ⟨hlt, -⟩ := List.getElem?_eq_some_iff.1 hentry
      exact ⟨index, if_pos hlt, hentry, hpending⟩
    · rintro ⟨k, hposition, hentry, hpending⟩
      simp only [SnapshotChoice.position?] at hposition
      split at hposition
      · obtain rfl := Option.some.inj hposition
        exact ⟨hentry, hpending⟩
      · cases hposition

/-- An entry that is chosen by its identity is the first one with it. -/
theorem Chosen.noneBefore_of_id {name : String} (h : Chosen log (.id name) k s) :
    log.NoneBefore k s.id := by
  obtain ⟨hk, hname, hbefore⟩ := List.findIdx?_eq_some_iff_getElem.1 h.position
  obtain rfl : log.snapshots[k] = s := (List.getElem?_eq_some_iff.1 h.entry).2
  intro j hj e he
  obtain ⟨hlt, rfl⟩ := List.getElem?_eq_some_iff.1 he
  rw [eq_of_beq hname]
  simpa using hbefore j hj

/-! ## Verdicts on file -/

/-- What is loaded depends on nothing but what the path names. -/
theorem load_of_inspect_eq {fs' : FileSystem} (h : fs'.inspect path = fs.inspect path) :
    StoredLog.load path fs' = StoredLog.load path fs := by
  unfold StoredLog.load StoredLog.isThere FileSystem.readRegular
  rw [h]

/-- The file at the path holds a text that reads as the log. -/
def OnFile (path : String) (fs : FileSystem) (log : SnapshotLog) : Prop :=
  ∃ text, fs.inspect path = .ok (.file (.text text)) ∧ SnapshotLog.parse text = .ok log

theorem OnFile.unique {log' : SnapshotLog} (h : OnFile path fs log) (h' : OnFile path fs log') :
    log = log' := by
  obtain ⟨text, hinspect, hparse⟩ := h
  obtain ⟨text', hinspect', hparse'⟩ := h'
  obtain rfl : text = text' := by simpa [hinspect] using hinspect'
  exact Except.ok.inj (hparse.symm.trans hparse')

theorem onFile_of_save {fs' : FileSystem} (h : StoredLog.save path log fs = .ok fs') :
    OnFile path fs' log :=
  ⟨log.render, FileSystem.inspect_of_replaceFile h, SnapshotLog.parse_render log⟩

/-! ## What an entry deserves -/

/-- The status that an entry deserves by what the action for it did: it is successful if the action
reported success. It has failed if the action ended in any other way, and also if the action could
not be started. -/
inductive Deserves : Except Failure ActionResult → Status → Prop where
  | passed (exitCode : Option Int) : Deserves (.ok ⟨true, exitCode⟩) .successful
  | failed (exitCode : Option Int) : Deserves (.ok ⟨false, exitCode⟩) .failed
  | unstarted (failure : Failure) : Deserves (.error failure) .failed

theorem deserves_verdict (result : Except Failure ActionResult) :
    Deserves result (verdict result) := by
  rcases result with failure | ⟨success, exitCode⟩
  · exact .unstarted failure
  · cases success with
    | true => exact .passed exitCode
    | false => exact .failed exitCode

/-- There is one status that an entry deserves, and the program gives it this one. -/
theorem Deserves.eq_verdict {result : Except Failure ActionResult} {status : Status}
    (h : Deserves result status) : status = verdict result := by
  cases h <;> rfl

theorem Deserves.unique {result : Except Failure ActionResult} {status status' : Status}
    (h : Deserves result status) (h' : Deserves result status') : status = status' :=
  h.eq_verdict.trans h'.eq_verdict.symm

/-- The entry `s` has become `done` by a verdict: the status and the time of the test are set, and
nothing else has changed. -/
structure Concluded (s : Snapshot) (status : Status) (done : Snapshot) : Prop where
  status : done.status = status
  tested : ∃ time : Instant, done.testedAt = some time.format
  id : done.id = s.id
  components : done.components = s.components

theorem concluded_withVerdict (s : Snapshot) (status : Status) (time : Instant) :
    Concluded s status (s.withVerdict status time) where
  status := rfl
  tested := ⟨time, rfl⟩
  id := rfl
  components := rfl

/-- A run has ended with a status for the entry `s` at position `k` of the log that was there
before. It has answered this entry with the status and the time of the test, and on file the entry
has both, while every other entry is as it was. -/
def RecordedAt {τ : Type} (path : String) (log : SnapshotLog) (k : Nat) (s : Snapshot)
    (status : Status) (ended : Except Failure TestRunResult × FileSystem × τ) : Prop :=
  ∃ done, Concluded s status done ∧ ended.1 = .ok (.completed done) ∧
    OnFile path ended.2.1 ⟨log.snapshots.set k done⟩

/-- A run has ended with the status that the entry `s` at position `k` deserves by what the action
for it did. -/
def VerdictAt {τ : Type} (path : String) (log : SnapshotLog) (k : Nat) (s : Snapshot)
    (result : Except Failure ActionResult)
    (ended : Except Failure TestRunResult × FileSystem × τ) : Prop :=
  ∃ status, Deserves result status ∧ RecordedAt path log k s status ended

theorem verdictAt_iff {τ : Type} {result : Except Failure ActionResult}
    {ended : Except Failure TestRunResult × FileSystem × τ} :
    VerdictAt path log k s result ended ↔ RecordedAt path log k s (verdict result) ended := by
  constructor
  · rintro ⟨status, hdeserved, hrecorded⟩
    rwa [← hdeserved.eq_verdict]
  · exact fun hrecorded => ⟨_, deserves_verdict result, hrecorded⟩

/-- A run that has ended with an entry and has saved it has recorded it. -/
theorem RecordedAt.of_withVerdict {τ : Type} {status : Status}
    {ended : Except Failure TestRunResult × FileSystem × τ} (time : Instant)
    (hcompleted : ended.1 = .ok (.completed (s.withVerdict status time)))
    (hfile : OnFile path ended.2.1 ⟨log.snapshots.set k (s.withVerdict status time)⟩) :
    RecordedAt path log k s status ended :=
  ⟨_, concluded_withVerdict s status time, hcompleted, hfile⟩

/-- A verdict that is recorded for a pending entry is recorded at no other position. -/
theorem RecordedAt.position_eq {τ : Type} {status : Status}
    {ended : Except Failure TestRunResult × FileSystem × τ}
    (hs : log.snapshots[k]? = some s) (hpending : s.status = .pending) (hstatus : status ≠ .pending)
    (h : RecordedAt path log k s status ended) (h' : RecordedAt path log j e status ended) :
    j = k := by
  obtain ⟨done, hdone, -, hfile⟩ := h
  obtain ⟨done', -, -, hfile'⟩ := h'
  have hsnapshots : log.snapshots.set k done = log.snapshots.set j done' :=
    congrArg SnapshotLog.snapshots (hfile.unique hfile')
  obtain ⟨hk, -⟩ := List.getElem?_eq_some_iff.1 hs
  by_contra hne
  -- at position `k` one of the two logs has a verdict, and the other has the entry as it was
  have hentry := congrArg (fun entries => entries[k]?) hsnapshots
  simp only [List.getElem?_set_self hk, List.getElem?_set_ne hne, hs, Option.some.injEq] at hentry
  subst hentry
  exact hstatus (hdone.status.symm.trans hpending)

theorem verdict_ne_pending (result : Except Failure ActionResult) :
    verdict result ≠ .pending := by
  cases result with
  | error failure => simp [verdict]
  | ok result =>
    simp only [verdict]
    split <;> simp

/-- Where a verdict goes when it is written back: the first entry with the identity takes it, or
refuses it. -/
theorem conclude_eq_of_first {status : Status} (reached written : Instant)
    (hload : StoredLog.load path fs = .ok log) (hpending : s.status = .pending)
    (hstatus : status ≠ .pending) (he : log.snapshots[j]? = some e) (hid : e.id = s.id)
    (hnone : log.NoneBefore j s.id) :
    conclude path s status reached written fs =
      (e.complete status (SnapshotLog.verdictTime (s.withVerdict status reached) written)).bind
        fun done =>
          (StoredLog.save path ⟨log.snapshots.set j done⟩ fs).map fun fs' => (done, fs') := by
  -- the verdict is reached on a copy of the entry, and written back by the identity of the copy
  have hcopy := Snapshot.complete_of_pending reached hpending hstatus
  have hfinal : status.isFinal = true := Status.isFinal_iff.2 hstatus
  have hrecord := SnapshotLog.recordVerdict_eq_of_first written he
    (hid.trans (Snapshot.id_withVerdict s status reached).symm) hnone
  simp only [conclude, hcopy, StoredLog.recordVerdict, Snapshot.status_withVerdict, hfinal,
    Bool.not_true, Bool.false_eq_true, if_false, hload, hrecord]
  cases e.complete status (SnapshotLog.verdictTime (s.withVerdict status reached) written) with
  | error failure => rfl
  | ok done =>
    simp only [Except.map, Except.bind]
    cases StoredLog.save path ⟨log.snapshots.set j done⟩ fs with
    | error failure => rfl
    | ok fs' => rfl

/-! ## Runs -/

section Runs

variable {τ : Type} {action : TestAction τ} {reached written : Instant} {t t' : τ}
  {result : Except Failure ActionResult} {fs' : FileSystem}

/-- A run whose action was started ends with the writing of the verdict. -/
theorem run_eq_conclude (hselect : select path selector fs = .ok (some s))
    (haction : action.run (TestEnvironment.ofComponents s.components).vars (fs, t) =
      (result, fs', t')) :
    run path action selector false reached written (fs, t) =
      match conclude path s (verdict result) reached written fs' with
      | .error failure => (.error failure, fs', t')
      | .ok (stored, fs'') => (.ok (.completed stored), fs'', t') := by
  simp only [run, hselect, haction]
  rfl

/-- Whatever has become of the log since an entry was picked and tested: the first entry with its
identity takes the verdict if it is pending, and the log is written back. -/
theorem run_completes_current (reached written : Instant) {current : SnapshotLog}
    (hselect : select path selector fs = .ok (some s)) (hpending : s.status = .pending)
    (haction : action.run (TestEnvironment.ofComponents s.components).vars (fs, t) =
      (result, fs', t'))
    (hcurrent : StoredLog.load path fs' = .ok current) (hwritable : fs'.CanReplace path)
    (he : current.snapshots[j]? = some e) (hid : e.id = s.id) (hnone : current.NoneBefore j s.id)
    (hwaiting : e.status = .pending) :
    ∃ time fs'', time = SnapshotLog.verdictTime (s.withVerdict (verdict result) reached) written ∧
      StoredLog.save path ⟨current.snapshots.set j (e.withVerdict (verdict result) time)⟩ fs' =
        .ok fs'' ∧
      run path action selector false reached written (fs, t) =
        (.ok (.completed (e.withVerdict (verdict result) time)), fs'', t') := by
  -- `e` takes the verdict, which is not necessarily the entry `s` that the tests were for
  have hdone (time : Instant) := Snapshot.complete_of_pending time hwaiting
    (verdict_ne_pending result)
  obtain ⟨fs'', hsave⟩ := hwritable (SnapshotLog.render
    ⟨current.snapshots.set j (e.withVerdict (verdict result)
      (SnapshotLog.verdictTime (s.withVerdict (verdict result) reached) written))⟩)
  have hsave : StoredLog.save path _ fs' = .ok fs'' := hsave
  refine ⟨_, fs'', rfl, hsave, ?_⟩
  rw [run_eq_conclude hselect haction, conclude_eq_of_first reached written hcurrent hpending
    (verdict_ne_pending result) he hid hnone, hdone]
  simp only [Except.bind, hsave, Except.map]

/-- Whatever has become of the log since an entry was picked and tested: the verdict is recorded for
the first entry with its identity if that one is pending. -/
theorem recordedAt_current {current : SnapshotLog}
    (hselect : select path selector fs = .ok (some s)) (hpending : s.status = .pending)
    (haction : action.run (TestEnvironment.ofComponents s.components).vars (fs, t) =
      (result, fs', t'))
    (hcurrent : StoredLog.load path fs' = .ok current) (hwritable : fs'.CanReplace path)
    (he : current.snapshots[j]? = some e) (hid : e.id = s.id) (hnone : current.NoneBefore j s.id)
    (hwaiting : e.status = .pending) :
    RecordedAt path current j e (verdict result)
      (run path action selector false reached written (fs, t)) := by
  obtain ⟨time, fs'', -, hsave, hrun⟩ := run_completes_current reached written hselect hpending
    haction hcurrent hwritable he hid hnone hwaiting
  rw [hrun]
  exact .of_withVerdict time rfl (onFile_of_save hsave)

/-- Whatever has become of the log since an entry was picked and tested: the run fails if the first
entry with its identity has a verdict already. -/
theorem run_refused_current {current : SnapshotLog}
    (hselect : select path selector fs = .ok (some s)) (hpending : s.status = .pending)
    (haction : action.run (TestEnvironment.ofComponents s.components).vars (fs, t) =
      (result, fs', t'))
    (hcurrent : StoredLog.load path fs' = .ok current)
    (he : current.snapshots[j]? = some e) (hid : e.id = s.id) (hnone : current.NoneBefore j s.id)
    (hfinal : e.status.isFinal = true) :
    run path action selector false reached written (fs, t) =
      (.error (.transitionRefused e.id e.status (.status (verdict result))), fs', t') := by
  rw [run_eq_conclude hselect haction, conclude_eq_of_first reached written hcurrent hpending
    (verdict_ne_pending result) he hid hnone, Snapshot.complete, hfinal]
  rfl

/-- A pending entry takes the verdict if it is the first with the identity of the entry that was
tested. -/
theorem recordedAt_first (hlog : StoredLog.load path fs = .ok log)
    (hchosen : Chosen log selector k s)
    (haction : action.run (TestEnvironment.ofComponents s.components).vars (fs, t) =
      (result, fs', t'))
    (hsame : fs'.inspect path = fs.inspect path) (hwritable : fs'.CanReplace path)
    (he : log.snapshots[j]? = some e) (hid : e.id = s.id) (hnone : log.NoneBefore j s.id)
    (hpending : e.status = .pending) :
    RecordedAt path log j e (verdict result)
      (run path action selector false reached written (fs, t)) :=
  recordedAt_current ((select_eq_some_iff hlog).2 ⟨k, hchosen⟩) hchosen.pending haction
    ((load_of_inspect_eq hsame).trans hlog) hwritable he hid hnone hpending

/-- The run fails if the first entry with the identity has a verdict already. -/
theorem run_refused_of_final (hlog : StoredLog.load path fs = .ok log)
    (hchosen : Chosen log selector k s)
    (haction : action.run (TestEnvironment.ofComponents s.components).vars (fs, t) =
      (result, fs', t'))
    (hsame : fs'.inspect path = fs.inspect path)
    (he : log.snapshots[j]? = some e) (hid : e.id = s.id) (hnone : log.NoneBefore j s.id)
    (hfinal : e.status.isFinal = true) :
    run path action selector false reached written (fs, t) =
      (.error (.transitionRefused e.id e.status (.status (verdict result))), fs', t') :=
  run_refused_current ((select_eq_some_iff hlog).2 ⟨k, hchosen⟩) hchosen.pending haction
    ((load_of_inspect_eq hsame).trans hlog) he hid hnone hfinal

/-- The verdict on an entry does not reach it if an entry before it has its identity. -/
theorem not_recordedAt_of_twin (hlog : StoredLog.load path fs = .ok log)
    (hchosen : Chosen log selector k s)
    (haction : action.run (TestEnvironment.ofComponents s.components).vars (fs, t) =
      (result, fs', t'))
    (hsame : fs'.inspect path = fs.inspect path) (hwritable : fs'.CanReplace path)
    (htwin : ¬ log.NoneBefore k s.id) :
    ¬ RecordedAt path log k s (verdict result)
      (run path action selector false reached written (fs, t)) := by
  intro hrecorded
  obtain ⟨j, -, e, he, hid, hnone⟩ := SnapshotLog.exists_first hchosen.entry
  have hjk : j ≠ k := by
    rintro rfl
    exact htwin hnone
  -- the twin refuses the verdict, or takes it in place of the entry that was tested
  cases hfinal : e.status.isFinal with
  | true =>
    obtain ⟨done, -, hcompleted, -⟩ := hrecorded
    rw [run_refused_of_final hlog hchosen haction hsame he hid hnone hfinal] at hcompleted
    cases hcompleted
  | false =>
    exact hjk (hrecorded.position_eq hchosen.entry hchosen.pending (verdict_ne_pending result)
      (recordedAt_first hlog hchosen haction hsame hwritable he hid hnone
        (Status.isFinal_eq_false_iff.1 hfinal)))

/-- The verdict on an entry that was chosen by its identity always reaches it. -/
theorem recordedAt_of_chosen_id {name : String} (hlog : StoredLog.load path fs = .ok log)
    (hchosen : Chosen log (.id name) k s)
    (haction : action.run (TestEnvironment.ofComponents s.components).vars (fs, t) =
      (result, fs', t'))
    (hsame : fs'.inspect path = fs.inspect path) (hwritable : fs'.CanReplace path) :
    RecordedAt path log k s (verdict result)
      (run path action (.id name) false reached written (fs, t)) :=
  recordedAt_first hlog hchosen haction hsame hwritable hchosen.entry rfl hchosen.noneBefore_of_id
    hchosen.pending

/-- **When the verdict reaches the entry that was tested.** Let a run start its action for the
pending entry at some position of the log on file, and let the action leave that file alone,
whatever else it does, and let the file be writable after it. The run completes and records for
exactly that entry the status that it deserves, successful if the action reported success and failed
otherwise, if and only if no entry before it has the same identity. -/
theorem verdict_recorded_iff (hlog : StoredLog.load path fs = .ok log)
    (hchosen : Chosen log selector k s)
    (haction : action.run (TestEnvironment.ofComponents s.components).vars (fs, t) =
      (result, fs', t'))
    (hsame : fs'.inspect path = fs.inspect path) (hwritable : fs'.CanReplace path) :
    VerdictAt path log k s result
        (run path action selector false reached written (fs, t)) ↔
      log.NoneBefore k s.id := by
  rw [verdictAt_iff]
  constructor
  · intro hrecorded
    by_contra htwin
    exact not_recordedAt_of_twin hlog hchosen haction hsame hwritable htwin hrecorded
  · intro hnone
    exact recordedAt_first hlog hchosen haction hsame hwritable hchosen.entry rfl hnone
      hchosen.pending

end Runs

/-! ## Entries of one instant -/

/-- Two entries with one identity, made by two offers at the same instant. -/
def twins : SnapshotLog :=
  ⟨[Snapshot.pending [.ofRelease "o/a" "1"] .epoch, Snapshot.pending [] .epoch]⟩

/-- A file system with nothing but the two entries on file. -/
def twinsOnFile : FileSystem :=
  FileSystem.put ⟨[], []⟩ ["log"] (.file (.text twins.render))

/-- Tests that end in some way, and write a report in a directory of their own. -/
def reporting (result : Except Failure ActionResult) : TestAction Unit where
  describe := "true"
  run _ := fun (fs, t) => (result, (fs.writeBelow "/reports/run.txt" (.text "done")).getD fs, t)

/-- The two entries on file, and beside them the report. -/
def twinsReported : FileSystem :=
  (twinsOnFile.writeBelow "/reports/run.txt" (.text "done")).getD twinsOnFile

theorem reporting_run (result : Except Failure ActionResult) (vars : Variables) :
    (reporting result).run vars (twinsOnFile, ()) = (result, twinsReported, ()) := rfl

theorem load_twins : StoredLog.load "/log" twinsOnFile = .ok twins := by
  have hsize : twins.render.utf8ByteSize ≤ FileSystem.sizeLimit := by
    rw [SnapshotLog.render, Yaml.Tree.render, String.utf8ByteSize_ofList]
    decide +kernel
  exact StoredLog.load_of_save (StoredLog.save_onlyLog twins) hsize

theorem stands_twins : twinsOnFile.Stands "/log" ["log"] (.text twins.render) where
  replaces := FileSystem.replaces_log_of_nothing.put _
  entry := FileSystem.entryAt_put_self _ (by simp) _
  grounded := FileSystem.grounded_nil _

theorem canReplace_twins : twinsOnFile.CanReplace "/log" :=
  stands_twins.canReplace

/-- The report does not touch the log. -/
theorem stands_twinsReported : twinsReported.Stands "/log" ["log"] (.text twins.render) := by
  have hreport : (twinsOnFile.writeBelow "/reports/run.txt" (.text "done")).map
      (fun fs => fs.walk true "/reports/run.txt") = some (.ok ["reports", "run.txt"]) := by
    decide +kernel
  obtain ⟨fs, hwritten, hwalk⟩ := Option.map_eq_some_iff.1 hreport
  have hfs : twinsReported = fs := by rw [twinsReported, hwritten, Option.getD_some]
  rw [hfs]
  exact stands_twins.of_writeBelow hwritten (by simp [hwalk])

theorem inspect_twinsReported : twinsReported.inspect "/log" = twinsOnFile.inspect "/log" :=
  stands_twinsReported.inspect_eq.trans stands_twins.inspect_eq.symm

/-- The newer of two entries of one instant gets its verdict, whatever that is: tests that pass,
tests that fail and tests that cannot be started. -/
theorem verdict_recorded_for_newer :
    RecordedAt "/log" twins 0 (Snapshot.pending [.ofRelease "o/a" "1"] .epoch) .successful
        (run "/log" (reporting (.ok { success := true, exitCode := some 0 })) (.index 0) false
          .epoch .epoch (twinsOnFile, ())) ∧
      RecordedAt "/log" twins 0 (Snapshot.pending [.ofRelease "o/a" "1"] .epoch) .failed
        (run "/log" (reporting (.ok { success := false, exitCode := some 2 })) (.index 0) false
          .epoch .epoch (twinsOnFile, ())) ∧
      RecordedAt "/log" twins 0 (Snapshot.pending [.ofRelease "o/a" "1"] .epoch) .failed
        (run "/log" (reporting (.error (.reported "no such file"))) (.index 0) false
          .epoch .epoch (twinsOnFile, ())) := by
  have hnewer : Chosen twins (.index 0) 0 (Snapshot.pending [.ofRelease "o/a" "1"] .epoch) :=
    ⟨rfl, rfl, rfl⟩
  have hnone : twins.NoneBefore 0 (Snapshot.pending [.ofRelease "o/a" "1"] .epoch).id :=
    fun j hj => absurd hj (Nat.not_lt_zero j)
  have hrecorded {result : Except Failure ActionResult} {status : Status}
      (hstatus : Deserves result status) :
      RecordedAt "/log" twins 0 (Snapshot.pending [.ofRelease "o/a" "1"] .epoch) status
        (run "/log" (reporting result) (.index 0) false .epoch .epoch (twinsOnFile, ())) := by
    obtain ⟨recorded, hdeserved, hrecorded⟩ := (verdict_recorded_iff load_twins hnewer
      (reporting_run result _) inspect_twinsReported stands_twinsReported.canReplace).2 hnone
    rwa [hstatus.unique hdeserved]
  exact ⟨hrecorded (.passed _), hrecorded (.failed _), hrecorded (.unstarted _)⟩

/-- The verdict on the older of two entries of one instant does not reach it. -/
theorem verdict_goes_astray :
    ¬ ∀ (path : String) (fs fs' : FileSystem) (log : SnapshotLog) (selector : SnapshotChoice)
        (k : Nat) (s : Snapshot) (action : TestAction Unit) (reached written : Instant)
        (result : Except Failure ActionResult),
      StoredLog.load path fs = .ok log → Chosen log selector k s →
      action.run (TestEnvironment.ofComponents s.components).vars (fs, ()) = (result, fs', ()) →
      fs'.inspect path = fs.inspect path → fs'.CanReplace path →
      VerdictAt path log k s result
        (run path action selector false reached written (fs, ())) := by
  intro h
  have holder : Chosen twins (.index 1) 1 (Snapshot.pending [] .epoch) :=
    ⟨rfl, rfl, rfl⟩
  have htwin : ¬ twins.NoneBefore 1 (Snapshot.pending [] .epoch).id :=
    fun hnone => hnone 0 Nat.zero_lt_one _ rfl rfl
  have hpassed := reporting_run (.ok { success := true, exitCode := some 0 })
    (TestEnvironment.ofComponents []).vars
  have hverdict := h _ _ _ _ _ _ _ _ .epoch .epoch _ load_twins holder hpassed
    inspect_twinsReported stands_twinsReported.canReplace
  exact not_recordedAt_of_twin load_twins holder hpassed inspect_twinsReported
    stands_twinsReported.canReplace htwin (verdictAt_iff.1 hverdict)

end TestRun

end ReleaseCandidates
