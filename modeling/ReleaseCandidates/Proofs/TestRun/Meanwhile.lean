import ReleaseCandidates.Proofs.Instant.TextOrder
import ReleaseCandidates.Proofs.TestRun.Verdict

set_option autoImplicit false

/-! # What others do to the log while tests run

A test run holds a copy of the entry it tests, and while the tests run others may offer components
to the log and record verdicts in it. The run does not write its copy back: it reads the log again,
looks for the first entry with the identity, and changes only the standing of that one, or nothing
if that entry has its verdict already. So what the others have done stays.

Main statement: `TestRun.verdict_joins_current`. -/

namespace ReleaseCandidates

namespace SnapshotLog

variable {log : SnapshotLog} {id : String} {entries : List Snapshot}

/-- The entry at a position is the first one with an identity, and it is pending. -/
structure FirstWaiting (log : SnapshotLog) (id : String) (k : Nat) (e : Snapshot) : Prop where
  entry : log.snapshots[k]? = some e
  identity : e.id = id
  first : log.NoneBefore k id
  pending : e.status = .pending

/-- A verdict for an identity that no entry has is refused. -/
theorem completeFirst_of_forall_ne (status : Status) (time : Instant)
    (h : ∀ e ∈ entries, e.id ≠ id) :
    completeFirst id status time entries = .error (.snapshotUnknown id) := by
  induction entries with
  | nil => rfl
  | cons e rest ih =>
    rw [completeFirst, if_neg (h e List.mem_cons_self),
      ih fun d hd => h d (List.mem_cons_of_mem e hd)]

/-- A verdict that is none is refused. -/
theorem exists_completeFirst_eq_error (id : String) (time : Instant) (entries : List Snapshot) :
    ∃ failure, completeFirst id .pending time entries = .error failure := by
  induction entries with
  | nil => exact ⟨_, rfl⟩
  | cons e rest ih =>
    rw [completeFirst]
    split
    · refine ⟨.transitionRefused e.id e.status (.status .pending), ?_⟩
      simp [Snapshot.complete, Status.isFinal]
    · obtain ⟨failure, hrest⟩ := ih
      exact ⟨failure, by rw [hrest]⟩

end SnapshotLog

/-! ## Changes made by others -/

namespace StoreCall

/-- The store's calls change a log that is held as the log's own operations do. -/
theorem inMemory_change (path : String) (log : SnapshotLog) (change : LogChange) :
    (inMemory path (some log) (.change change)).2 = some (change.apply log).2 := by
  cases change with
  | offer components time => rfl
  | verdict updated now =>
    simp only [inMemory]
    split
    · rename_i hnone
      have hpending : updated.status = .pending := by
        rw [← Status.isFinal_eq_false_iff]
        simpa using hnone
      obtain ⟨failure, hrefused⟩ := SnapshotLog.exists_completeFirst_eq_error updated.id
        (SnapshotLog.verdictTime updated now) log.snapshots
      simp only [LogChange.apply, SnapshotLog.recordVerdict, hpending, hrefused]
    · rfl

theorem stateAfter_inMemory_changes (path : String) (log : SnapshotLog)
    (changes : List LogChange) :
    stateAfter (inMemory path) (some log) (changes.map .change) = some (log.after changes) := by
  induction changes generalizing log with
  | nil => rfl
  | cons change changes ih =>
    show stateAfter (inMemory path) (inMemory path (some log) (.change change)).2 _ = _
    rw [inMemory_change, ih]
    rfl

end StoreCall

namespace StoredLog

open StoreCall (onFile stateAfter)

variable {path : String} {fs : FileSystem} {log : SnapshotLog}

/-- After changes made on file the log is there with all of them. -/
theorem load_after_changes (changes : List LogChange) (hlog : load path fs = .ok log)
    (hwritable : fs.CanReplace path)
    (hfits : ∀ i ≤ changes.length,
      FitsLimit path (stateAfter (onFile path) fs ((changes.take i).map .change))) :
    load path (stateAfter (onFile path) fs (changes.map .change)) = .ok (log.after changes) := by
  have htied : Mirrors path fs (some log) := hlog
  have hfits' : ∀ i ≤ (changes.map StoreCall.change).length,
      FitsLimit path (stateAfter (onFile path) fs ((changes.map .change).take i)) := by
    intro i hi
    rw [← List.map_take]
    exact hfits i (by simpa using hi)
  have hend := (mirrors_run (changes.map .change) hwritable htied hfits').2 changes.length
  rw [← List.map_take, List.take_length, StoreCall.stateAfter_inMemory_changes] at hend
  exact hend

end StoredLog

namespace TestRun

open SnapshotLog (FirstWaiting)
open StoreCall (onFile stateAfter)
open StoredLog (onlyLog)

variable {τ : Type} {path : String} {fs fs' : FileSystem} {log : SnapshotLog}
  {selector : SnapshotChoice} {s : Snapshot} {action : TestAction τ} {reached written : Instant}
  {t t' : τ} {result : Except Failure ActionResult}

/-! ## Verdicts that come too late -/

/-- A verdict cannot be written where no log is on file, or no entry of it has the identity. -/
theorem exists_conclude_eq_error (reached written : Instant) {status : Status}
    (hpending : s.status = .pending)
    (hstatus : status ≠ .pending)
    (habsent : ∀ current, StoredLog.load path fs = .ok current →
      ∀ e ∈ current.snapshots, e.id ≠ s.id) :
    ∃ failure, conclude path s status reached written fs = .error failure := by
  have hcopy := Snapshot.complete_of_pending reached hpending hstatus
  have hfinal : status.isFinal = true := Status.isFinal_iff.2 hstatus
  simp only [conclude, hcopy, StoredLog.recordVerdict, Snapshot.status_withVerdict, hfinal,
    Bool.not_true, Bool.false_eq_true, if_false]
  cases hload : StoredLog.load path fs with
  | error failure => exact ⟨failure, rfl⟩
  | ok current =>
    simp only [SnapshotLog.recordVerdict, Snapshot.id_withVerdict,
      SnapshotLog.completeFirst_of_forall_ne _ _ (habsent current hload)]
    exact ⟨_, rfl⟩

/-- The run fails and writes nothing if no entry waits for its verdict any more. -/
theorem run_fails_of_none_waiting (hselect : select path selector fs = .ok (some s))
    (hpending : s.status = .pending)
    (haction : action.run (TestEnvironment.ofComponents s.components).vars (fs, t) =
      (result, fs', t'))
    (hnone : ∀ current k e, StoredLog.load path fs' = .ok current →
      ¬ FirstWaiting current s.id k e) :
    ∃ failure,
      run path action selector false reached written (fs, t) = (.error failure, fs', t') := by
  by_cases hthere : ∃ (current : SnapshotLog) (k : Nat) (e : Snapshot),
      StoredLog.load path fs' = .ok current ∧ current.snapshots[k]? = some e ∧ e.id = s.id
  · obtain ⟨current, k, e, hcurrent, he, hid⟩ := hthere
    obtain ⟨j, -, d, hd, hdid, hbefore⟩ := SnapshotLog.exists_first he
    rw [hid] at hdid hbefore
    -- the first entry with the identity is not pending, so it refuses the verdict
    have hfinal : d.status.isFinal = true := Status.isFinal_iff.2 fun hwaiting =>
      hnone current j d hcurrent ⟨hd, hdid, hbefore, hwaiting⟩
    exact ⟨_, run_refused_current hselect hpending haction hcurrent hd hdid hbefore hfinal⟩
  · have habsent : ∀ current, StoredLog.load path fs' = .ok current →
        ∀ e ∈ current.snapshots, e.id ≠ s.id := by
      intro current hcurrent e he hid
      obtain ⟨k, hk⟩ := List.mem_iff_getElem?.1 he
      exact hthere ⟨current, k, e, hcurrent, hk, hid⟩
    obtain ⟨failure, hconclude⟩ := exists_conclude_eq_error reached written hpending
      (verdict_ne_pending result) habsent
    exact ⟨failure, by rw [run_eq_conclude hselect haction, hconclude]⟩

/-! ## Verdicts and the changes of others -/

/-- **A verdict joins what others have recorded meanwhile.** Let a run have selected an entry, and
let others make any changes to the log while its action runs, which may do anything to other files.
Let the file be writable after that. If the first entry with the identity in the log that is then on
file is pending, that log is afterwards on file with this entry successful if the action reported
success and failed otherwise, every other entry being as it was; if there is no such entry, the run
fails and leaves the files as they are. And as long as no file grew too large to be read, the log
that is then on file is the one from before with all changes made meanwhile. -/
theorem verdict_joins_current (reached written : Instant) (changes : List LogChange)
    (hlog : StoredLog.load path fs = .ok log) (hselect : select path selector fs = .ok (some s))
    (haction : action.run (TestEnvironment.ofComponents s.components).vars (fs, t) =
      (result, fs', t'))
    (hmeanwhile : fs'.inspect path =
      (stateAfter (onFile path) fs (changes.map .change)).inspect path)
    (hwritable : fs'.CanReplace path) :
    (∀ current k e, StoredLog.load path fs' = .ok current → FirstWaiting current s.id k e →
        VerdictAt path current k e result
          (run path action selector false reached written (fs, t))) ∧
      ((∀ current k e, StoredLog.load path fs' = .ok current → ¬ FirstWaiting current s.id k e) →
        ∃ failure,
          run path action selector false reached written (fs, t) = (.error failure, fs', t')) ∧
      (fs.CanReplace path →
        (∀ i ≤ changes.length, StoredLog.FitsLimit path
          (stateAfter (onFile path) fs ((changes.take i).map .change))) →
        StoredLog.load path fs' = .ok (log.after changes)) := by
  obtain ⟨_, hchosen⟩ := (select_eq_some_iff hlog).1 hselect
  refine ⟨fun current k e hcurrent hfirst => ?_, fun hnone => ?_, fun hreplace hfits => ?_⟩
  · exact verdictAt_iff.2 (recordedAt_current hselect hchosen.pending haction hcurrent hwritable
      hfirst.entry hfirst.identity hfirst.first hfirst.pending)
  · exact run_fails_of_none_waiting hselect hchosen.pending haction hnone
  · rw [load_of_inspect_eq hmeanwhile]
    exact StoredLog.load_after_changes changes hlog hreplace hfits

/-! ## A scan while tests run -/

/-- A log with one pending entry. -/
def waitingLog : SnapshotLog :=
  ⟨[Snapshot.pending [] .epoch]⟩

/-- A scan that finds something new, a second after the entry was made. -/
def scanned : LogChange :=
  .offer [.ofRelease "o/a" "1"] (.atSecond 1)

/-- Tests that end in some way, and while they run the scan is recorded. -/
def scannedMeanwhile (result : Except Failure ActionResult) : TestAction Unit where
  describe := "true"
  run _ := fun (fs, t) => (result, (onFile "/log" fs (.change scanned)).2, t)

theorem size_waitingLog : waitingLog.render.utf8ByteSize ≤ FileSystem.sizeLimit := by
  rw [SnapshotLog.render, Yaml.Tree.render, String.utf8ByteSize_ofList]
  decide +kernel

theorem load_waitingLog : StoredLog.load "/log" (onlyLog waitingLog) = .ok waitingLog :=
  StoredLog.load_of_save (StoredLog.save_onlyLog waitingLog) size_waitingLog

/-- What the file says after the scan. -/
def scannedLog : SnapshotLog :=
  ⟨[Snapshot.pending [.ofRelease "o/a" "1"] (.atSecond 1), Snapshot.pending [] .epoch]⟩

theorem save_scannedLog : StoredLog.save "/log" scannedLog (onlyLog waitingLog) =
    .ok (onFile "/log" (onlyLog waitingLog) (.change scanned)).2 := by
  have hcurrent : StoredLog.loadOrEmpty "/log" (onlyLog waitingLog) = waitingLog := by
    rw [StoredLog.loadOrEmpty, load_waitingLog]
  have hnew : (StoredLog.loadOrEmpty "/log" (onlyLog waitingLog)).holdsNewest
      [.ofRelease "o/a" "1"] = false := by
    rw [hcurrent]
    decide +kernel
  obtain ⟨fs', hsave⟩ := StoredLog.canReplace_onlyLog waitingLog scannedLog.render
  have hsave : StoredLog.save "/log" scannedLog (onlyLog waitingLog) = .ok fs' := hsave
  have hoffer : StoredLog.offer "/log" [.ofRelease "o/a" "1"] (.atSecond 1)
      (onlyLog waitingLog) = .ok (.inserted (Instant.atSecond 1).format, fs') := by
    rw [StoredLog.offer_of_not_holdsNewest hnew, hcurrent]
    exact congrArg (Except.map _) hsave
  rw [hsave, scanned, StoreCall.onFile, hoffer]
  rfl

theorem fitsLimit_scanned : ∀ i ≤ [scanned].length, StoredLog.FitsLimit "/log"
    (stateAfter (onFile "/log") (onlyLog waitingLog) (([scanned].take i).map .change)) := by
  intro i hi
  cases i with
  | zero => exact StoredLog.fitsLimit_of_save (StoredLog.save_onlyLog waitingLog) size_waitingLog
  | succ i =>
    have hsize : scannedLog.render.utf8ByteSize ≤ FileSystem.sizeLimit := by
      rw [SnapshotLog.render, Yaml.Tree.render, String.utf8ByteSize_ofList]
      decide +kernel
    obtain rfl : i = 0 := by simpa using hi
    exact StoredLog.fitsLimit_of_save save_scannedLog hsize

theorem noneBefore_scanned : scannedLog.NoneBefore 1 (Snapshot.pending [] .epoch).id := by
  intro j hj e he
  obtain rfl : j = 0 := Nat.lt_one_iff.1 hj
  obtain rfl := Option.some.inj he
  decide +kernel

/-- The verdict on the entry is recorded behind the entry that was made meanwhile, whatever it is:
for tests that pass, tests that fail and tests that cannot be started. -/
theorem verdict_joins_scan :
    RecordedAt "/log" scannedLog 1 (Snapshot.pending [] .epoch) .successful
        (run "/log" (scannedMeanwhile (.ok { success := true, exitCode := some 0 })) .pending false
          .epoch .epoch (onlyLog waitingLog, ())) ∧
      RecordedAt "/log" scannedLog 1 (Snapshot.pending [] .epoch) .failed
        (run "/log" (scannedMeanwhile (.ok { success := false, exitCode := some 1 })) .pending false
          .epoch .epoch (onlyLog waitingLog, ())) ∧
      RecordedAt "/log" scannedLog 1 (Snapshot.pending [] .epoch) .failed
        (run "/log" (scannedMeanwhile (.error (.reported "no such file"))) .pending false
          .epoch .epoch (onlyLog waitingLog, ())) := by
  have hselect : select "/log" .pending (onlyLog waitingLog) =
      .ok (some (Snapshot.pending [] .epoch)) :=
    (select_eq_some_iff load_waitingLog).2 ⟨0, by decide +kernel, rfl, rfl⟩
  have haction (result : Except Failure ActionResult) :
      (scannedMeanwhile result).run (TestEnvironment.ofComponents []).vars
        (onlyLog waitingLog, ()) =
          (result, (onFile "/log" (onlyLog waitingLog) (.change scanned)).2, ()) := rfl
  have hjoins {result : Except Failure ActionResult} {status : Status}
      (hstatus : Deserves result status) :
      RecordedAt "/log" scannedLog 1 (Snapshot.pending [] .epoch) status
        (run "/log" (scannedMeanwhile result) .pending false .epoch .epoch
          (onlyLog waitingLog, ())) := by
    obtain ⟨hverdict, -, hcurrent⟩ := verdict_joins_current .epoch .epoch [scanned] load_waitingLog
      hselect (haction result) rfl (FileSystem.canReplace_of_replaceFile save_scannedLog)
    have hload := hcurrent (StoredLog.canReplace_onlyLog waitingLog) fitsLimit_scanned
    obtain ⟨recorded, hdeserved, hrecorded⟩ :=
      hverdict scannedLog 1 _ hload ⟨rfl, rfl, noneBefore_scanned, rfl⟩
    rwa [hstatus.unique hdeserved]
  exact ⟨hjoins (.passed _), hjoins (.failed _), hjoins (.unstarted _)⟩

end TestRun

end ReleaseCandidates
