import ReleaseCandidates.Proofs.SnapshotLog.Turns

set_option autoImplicit false

/-! # How a test run can end

A test run either ends before its action is started, and then nothing has happened, or it starts
the action and tries to write down the verdict. `TestRun.Ended` lists the ways once, with what each
says about the files, and `TestRun.run_ended` says that there is no other way. The verdict that is
written down is a verdict on one entry that was pending and has the identity of the entry that the
tests were for (`TestRun.conclude_eq_ok`). -/

namespace ReleaseCandidates

namespace SnapshotLog

variable {log log' : SnapshotLog} {id : String} {status : Status} {time : Instant}
  {entries after : List Snapshot} {done : Snapshot}

/-- A verdict is recorded by putting it at one position, in the place of an entry that takes it. -/
theorem completeFirst_eq_ok (h : completeFirst id status time entries = .ok (done, after)) :
    ∃ (k : Nat) (s : Snapshot), entries[k]? = some s ∧ s.id = id ∧
      s.complete status time = .ok done ∧ after = entries.set k done := by
  induction entries generalizing after with
  | nil => simp [completeFirst] at h
  | cons s rest ih =>
    simp only [completeFirst] at h
    split at h
    · rename_i hid
      split at h
      · rename_i done' hdone
        obtain ⟨rfl, rfl⟩ : done' = done ∧ done' :: rest = after := by simpa using h
        exact ⟨0, s, rfl, hid, hdone, rfl⟩
      · cases h
    · split at h
      · rename_i done' rest' hrest
        obtain ⟨rfl, rfl⟩ : done' = done ∧ s :: rest' = after := by simpa using h
        obtain ⟨k, e, he, hid, hdone, rfl⟩ := ih hrest
        exact ⟨k + 1, e, he, hid, hdone, rfl⟩
      · cases h

theorem recordVerdict_eq_ok {updated : Snapshot} {now : Instant}
    (h : log.recordVerdict updated now = .ok (done, log')) :
    ∃ (k : Nat) (s : Snapshot) (time : Instant), log.snapshots[k]? = some s ∧
      s.id = updated.id ∧ s.status = .pending ∧ done = s.withVerdict updated.status time ∧
      log' = ⟨log.snapshots.set k done⟩ := by
  unfold recordVerdict at h
  split at h
  · rename_i done' after hfirst
    obtain ⟨rfl, rfl⟩ : done' = done ∧ ⟨after⟩ = log' := by simpa using h
    obtain ⟨k, s, hs, hid, hdone, rfl⟩ := completeFirst_eq_ok hfirst
    obtain ⟨hpending, -, rfl⟩ := Snapshot.complete_eq_ok_iff.1 hdone
    exact ⟨k, s, _, hs, hid, hpending, rfl, rfl⟩
  · cases h

/-- A pending entry is found unless there is none. -/
theorem ne_pending_of_nextPending? (h : log.nextPending? = none) :
    ∀ s ∈ log.snapshots, s.status ≠ .pending := by
  rw [← map_nextPendingAt?, Option.map_eq_none_iff, nextPendingAt?_eq] at h
  intro s hs hpending
  obtain ⟨k, hk⟩ := List.mem_iff_getElem?.1 hs
  have hwaiting : (s, k) ∈ log.waitingAt := mem_waitingAt.2 ⟨hk, hpending⟩
  rw [eq_nil_of_foldl_laterAt h] at hwaiting
  cases hwaiting

end SnapshotLog

namespace TestRun

variable {τ : Type} {path : String} {action : TestAction τ} {selector : SnapshotChoice}
  {dryRun : Bool} {reached written : Instant} {fs fs' : FileSystem} {t : τ} {status : Status}
  {s stored : Snapshot}

/-- A verdict that is written down is a verdict on an entry that was pending, under the identity of
the entry that the tests were for. -/
theorem conclude_eq_ok (h : conclude path s status reached written fs = .ok (stored, fs')) :
    ∃ log k e time, StoredLog.load path fs = .ok log ∧ log.snapshots[k]? = some e ∧
      e.id = s.id ∧ e.status = .pending ∧ stored = e.withVerdict status time ∧
      StoredLog.save path ⟨log.snapshots.set k stored⟩ fs = .ok fs' := by
  unfold conclude at h
  split at h
  · cases h
  rename_i done hdone
  obtain ⟨-, -, rfl⟩ := Snapshot.complete_eq_ok_iff.1 hdone
  unfold StoredLog.recordVerdict at h
  split at h
  · cases h
  split at h
  · cases h
  rename_i log hload
  split at h
  · cases h
  rename_i stored' log' hrecord
  split at h
  · cases h
  rename_i fs₁ hsave
  obtain ⟨rfl, rfl⟩ : stored' = stored ∧ fs₁ = fs' := by simpa using h
  obtain ⟨k, e, time, he, hid, hpending, hstored, rfl⟩ := SnapshotLog.recordVerdict_eq_ok hrecord
  exact ⟨log, k, e, time, hload, he, hid, hpending, hstored, hsave⟩

/-! ## Runs by what was picked -/

theorem run_of_refused {failure : Failure} (h : select path selector fs = .error failure) :
    run path action selector dryRun reached written (fs, t) = (.error failure, fs, t) := by
  simp only [run, h]

theorem run_of_idle (h : select path selector fs = .ok none) :
    run path action selector dryRun reached written (fs, t) = (.ok .nothingPending, fs, t) := by
  simp only [run, h]

theorem run_dry (h : select path selector fs = .ok (some s)) :
    run path action selector true reached written (fs, t) =
      (.ok (.dryRun s.id action.describe (TestEnvironment.ofComponents s.components).vars),
        fs, t) := by
  simp only [run, h, if_true]

/-! ## All endings -/

/-- How a run may end, from a state of the files and of what else its action has to do with. -/
inductive Ended (path : String) (action : TestAction τ) (selector : SnapshotChoice) (dryRun : Bool)
    (reached written : Instant) (fs : FileSystem) (t : τ) :
    Except Failure TestRunResult × FileSystem × τ → Prop where
  | refused {failure : Failure} (choice : select path selector fs = .error failure) :
      Ended path action selector dryRun reached written fs t (.error failure, fs, t)
  | idle (choice : select path selector fs = .ok none) :
      Ended path action selector dryRun reached written fs t (.ok .nothingPending, fs, t)
  | dry {s : Snapshot} (choice : select path selector fs = .ok (some s)) (dry : dryRun = true) :
      Ended path action selector dryRun reached written fs t
        (.ok (.dryRun s.id action.describe (TestEnvironment.ofComponents s.components).vars), fs, t)
  | unrecorded {s : Snapshot} {result : Except Failure ActionResult} {failure : Failure}
      {fs' : FileSystem} {t' : τ} (choice : select path selector fs = .ok (some s))
      (real : dryRun = false)
      (acted : action.run (TestEnvironment.ofComponents s.components).vars (fs, t) =
        (result, fs', t'))
      (verdict : conclude path s (verdict result) reached written fs' = .error failure) :
      Ended path action selector dryRun reached written fs t (.error failure, fs', t')
  | completed {s stored : Snapshot} {result : Except Failure ActionResult}
      {fs' fs'' : FileSystem} {t' : τ} (choice : select path selector fs = .ok (some s))
      (real : dryRun = false)
      (acted : action.run (TestEnvironment.ofComponents s.components).vars (fs, t) =
        (result, fs', t'))
      (verdict : conclude path s (verdict result) reached written fs' = .ok (stored, fs'')) :
      Ended path action selector dryRun reached written fs t (.ok (.completed stored), fs'', t')

/-- A run ends in one of these ways. -/
theorem run_ended (path : String) (action : TestAction τ) (selector : SnapshotChoice)
    (dryRun : Bool) (reached written : Instant) (fs : FileSystem) (t : τ) :
    Ended path action selector dryRun reached written fs t
      (run path action selector dryRun reached written (fs, t)) := by
  cases hselect : select path selector fs with
  | error failure =>
    rw [run_of_refused hselect]
    exact .refused hselect
  | ok choice =>
    cases choice with
    | none =>
      rw [run_of_idle hselect]
      exact .idle hselect
    | some s =>
      cases dryRun with
      | true =>
        rw [run_dry hselect]
        exact .dry hselect rfl
      | false =>
        rcases hacted : action.run (TestEnvironment.ofComponents s.components).vars (fs, t)
          with ⟨result, fs', t'⟩
        rw [run_eq_conclude hselect hacted]
        cases hverdict : conclude path s (verdict result) reached written fs' with
        | error failure => exact .unrecorded hselect rfl hacted hverdict
        | ok recorded => exact .completed hselect rfl hacted hverdict

/-- A run finds nothing to do just where no entry is picked. -/
theorem run_eq_idle_iff : (run path action selector dryRun reached written (fs, t)).1 =
    .ok .nothingPending ↔ select path selector fs = .ok none := by
  constructor
  · have hended := run_ended path action selector dryRun reached written fs t
    generalize run path action selector dryRun reached written (fs, t) = ended at hended
    intro hidle
    cases hended with
    | idle choice => exact choice
    | _ => cases hidle
  · intro hselect
    rw [run_of_idle hselect]

end TestRun

end ReleaseCandidates
