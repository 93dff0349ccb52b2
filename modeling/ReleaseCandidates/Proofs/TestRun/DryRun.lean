import ReleaseCandidates.Proofs.TestRun.Draining
import ReleaseCandidates.Proofs.TestRun.Endings

set_option autoImplicit false

/-! # What a dry run shows of a real one

A dry run picks an entry as a real run does and stops where the real run starts its action. So the
two fail alike as long as no action was started, they find alike that nothing is pending, and
otherwise the dry run shows what the real run then does: which entry it tests, and with which
variables.

Whether an action was started is told by a record beside the state (`TestAction.recorded`), which
takes no part in a run (`TestRun.run_recorded`).

Main statement: `TestRun.dry_run_shows_real_run`. -/

namespace ReleaseCandidates.TestRun

variable {τ : Type} {path : String} {action : TestAction τ} {selector : SnapshotChoice}
  {dryRun : Bool} {reached written : Instant} {fs : FileSystem} {t : τ} {s : Snapshot}

/-! ## Dry runs -/

/-- A dry run only tells what it picks. -/
theorem run_dry_eq : run path action selector true reached written (fs, t) =
    ((select path selector fs).map fun choice => choice.elim .nothingPending fun s =>
      .dryRun s.id action.describe (TestEnvironment.ofComponents s.components).vars, fs, t) := by
  cases hselect : select path selector fs with
  | error failure => exact run_of_refused hselect
  | ok choice =>
    cases choice with
    | none => exact run_of_idle hselect
    | some s => exact run_dry hselect

theorem run_dry_eq_error_iff {failure : Failure} :
    (run path action selector true reached written (fs, t)).1 = .error failure ↔
      select path selector fs = .error failure := by
  rw [run_dry_eq]
  cases select path selector fs with
  | error refusal => simp [Except.map]
  | ok choice => exact iff_of_false nofun nofun

theorem run_dry_eq_shown_iff {id command : String} {vars : Variables} :
    (run path action selector true reached written (fs, t)).1 = .ok (.dryRun id command vars) ↔
      ∃ s, select path selector fs = .ok (some s) ∧ s.id = id ∧ action.describe = command ∧
        (TestEnvironment.ofComponents s.components).vars = vars := by
  rw [run_dry_eq]
  cases select path selector fs with
  | error failure => simp [Except.map]
  | ok choice => cases choice <;> simp [Except.map]

/-! ## The entry that is tested -/

theorem exists_chosen_of_select (h : select path selector fs = .ok (some s)) :
    ∃ log k, StoredLog.load path fs = .ok log ∧ Chosen log selector k s := by
  cases hload : StoredLog.load path fs with
  | error failure =>
    rw [select_of_unloaded selector hload] at h
    cases h
  | ok log =>
    obtain ⟨k, hchosen⟩ := (select_eq_some_iff hload).1 h
    exact ⟨log, k, rfl, hchosen⟩

/-- A run tests an entry: it is the pending one that the choice is for, the action is started once,
with the variables of the entry, and if a verdict is recorded, it is so under the identity of the
entry. -/
structure TestsChosen (path : String) (selector : SnapshotChoice) (fs : FileSystem) (s : Snapshot)
    (ended : Except Failure TestRunResult × FileSystem × List Variables × τ) : Prop where
  chosen : ∃ log k, StoredLog.load path fs = .ok log ∧ Chosen log selector k s
  started : ended.2.2.1 = [(TestEnvironment.ofComponents s.components).vars]
  recorded : ∀ stored, ended.1 = .ok (.completed stored) → stored.id = s.id

/-! ## Real runs with a record of starts -/

/-- A run ends alike with and without a record of the starts of its action. -/
theorem run_recorded (action : TestAction τ) (starts : List Variables) :
    let ended := run path action.recorded selector dryRun reached written (fs, starts, t)
    (ended.1, ended.2.1, ended.2.2.2) =
      run path action selector dryRun reached written (fs, t) := by
  cases hselect : select path selector fs with
  | error failure => rw [run_of_refused hselect, run_of_refused hselect]
  | ok choice =>
    cases choice with
    | none => rw [run_of_idle hselect, run_of_idle hselect]
    | some s =>
      cases dryRun with
      | true => rw [run_dry hselect, run_dry hselect]; rfl
      | false =>
        rcases hacted : action.run (TestEnvironment.ofComponents s.components).vars (fs, t)
          with ⟨result, fs', t'⟩
        have hrecorded : action.recorded.run (TestEnvironment.ofComponents s.components).vars
            (fs, starts, t) = (result, fs',
              starts ++ [(TestEnvironment.ofComponents s.components).vars], t') := by
          simp only [TestAction.recorded, hacted]
        rw [run_eq_conclude hselect hacted, run_eq_conclude hselect hrecorded]
        cases conclude path s (verdict result) reached written fs' <;> rfl

/-- A real run that has picked an entry tests it, whatever comes of it. -/
theorem testsChosen_of_select (h : select path selector fs = .ok (some s)) :
    TestsChosen path selector fs s
      (run path action.recorded selector false reached written (fs, [], t)) := by
  rcases hacted : action.recorded.run (TestEnvironment.ofComponents s.components).vars (fs, [], t)
    with ⟨result, fs', starts, t'⟩
  have hstarts : starts = [(TestEnvironment.ofComponents s.components).vars] :=
    (congrArg (fun acted => acted.2.2.1) hacted).symm
  rw [run_eq_conclude h hacted]
  cases hverdict : conclude path s (verdict result) reached written fs' with
  | error failure => exact ⟨exists_chosen_of_select h, hstarts, nofun⟩
  | ok recorded =>
    refine ⟨exists_chosen_of_select h, hstarts, fun stored hstored => ?_⟩
    cases hstored
    obtain ⟨_, _, e, time, _, _, hid, _, hverdict, _⟩ := conclude_eq_ok hverdict
    rw [hverdict, Snapshot.id_withVerdict, hid]

/-- What is tested is what is picked. -/
theorem testsChosen_iff : TestsChosen path selector fs s
      (run path action.recorded selector false reached written (fs, [], t)) ↔
    select path selector fs = .ok (some s) := by
  refine ⟨fun h => ?_, testsChosen_of_select⟩
  obtain ⟨log, k, hload, hchosen⟩ := h.chosen
  exact (select_eq_some_iff hload).2 ⟨k, hchosen⟩

/-- Only a run that has picked nothing fails without having started its action. -/
theorem unstarted_iff {failure : Failure} :
    let real := run path action.recorded selector false reached written (fs, [], t)
    real.1 = .error failure ∧ real.2.2.1 = [] ↔ select path selector fs = .error failure := by
  intro real
  cases hselect : select path selector fs with
  | error refusal =>
    have hreal : real = (.error refusal, fs, [], t) := run_of_refused hselect
    simp [hreal]
  | ok choice =>
    refine iff_of_false ?_ nofun
    rintro ⟨hfailed, hnone⟩
    cases choice with
    | none =>
      have hreal : real = (.ok .nothingPending, fs, [], t) := run_of_idle hselect
      rw [hreal] at hfailed
      cases hfailed
    | some s =>
      have hreal : TestsChosen path selector fs s real := testsChosen_of_select hselect
      rw [hreal.started] at hnone
      cases hnone

/-! ## Dry runs and real runs -/

/-- **A dry run shows what a real run would do, and does none of it.** Let any files, any choice and
any action be given, and let the starts of the action be recorded. A dry run starts no action and
leaves everything as it is. It fails just when a real run fails without having started its action,
and with the same failure; it finds nothing pending just when the real run does. And otherwise what
it gives are the identity of the entry that the real run tests, and the variables that the real run
starts its action with, once. -/
theorem dry_run_shows_real_run (path : String) (action : TestAction τ) (selector : SnapshotChoice)
    (reached written reached' written' : Instant) (fs : FileSystem) (t : τ) :
    let dry := run path action.recorded selector true reached written (fs, [], t)
    let real := run path action.recorded selector false reached' written' (fs, [], t)
    dry.2 = (fs, [], t) ∧
      (∀ failure, dry.1 = .error failure ↔ real.1 = .error failure ∧ real.2.2.1 = []) ∧
      (dry.1 = .ok .nothingPending ↔ real.1 = .ok .nothingPending) ∧
      (∀ id command vars, dry.1 = .ok (.dryRun id command vars) ↔
        command = action.describe ∧ real.2.2.1 = [vars] ∧
          ∃ s, TestsChosen path selector fs s real ∧ s.id = id) ∧
      ∀ stored, dry.1 ≠ .ok (.completed stored) := by
  intro dry real
  have hdry : dry = _ := run_dry_eq
  refine ⟨by rw [hdry], fun failure => ?_, run_eq_idle_iff.trans run_eq_idle_iff.symm,
    fun id command vars => ⟨?_, ?_⟩, fun stored => ?_⟩
  · calc dry.1 = .error failure ↔ select path selector fs = .error failure := run_dry_eq_error_iff
      _ ↔ real.1 = .error failure ∧ real.2.2.1 = [] := unstarted_iff.symm
  · intro hshown
    obtain ⟨s, hselect, rfl, rfl, rfl⟩ := run_dry_eq_shown_iff.1 hshown
    have hreal : TestsChosen path selector fs s real := testsChosen_of_select hselect
    exact ⟨rfl, hreal.started, s, hreal, rfl⟩
  · rintro ⟨rfl, hstarted, s, hreal, rfl⟩
    exact run_dry_eq_shown_iff.2 ⟨s, testsChosen_iff.1 hreal, rfl, rfl,
      List.singleton_inj.1 (hreal.started.symm.trans hstarted)⟩
  · rw [hdry]
    rcases select path selector fs with _ | _ | _ <;> exact nofun

end ReleaseCandidates.TestRun
