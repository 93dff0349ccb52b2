import ReleaseCandidates.Proofs.Program.Commands
import ReleaseCandidates.Proofs.TestRun.Endings

set_option autoImplicit false

/-! # What the exit code of a test run tells

Whoever starts the program to run the tests of a snapshot learns from its exit code what has become
of the log. It is 1 just when a failed run is on record: the log is what it was but for one pending
entry that has failed. With 0 an entry was successful, or nothing was to be done and nothing was.
With 3 the file is what it was, byte for byte, and so it is whenever the log could not be loaded.

Main statement: `Program.exit_code_tells`. -/

namespace ReleaseCandidates

/-! ## Logs that were judged -/

namespace StoredLog

variable {path : String} {status status' : Status} {before after : FileSystem}

/-- One pending entry of the log at a path has taken a verdict, with the time of it. Every other
entry is as it was. -/
def Judged (path : String) (status : Status) (before after : FileSystem) : Prop :=
  ∃ (log : SnapshotLog) (k : Nat) (s : Snapshot) (time : Instant), load path before = .ok log ∧
    log.snapshots[k]? = some s ∧ s.status = .pending ∧
    load path after = .ok ⟨log.snapshots.set k (s.withVerdict status time)⟩

/-- At the position of a pending entry a verdict shows. -/
theorem status_of_set_eq {entries : List Snapshot} {s e : Snapshot} {k j : Nat} {t t' : Instant}
    (hs : entries[k]? = some s) (hpending : s.status = .pending) (hstatus : status ≠ .pending)
    (h : entries.set k (s.withVerdict status t) = entries.set j (e.withVerdict status' t')) :
    status = status' := by
  obtain ⟨hk, -⟩ := List.getElem?_eq_some_iff.1 hs
  have hentry := congrArg (fun entries => entries[k]?) h
  by_cases hjk : j = k
  · subst hjk
    simp only [List.getElem?_set_self hk, Option.some.injEq] at hentry
    rw [← Snapshot.status_withVerdict s status t, hentry, Snapshot.status_withVerdict]
  · -- the other verdict is elsewhere, so the entry would be pending still
    simp only [List.getElem?_set_self hk, List.getElem?_set_ne hjk, hs, Option.some.injEq] at hentry
    exact absurd (by rw [← hpending, ← hentry, Snapshot.status_withVerdict]) hstatus

/-- A log is judged in one way only. -/
theorem Judged.status_eq (h : Judged path status before after)
    (h' : Judged path status' before after) (hstatus : status ≠ .pending) : status = status' := by
  obtain ⟨log, k, s, t, hload, hs, hpending, hafter⟩ := h
  obtain ⟨log', j, e, t', hload', -, -, hafter'⟩ := h'
  obtain rfl : log = log' := Except.ok.inj (hload.symm.trans hload')
  have hentries := congrArg SnapshotLog.snapshots (Except.ok.inj (hafter.symm.trans hafter'))
  exact status_of_set_eq hs hpending hstatus hentries

/-- A file that is as it was holds no verdict that was not there. -/
theorem Judged.inspect_ne (h : Judged path status before after) (hstatus : status ≠ .pending) :
    after.inspect path ≠ before.inspect path := by
  intro hsame
  obtain ⟨log, k, s, t, hload, hs, hpending, hafter⟩ := h
  rw [TestRun.load_of_inspect_eq hsame, hload] at hafter
  have hentries : log.snapshots = log.snapshots.set k (s.withVerdict status t) :=
    congrArg SnapshotLog.snapshots (Except.ok.inj hafter)
  obtain ⟨hk, -⟩ := List.getElem?_eq_some_iff.1 hs
  have hentry := congrArg (fun entries => entries[k]?) hentries
  simp only [List.getElem?_set_self hk, hs, Option.some.injEq] at hentry
  exact hstatus (by rw [← hpending, hentry, Snapshot.status_withVerdict])

/-- A log that can be loaded is in a file that is not too large. -/
theorem fitsLimit_of_load {fs : FileSystem} {log : SnapshotLog} (h : load path fs = .ok log) :
    FitsLimit path fs := by
  intro content hcontent
  obtain ⟨content', text, hinspect, hsize, -, -⟩ := load_eq_ok_iff.1 h
  rw [hcontent] at hinspect
  cases hinspect
  exact hsize

end StoredLog

/-! ## The exit code of a run -/

namespace TestRun

variable {τ : Type} {path : String} {action : TestAction τ} {selector : SnapshotChoice}
  {dryRun : Bool} {reached written : Instant} {fs : FileSystem} {t : τ}
  {ended : Except Failure TestRunResult × FileSystem × τ}

/-- The exit code for what came of a run. -/
def exitCode : Except Failure TestRunResult → ExitCode
  | .error _ => .applicationError
  | .ok result => Report.testRunCode result

/-- A run that could not pick an entry has failed and has done nothing. -/
theorem Ended.of_unreadable (h : Ended path action selector dryRun reached written fs t ended)
    (hunreadable : StoredLog.Unreadable path fs) :
    exitCode ended.1 = .applicationError ∧ ended.2 = (fs, t) := by
  obtain ⟨failure, hload⟩ := StoredLog.exists_load_eq_error_iff.2 hunreadable
  have hselect : select path selector fs = .error failure := select_of_unloaded selector hload
  cases h with
  | refused => exact ⟨rfl, rfl⟩
  | idle choice => cases hselect.symm.trans choice
  | dry choice => cases hselect.symm.trans choice
  | unrecorded choice => cases hselect.symm.trans choice
  | completed choice => cases hselect.symm.trans choice

/-- A run finds nothing to do only where no entry of the log is pending. -/
theorem none_pending_of_select (h : select path selector fs = .ok none) :
    ∃ log, StoredLog.load path fs = .ok log ∧ ∀ s ∈ log.snapshots, s.status ≠ .pending := by
  have hdemand (name : String) (found : Option Snapshot) : demand name found ≠ .ok none := by
    intro hnone
    unfold demand at hnone
    split at hnone
    · cases hnone
    · split at hnone <;> cases hnone
  cases hload : StoredLog.load path fs with
  | error failure =>
    rw [select_of_unloaded selector hload] at h
    cases h
  | ok log =>
    cases selector with
    | pending =>
      simp only [select, StoredLog.nextPending, hload, Except.map, Except.ok.injEq] at h
      exact ⟨log, rfl, SnapshotLog.ne_pending_of_nextPending? h⟩
    | id id =>
      simp only [select, StoredLog.withId, hload, Except.map] at h
      exact absurd h (hdemand _ _)
    | index index =>
      simp only [select, StoredLog.atPosition, hload, Except.map] at h
      exact absurd h (hdemand _ _)

/-- What a run leaves behind that could not record a verdict, or had none to record. -/
theorem Ended.kept_or_judged (h : Ended path action selector dryRun reached written fs t ended)
    (hspares : ∀ vars, (action.run vars (fs, t)).2.1.inspect path = fs.inspect path)
    (hfits : ended.2.1.inspect path ≠ fs.inspect path → StoredLog.FitsLimit path ended.2.1) :
    (exitCode ended.1 = .applicationError ∧ ended.2.1.inspect path = fs.inspect path) ∨
      (exitCode ended.1 = .success ∧ ended.2 = (fs, t) ∧
        (dryRun = true ∨ select path selector fs = .ok none)) ∨
      (exitCode ended.1 = .success ∧ StoredLog.Judged path .successful fs ended.2.1) ∨
      (exitCode ended.1 = .testsFailed ∧ StoredLog.Judged path .failed fs ended.2.1) := by
  cases h with
  | refused => exact .inl ⟨rfl, rfl⟩
  | idle choice => exact .inr (.inl ⟨rfl, rfl, .inr choice⟩)
  | dry _ dry => exact .inr (.inl ⟨rfl, rfl, .inl dry⟩)
  | @unrecorded s _ _ _ _ _ _ acted _ =>
    have hsame := hspares (TestEnvironment.ofComponents s.components).vars
    rw [acted] at hsame
    exact .inl ⟨rfl, hsame⟩
  | @completed s stored result fs' fs'' t' _ _ acted hverdict =>
    have hsame := hspares (TestEnvironment.ofComponents s.components).vars
    rw [acted] at hsame
    obtain ⟨log, k, e, time, hload, he, -, hpending, rfl, hsave⟩ := conclude_eq_ok hverdict
    rw [load_of_inspect_eq hsame] at hload
    have hreadable : StoredLog.FitsLimit path fs'' := by
      by_cases hchanged : fs''.inspect path = fs.inspect path
      · have hbefore := StoredLog.fitsLimit_of_load hload
        rwa [StoredLog.FitsLimit, ← hchanged] at hbefore
      · exact hfits hchanged
    have hafter := StoredLog.mirrors_of_save hsave hreadable
    have hjudged : StoredLog.Judged path (verdict result) fs fs'' :=
      ⟨log, k, e, time, hload, he, hpending, hafter⟩
    cases hresult : verdict result with
    | pending => exact absurd hresult (verdict_ne_pending result)
    | successful =>
      rw [hresult] at hjudged
      exact .inr (.inr (.inl ⟨rfl, hjudged⟩))
    | failed =>
      rw [hresult] at hjudged
      exact .inr (.inr (.inr ⟨rfl, hjudged⟩))

/-- What the exit code says about the files. -/
theorem Ended.code_tells (h : Ended path action selector dryRun reached written fs t ended)
    (hspares : ∀ vars, (action.run vars (fs, t)).2.1.inspect path = fs.inspect path)
    (hfits : ended.2.1.inspect path ≠ fs.inspect path → StoredLog.FitsLimit path ended.2.1) :
    ((exitCode ended.1).number = 1 ↔ StoredLog.Judged path .failed fs ended.2.1) ∧
      ((exitCode ended.1).number = 0 → StoredLog.Judged path .successful fs ended.2.1 ∨
        ended.2 = (fs, t) ∧ (dryRun = true ∨ ∃ log, StoredLog.load path fs = .ok log ∧
          ∀ e ∈ log.snapshots, e.status ≠ .pending)) ∧
      ((exitCode ended.1).number = 3 → ended.2.1.inspect path = fs.inspect path) ∧
      (exitCode ended.1).number ∈ [0, 1, 3] := by
  -- a file that is as it was was not judged
  have hunjudged (hsame : ended.2.1.inspect path = fs.inspect path) :
      ¬ StoredLog.Judged path .failed fs ended.2.1 :=
    fun hjudged => hjudged.inspect_ne (by simp) hsame
  rcases h.kept_or_judged hspares hfits with ⟨hcode, hsame⟩ | ⟨hcode, hstate, hidle⟩ |
    ⟨hcode, hjudged⟩ | ⟨hcode, hjudged⟩
  · rw [hcode]
    exact ⟨iff_of_false (by decide) (hunjudged hsame), nofun, fun _ => hsame, by decide⟩
  · rw [hcode]
    have hsame : ended.2.1.inspect path = fs.inspect path := by rw [hstate]
    exact ⟨iff_of_false (by decide) (hunjudged hsame),
      fun _ => .inr ⟨hstate, hidle.imp_right none_pending_of_select⟩, nofun, by decide⟩
  · rw [hcode]
    have hnot : ¬ StoredLog.Judged path .failed fs ended.2.1 :=
      fun hfailed => nomatch hjudged.status_eq hfailed (by simp)
    exact ⟨iff_of_false (by decide) hnot, fun _ => .inl hjudged, nofun, by decide⟩
  · rw [hcode]
    exact ⟨iff_of_true rfl hjudged, nofun, nofun, by decide⟩

end TestRun

/-! ## The exit code of the program -/

namespace Program

variable {τ : Type} {s : Surroundings τ} {args : List String} {a : Arguments} {dryRun : Bool}
  {selector : SnapshotChoice} {config : Configuration} {fs : FileSystem} {t : τ}

/-- The command that runs tests ends as the run does that it consists of. -/
theorem test_ends (s : Surroundings τ) (config : Configuration) (path : String) (dryRun : Bool)
    (selector : SnapshotChoice) (fs : FileSystem) (t : τ) :
    (test s config path dryRun selector (fs, t)).1.code =
        TestRun.exitCode (TestRun.run path ((Playbook.ofConfiguration config).action s.launch)
          selector dryRun (s.clock 0) (s.clock 1) (fs, t)).1 ∧
      (test s config path dryRun selector (fs, t)).2 =
        (TestRun.run path ((Playbook.ofConfiguration config).action s.launch) selector dryRun
          (s.clock 0) (s.clock 1) (fs, t)).2 := by
  rcases hrun : TestRun.run path ((Playbook.ofConfiguration config).action s.launch) selector
    dryRun (s.clock 0) (s.clock 1) (fs, t) with ⟨failure | outcome, state⟩
  · have htest : test s config path dryRun selector (fs, t) = (failed "" failure, state) := by
      simp only [test, bind, StateT.bind, hrun]
      rfl
    rw [htest]
    exact ⟨rfl, rfl⟩
  · have htest : test s config path dryRun selector (fs, t) =
        ({ stdout := Report.testRun outcome, stderr := "", code := Report.testRunCode outcome },
          state) := by
      simp only [test, bind, StateT.bind, hrun]
      rfl
    rw [htest]
    exact ⟨rfl, rfl⟩

/-- While the tests of a playbook run, nothing happens to the files but what the program does that
is launched. -/
theorem action_run_snd (p : Playbook) (launch : Launcher τ) (vars : Variables)
    (state : FileSystem × τ) :
    ((p.action launch).run vars state).2 = (launch p.program p.arguments vars state).2 := by
  rcases hlaunch : launch p.program p.arguments vars state with ⟨error | exitCode, state'⟩
  · simp only [Playbook.action, bind, StateT.bind, hlaunch]
    rfl
  · simp only [Playbook.action, bind, StateT.bind, hlaunch]
    rfl

/-- **The exit code tells what has become of the log.** Let the arguments ask for a test run of any
selector, dry or not. If the configuration cannot be loaded, the exit code is 3 and nothing has
happened. Otherwise let the program that is launched leave the log file alone, whatever else it
does, and let the log not grow too large to be read. Then the exit code is 1 if and only if the log
was judged, and the verdict is a failure; with 0 the verdict is a success, or nothing has happened
at all, because the run was dry or no entry was pending; with 3 the file with the log is as it was.
There is no other exit code. And whatever keeps the log from being loaded, the exit code is 3 and
nothing has happened. -/
theorem exit_code_tells (hread : CommandLine.read args s.environmentFile = .ok a)
    (hcommand : a.command = .test dryRun selector) :
    (∀ failure, Configuration.load a.config (workingDirectory fs) fs = .error failure →
      (run s args (fs, t)).1.code.number = 3 ∧ (run s args (fs, t)).2 = (fs, t)) ∧
    ∀ config path, Configuration.load a.config (workingDirectory fs) fs = .ok config →
      snapshotFile a config = path →
      (∀ program arguments vars,
        (s.launch program arguments vars (fs, t)).2.1.inspect path = fs.inspect path) →
      ((run s args (fs, t)).2.1.inspect path ≠ fs.inspect path →
        StoredLog.FitsLimit path (run s args (fs, t)).2.1) →
      ((run s args (fs, t)).1.code.number = 1 ↔
        StoredLog.Judged path .failed fs (run s args (fs, t)).2.1) ∧
      ((run s args (fs, t)).1.code.number = 0 →
        StoredLog.Judged path .successful fs (run s args (fs, t)).2.1 ∨
          (run s args (fs, t)).2 = (fs, t) ∧ (dryRun = true ∨ ∃ log,
            StoredLog.load path fs = .ok log ∧ ∀ e ∈ log.snapshots, e.status ≠ .pending)) ∧
      ((run s args (fs, t)).1.code.number = 3 →
        (run s args (fs, t)).2.1.inspect path = fs.inspect path) ∧
      (run s args (fs, t)).1.code.number ∈ [0, 1, 3] ∧
      (StoredLog.Unreadable path fs →
        (run s args (fs, t)).1.code.number = 3 ∧ (run s args (fs, t)).2 = (fs, t)) := by
  rw [run_of_read hread, execute_eq]
  refine ⟨fun failure hconfig => ?_, fun config path hconfig hpath hspares hfits => ?_⟩
  · rw [hconfig]
    exact ⟨rfl, rfl⟩
  · simp only [hconfig, hcommand, hpath] at hfits ⊢
    obtain ⟨hcode, hstate⟩ := test_ends s config path dryRun selector fs t
    rw [hcode, hstate]
    rw [hstate] at hfits
    have hended := TestRun.run_ended path ((Playbook.ofConfiguration config).action s.launch)
      selector dryRun (s.clock 0) (s.clock 1) fs t
    have hspares' : ∀ vars, (((Playbook.ofConfiguration config).action s.launch).run vars
        (fs, t)).2.1.inspect path = fs.inspect path := by
      intro vars
      rw [action_run_snd]
      exact hspares _ _ _
    obtain ⟨hfailed, hdone, hkept, hcodes⟩ := hended.code_tells hspares' hfits
    refine ⟨hfailed, hdone, hkept, hcodes, fun hunreadable => ?_⟩
    obtain ⟨hthree, hnothing⟩ := hended.of_unreadable hunreadable
    rw [hthree]
    exact ⟨rfl, hnothing⟩

/-! ## Tests that fail -/

/-- A world in which tests fail and touch nothing. -/
def failingTests : Surroundings Unit where
  environmentFile := none
  environmentToken := none
  forge := .offline
  registry := .offline
  launch _ _ _ := return .ok (some 2)
  clock _ := .epoch

/-- The tests of the newest entry are asked for. -/
def testNewest : List String := ["--file", "/log", "test", "--snapshot-index", "0"]

/-- What the file says once the newest entry has failed. -/
def newestFailed : SnapshotLog :=
  ⟨TestRun.twins.snapshots.set 0
    ((Snapshot.pending [.ofRelease "o/a" "1"] .epoch).withVerdict .failed .epoch)⟩

theorem size_newestFailed : newestFailed.render.utf8ByteSize ≤ FileSystem.sizeLimit := by
  rw [SnapshotLog.render, Yaml.Tree.render, String.utf8ByteSize_ofList]
  decide +kernel

theorem read_testNewest : CommandLine.read testNewest none =
    .ok ⟨none, some "/log", false, false, .test false (.index 0)⟩ := by
  decide +kernel

theorem load_noConfiguration :
    Configuration.load none (workingDirectory TestRun.twinsOnFile) TestRun.twinsOnFile =
      .ok .empty := by
  rfl

theorem run_testNewest : ∃ fs', StoredLog.save "/log" newestFailed TestRun.twinsOnFile = .ok fs' ∧
    (run failingTests testNewest (TestRun.twinsOnFile, ())).2 = (fs', ()) ∧
    (run failingTests testNewest (TestRun.twinsOnFile, ())).1.code = .testsFailed := by
  have hchosen : TestRun.Chosen TestRun.twins (.index 0) 0
      (Snapshot.pending [.ofRelease "o/a" "1"] .epoch) := ⟨rfl, rfl, rfl⟩
  have hselect := (TestRun.select_eq_some_iff TestRun.load_twins).2 ⟨0, hchosen⟩
  have hnone : TestRun.twins.NoneBefore 0 (Snapshot.pending [.ofRelease "o/a" "1"] .epoch).id :=
    fun j hj => absurd hj (Nat.not_lt_zero j)
  have hacted : ((Playbook.ofConfiguration .empty).action failingTests.launch).run
      (TestEnvironment.ofComponents [.ofRelease "o/a" "1"]).vars (TestRun.twinsOnFile, ()) =
        (.ok { success := false, exitCode := some 2 }, TestRun.twinsOnFile, ()) := rfl
  obtain ⟨time, fs', htime, hsave, hrun⟩ := TestRun.run_completes_current
    (failingTests.clock 0) (failingTests.clock 1) hselect hchosen.pending hacted TestRun.load_twins
    TestRun.canReplace_twins hchosen.entry rfl hnone hchosen.pending
  have hepoch : time = .epoch := by
    rw [htime]
    decide +kernel
  rw [hepoch] at hsave hrun
  obtain ⟨hcode, hstate⟩ := test_ends failingTests .empty "/log" false (.index 0)
    TestRun.twinsOnFile ()
  rw [hrun] at hcode hstate
  have hpath : snapshotFile ⟨none, some "/log", false, false, .test false (.index 0)⟩ .empty =
      "/log" := rfl
  rw [run_of_read read_testNewest, execute_eq]
  simp only [load_noConfiguration, hpath]
  refine ⟨fs', hsave, hstate, ?_⟩
  rw [hcode]
  simp only [TestRun.exitCode, Report.testRunCode, Snapshot.status_withVerdict]
  rfl

theorem exit_code_tells_failure :
    (run failingTests testNewest (TestRun.twinsOnFile, ())).1.code.number = 1 ∧
      StoredLog.Judged "/log" .failed TestRun.twinsOnFile
        (run failingTests testNewest (TestRun.twinsOnFile, ())).2.1 := by
  obtain ⟨fs', hsave, hafter, hcode⟩ := run_testNewest
  have hone : (run failingTests testNewest (TestRun.twinsOnFile, ())).1.code.number = 1 := by
    rw [hcode]
    rfl
  have hfits : StoredLog.FitsLimit "/log" fs' := StoredLog.fitsLimit_of_save hsave size_newestFailed
  obtain ⟨hfailed, -⟩ := (exit_code_tells (s := failingTests) read_testNewest rfl).2 _ _
    load_noConfiguration rfl (fun _ _ _ => rfl) (fun _ => by rw [hafter]; exact hfits)
  exact ⟨hone, hfailed.1 hone⟩

end Program

end ReleaseCandidates
