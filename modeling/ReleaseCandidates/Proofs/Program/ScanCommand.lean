import Mathlib.Data.String.Basic
import ReleaseCandidates.Proofs.Program.Commands
import ReleaseCandidates.Proofs.Scan.Recording

set_option autoImplicit false

/-! # What becomes of the files in a scan

The scan command touches files once, when everything has been resolved and the result is saved. So
whatever may be said of saving a result is said of the command: it comes to one of the ends that
`Scan.Saved` lists, and if saving fails, the command fails and every file is as it was. -/

namespace ReleaseCandidates

namespace Program

variable {τ : Type}

/-- The tasks of a scan when they come to their ends, and the world beyond the files then. -/
def resolved (s : Surroundings τ) (config : Configuration) (repositories : List TrackedRepository)
    (t : τ) : List FinishedTask × τ :=
  forgetting (Scan.run (Catalogue.live (forgeApi s config) s.forge s.registry).cached
    { commits := config.maxCommits.getD 20, releases := config.maxReleases.getD 100 }
    repositories) t

/-- What a scan finds. -/
def found (s : Surroundings τ) (config : Configuration) (repositories : List TrackedRepository)
    (t : τ) : Findings :=
  Findings.ofTasks (resolved s config repositories t).1

/-- The files after an operation: as they were if it failed. -/
def filesAfter {α : Type} (fs : FileSystem) : Except Failure (α × FileSystem) → FileSystem
  | .error _ => fs
  | .ok (_, fs') => fs'

/-- A scan does to the files what saving its findings does, and fails if that fails. -/
theorem scan_ends (s : Surroundings τ) {config : Configuration} (path : String)
    {repositories : List TrackedRepository} (h : config.tracked = .ok repositories)
    (fs : FileSystem) (t : τ) :
    (scan s config path (fs, t)).2 =
        (filesAfter fs (Scan.record path (found s config repositories t) (s.clock 0) fs),
          (resolved s config repositories t).2) ∧
      ((scan s config path (fs, t)).1.code = .applicationError ↔ ∃ failure,
        Scan.record path (found s config repositories t) (s.clock 0) fs = .error failure) := by
  have hresolved : beyond (forgetting (Scan.run
      (Catalogue.live (forgeApi s config) s.forge s.registry).cached
      { commits := config.maxCommits.getD 20, releases := config.maxReleases.getD 100 }
      repositories)) (fs, t) =
        ((resolved s config repositories t).1, fs, (resolved s config repositories t).2) := rfl
  simp only [scan, h, bind, StateT.bind, hresolved, get_state, found]
  cases Scan.record path (Findings.ofTasks (resolved s config repositories t).1) (s.clock 0) fs with
  | error failure => exact ⟨rfl, iff_of_true rfl ⟨failure, rfl⟩⟩
  | ok saved =>
    refine ⟨rfl, iff_of_false nofun ?_⟩
    rintro ⟨failure, hfailure⟩
    cases hfailure

/-- **A scan is saved completely or not at all.** Whatever the path of the log names, and whatever
was found, saving it comes to one of three ends: it fails; or the log that the path names stands for
it already, and the file system is the same; or the path now names a file with one entry more, in
front of those that were there. It fails whenever nothing was found and wherever the path names a
link or a directory or lies in no directory. The scan command does to the files what saving its
findings does, and where that fails it fails and leaves every file as it was. -/
theorem scan_all_or_nothing (path : String) (fs : FileSystem) (s : Surroundings τ)
    (config : Configuration) (t : τ) :
    (∀ result time, Scan.Saved path result time fs (Scan.record path result time fs)) ∧
    (∀ result time, result.components = [] ∨ fs.Unwritable path →
      ∃ failure, Scan.record path result time fs = .error failure) ∧
    ∀ repositories, config.tracked = .ok repositories →
      (scan s config path (fs, t)).2.1 =
        filesAfter fs (Scan.record path (found s config repositories t) (s.clock 0) fs) ∧
      ((scan s config path (fs, t)).1.code = .applicationError ↔ ∃ failure,
        Scan.record path (found s config repositories t) (s.clock 0) fs = .error failure) := by
  refine ⟨fun result time => Scan.record_saved path result time fs, fun result time h => ?_,
    fun repositories htracked => ?_⟩
  · rcases h with hnothing | hunwritable
    · exact ⟨_, Scan.record_of_nothing hnothing⟩
    · exact Scan.record_eq_error_of_unwritable hunwritable
  · obtain ⟨hstate, hcode⟩ := scan_ends s path htracked fs t
    rw [hstate]
    exact ⟨rfl, hcode⟩

/-! ## A log that is broken, and one behind a link -/

/-- A file system with bytes that are no text where the log should be. -/
def brokenLog : FileSystem :=
  FileSystem.put ⟨[], []⟩ ["log"] (.file (.bytes 3))

/-- A file system with a link where the log should be. -/
def linkedLog : FileSystem :=
  FileSystem.put ⟨[], []⟩ ["log"] (.link "/elsewhere")

/-- What a scan that found one component saves where there was no log. -/
def firstEntry : SnapshotLog :=
  ⟨[Snapshot.pending [.ofRelease "o/a" "1"] .epoch]⟩

/-- A configuration that tracks nothing. -/
def tracksNothing : Configuration :=
  ⟨some [], none, none, none, none, none, none, none, none, []⟩

theorem size_firstEntry : firstEntry.render.utf8ByteSize ≤ FileSystem.sizeLimit := by
  rw [SnapshotLog.render, Yaml.Tree.render, String.utf8ByteSize_ofList]
  decide +kernel

theorem canReplace_brokenLog : brokenLog.CanReplace "/log" :=
  FileSystem.canReplace_iff.2 ⟨["log"], FileSystem.replaces_log_of_nothing.put (.bytes 3)⟩

theorem load_brokenLog (log : SnapshotLog) : StoredLog.load "/log" brokenLog ≠ .ok log := by
  intro hload
  obtain ⟨failure, hfailure⟩ := StoredLog.exists_load_eq_error_iff.2
    (.notText rfl rfl : StoredLog.Unreadable "/log" brokenLog)
  rw [hload] at hfailure
  cases hfailure

theorem scan_all_or_nothing_broken :
    (∃ fs', Scan.record "/log" ⟨[.ofRelease "o/a" "1"], []⟩ .epoch brokenLog =
        .ok (.inserted Instant.epoch.format, fs') ∧ StoredLog.load "/log" fs' = .ok firstEntry) ∧
      (∃ failure, Scan.record "/log" ⟨[.ofRelease "o/a" "1"], []⟩ .epoch linkedLog =
        .error failure) ∧
      (scan unreached tracksNothing "/log" (brokenLog, ())).2.1 = brokenLog := by
  obtain ⟨hsaved, -, hscan⟩ := scan_all_or_nothing "/log" brokenLog unreached tracksNothing ()
  refine ⟨?_, ?_, ?_⟩
  · have hends := hsaved ⟨[.ofRelease "o/a" "1"], []⟩ .epoch
    cases hrecord : Scan.record "/log" ⟨[.ofRelease "o/a" "1"], []⟩ .epoch brokenLog with
    | error failure =>
      rcases Scan.record_eq_error_iff.1 ⟨failure, hrecord⟩ with hnothing | ⟨-, hcannot⟩
      · cases hnothing
      · exact absurd canReplace_brokenLog hcannot
    | ok saved =>
      rw [hrecord] at hends
      cases hends with
      | unchanged found known =>
        obtain ⟨log, newest, hload, -, -⟩ := known
        exact absurd hload (load_brokenLog log)
      | inserted found unknown history entries leads frame names loads =>
        rename_i log older l fs'
        rcases history with hload | ⟨-, rfl⟩
        · exact absurd hload (load_brokenLog _)
        obtain rfl : log = firstEntry := congrArg SnapshotLog.mk entries
        exact ⟨fs', rfl, loads size_firstEntry⟩
  · exact (scan_all_or_nothing "/log" linkedLog unreached tracksNothing ()).2.1 _ _
      (.inr (.link rfl))
  · obtain ⟨hfiles, -⟩ := hscan [] rfl
    rw [hfiles, Scan.record_of_nothing (by decide +kernel)]
    rfl

end Program

end ReleaseCandidates
