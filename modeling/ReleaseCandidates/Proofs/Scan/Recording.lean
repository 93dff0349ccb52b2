import ReleaseCandidates.Proofs.FileSystem.Parents
import ReleaseCandidates.Proofs.SnapshotLog.Changes
import ReleaseCandidates.Proofs.SnapshotLog.OnFile
import ReleaseCandidates.Scan

set_option autoImplicit false

/-! # Saving a scan is all or nothing

A result is offered to the log at a path, and the path may be in any state. Two judgements are
passed on it that know nothing of each other: reading takes whatever is no log for an empty one, and
writing refuses links, directories and places without a directory. They fit together. What is
refused to be written has not been taken for a log that holds the result already, unless it is one
(`not_standsFor_of_unwritable`): only a regular file is read as a log, and a regular file lies in a
directory. And what is written over has been read, or was no log (`history_of_loadOrEmpty`).

Main statements: `Saved` lists the ends that saving can come to, and it comes to one of them
(`record_saved`); when it fails is told apart exactly (`record_eq_error_iff`). -/

namespace ReleaseCandidates

namespace StoredLog

variable {path : String} {fs : FileSystem} {components : List Component}

/-- The log at the path is accepted, and its newest entry stands for the same artifacts. -/
def StandsFor (path : String) (components : List Component) (fs : FileSystem) : Prop :=
  ∃ log newest, load path fs = .ok log ∧ log.newest? = some newest ∧
    artifacts newest.components = artifacts components

/-- The entries of the log at the path: those of a log that is accepted, and none if nothing is. -/
def History (path : String) (entries : List Snapshot) (fs : FileSystem) : Prop :=
  load path fs = .ok ⟨entries⟩ ∨ Unreadable path fs ∧ entries = []

theorem history_of_loadOrEmpty (path : String) (fs : FileSystem) :
    History path (loadOrEmpty path fs).snapshots fs := by
  unfold loadOrEmpty
  cases hload : load path fs with
  | ok log => exact .inl hload
  | error failure => exact .inr ⟨exists_load_eq_error_iff.1 ⟨failure, hload⟩, rfl⟩

theorem holdsNewest_loadOrEmpty_iff :
    (loadOrEmpty path fs).holdsNewest components = true ↔ StandsFor path components fs := by
  constructor
  · intro hholds
    cases hload : load path fs with
    | error failure =>
      -- the empty log holds nothing
      rw [loadOrEmpty, hload] at hholds
      cases hholds
    | ok log =>
      rw [loadOrEmpty, hload] at hholds
      unfold SnapshotLog.holdsNewest at hholds
      split at hholds
      · rename_i newest hnewest
        exact ⟨log, newest, hload, hnewest, sameComponents_iff_artifacts_eq.1 hholds⟩
      · cases hholds
  · rintro ⟨log, newest, hload, hnewest, hsame⟩
    simp only [loadOrEmpty, hload, SnapshotLog.holdsNewest, hnewest]
    exact sameComponents_iff_artifacts_eq.2 hsame

/-- A log that is accepted lies in a regular file, and that in a directory. -/
theorem not_standsFor_of_unwritable (h : fs.Unwritable path) : ¬ StandsFor path components fs := by
  rintro ⟨log, newest, hload, -, -⟩
  obtain ⟨content, text, hfile, -, -, -⟩ := load_eq_ok_iff.1 hload
  cases h with
  | link names => cases hfile.symm.trans names
  | directory names => cases hfile.symm.trans names
  | noParent missing =>
    rw [FileSystem.isDirectory_workshop hfile] at missing
    cases missing

end StoredLog

namespace Scan

variable {path : String} {result : Findings} {time : Instant} {fs fs' : FileSystem}

/-- The ends that the saving of a result can come to: it fails, and no new file system comes of it;
the newest entry stands for the result already, and the file system is the same; or the result is
the newest entry now, pending and followed by the entries that there were. In this case the path
names a regular file that is read back as this log if it is not too large, and nothing has changed
but what the path leads to. -/
inductive Saved (path : String) (result : Findings) (time : Instant) (fs : FileSystem) :
    Except Failure (OfferOutcome × FileSystem) → Prop where
  | failed (failure : Failure) : Saved path result time fs (.error failure)
  | unchanged (found : result.components ≠ [])
      (known : StoredLog.StandsFor path result.components fs) :
      Saved path result time fs (.ok (.unchanged, fs))
  | inserted {log : SnapshotLog} {older : List Snapshot} {l : Location} {fs' : FileSystem}
      (found : result.components ≠ [])
      (unknown : ¬ StoredLog.StandsFor path result.components fs)
      (history : StoredLog.History path older fs)
      (entries : log.snapshots = Snapshot.pending result.components time :: older)
      (leads : fs.walk false path = .ok l) (frame : ∀ k ≠ l, fs'.entryAt k = fs.entryAt k)
      (names : fs'.inspect path = .ok (.file (.text log.render)))
      (loads : log.render.utf8ByteSize ≤ FileSystem.sizeLimit →
        StoredLog.load path fs' = .ok log) :
      Saved path result time fs (.ok (.inserted (Snapshot.pending result.components time).id, fs'))

theorem record_of_nothing (h : result.components = []) :
    record path result time fs = .error (.nothingResolved result.unresolved.length path) := by
  rw [record, if_pos (by rw [h]; rfl)]

theorem record_of_standsFor (hfound : result.components ≠ [])
    (hknown : StoredLog.StandsFor path result.components fs) :
    record path result time fs = .ok (.unchanged, fs) := by
  rw [record, if_neg (by simpa using hfound),
    StoredLog.offer_of_holdsNewest (StoredLog.holdsNewest_loadOrEmpty_iff.2 hknown)]

theorem record_of_not_standsFor (hfound : result.components ≠ [])
    (hunknown : ¬ StoredLog.StandsFor path result.components fs) :
    record path result time fs =
      (StoredLog.save path ⟨Snapshot.pending result.components time ::
        (StoredLog.loadOrEmpty path fs).snapshots⟩ fs).map
          fun fs' => (.inserted (Snapshot.pending result.components time).id, fs') := by
  have hnot : (StoredLog.loadOrEmpty path fs).holdsNewest result.components = false :=
    Bool.eq_false_iff.2 fun hholds => hunknown (StoredLog.holdsNewest_loadOrEmpty_iff.1 hholds)
  rw [record, if_neg (by simpa using hfound), StoredLog.offer_of_not_holdsNewest hnot]
  rfl

theorem record_saved (path : String) (result : Findings) (time : Instant) (fs : FileSystem) :
    Saved path result time fs (record path result time fs) := by
  by_cases hfound : result.components = []
  · rw [record_of_nothing hfound]
    exact .failed _
  by_cases hknown : StoredLog.StandsFor path result.components fs
  · rw [record_of_standsFor hfound hknown]
    exact .unchanged hfound hknown
  rw [record_of_not_standsFor hfound hknown]
  cases hsave : StoredLog.save path
    ⟨Snapshot.pending result.components time :: (StoredLog.loadOrEmpty path fs).snapshots⟩ fs with
  | error failure => exact .failed failure
  | ok fs' =>
    obtain ⟨l, hleads, hframe⟩ := FileSystem.entryAt_of_replaceFile hsave
    exact .inserted hfound hknown (StoredLog.history_of_loadOrEmpty path fs) rfl hleads hframe
      (FileSystem.inspect_of_replaceFile hsave) (StoredLog.load_of_save hsave)

/-- A result is not saved if it is empty, or if it is not there already and the file with the log
cannot be replaced; for no other reason. -/
theorem record_eq_error_iff :
    (∃ failure, record path result time fs = .error failure) ↔
      result.components = [] ∨
        ¬ StoredLog.StandsFor path result.components fs ∧ ¬ fs.CanReplace path := by
  by_cases hfound : result.components = []
  · rw [record_of_nothing hfound]
    exact iff_of_true ⟨_, rfl⟩ (.inl hfound)
  by_cases hknown : StoredLog.StandsFor path result.components fs
  · rw [record_of_standsFor hfound hknown]
    refine iff_of_false ?_ (by simp [hfound, hknown])
    rintro ⟨failure, hfailure⟩
    cases hfailure
  rw [record_of_not_standsFor hfound hknown]
  cases hsave : StoredLog.save path
    ⟨Snapshot.pending result.components time :: (StoredLog.loadOrEmpty path fs).snapshots⟩ fs with
  | error failure =>
    refine iff_of_true ⟨failure, rfl⟩ (.inr ⟨hknown, fun hcan => ?_⟩)
    obtain ⟨fs', hfs'⟩ := hcan _
    rw [StoredLog.save, hfs'] at hsave
    cases hsave
  | ok fs' =>
    obtain ⟨l, hl, -⟩ := FileSystem.replaceFile_eq_ok_iff.1 hsave
    have hcan : fs.CanReplace path := FileSystem.canReplace_iff.2 ⟨l, hl⟩
    refine iff_of_false ?_ (by simp [hfound, hcan])
    rintro ⟨failure, hfailure⟩
    cases hfailure

theorem record_eq_error_of_unwritable (h : fs.Unwritable path) :
    ∃ failure, record path result time fs = .error failure :=
  record_eq_error_iff.2 (.inr ⟨StoredLog.not_standsFor_of_unwritable h, h.not_canReplace⟩)

end Scan

end ReleaseCandidates
