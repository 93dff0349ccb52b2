import ReleaseCandidates.SnapshotLog.Stored
import ReleaseCandidates.TestEnvironment

set_option autoImplicit false

/-! # Test runs

A test run picks a snapshot that waits for its tests, runs an external action with the variables of
the snapshot, and records the verdict. Whatever the action does, even if it cannot be started, the
snapshot ends up successful or failed; only a dry run leaves it as it was. -/

namespace ReleaseCandidates

/-- Which snapshot a test run is for. -/
inductive SnapshotChoice where
  /-- The pending one that was made last, if there is one. -/
  | pending
  | id (id : String)
  /-- The position in the log, the newest at 0. -/
  | index (index : Nat)
  deriving DecidableEq, Repr

/-- How an action ended. -/
structure ActionResult where
  success : Bool
  /-- None if it was ended by a signal. -/
  exitCode : Option Int
  deriving DecidableEq, Repr

/-- The external test action. While it runs, anything may happen to the file system; `τ` is what
else it has to do with. -/
structure TestAction (τ : Type) where
  /-- The command line, for people. -/
  describe : String
  /-- Runs the tests with the variables set. A failure means that they could not be started. -/
  run (vars : Variables) : StateM (FileSystem × τ) (Except Failure ActionResult)

/-- What came of a test run. -/
inductive TestRunResult where
  /-- No snapshot waits for its tests. -/
  | nothingPending
  /-- What would have been run for which snapshot. -/
  | dryRun (id command : String) (vars : Variables)
  /-- The verdict was recorded. -/
  | completed (snapshot : Snapshot)
  deriving DecidableEq, Repr

namespace TestRun

variable {τ : Type}

/-- The snapshot asked for by name: it has to be there and to be pending. -/
def demand (name : String) : Option Snapshot → Except Failure (Option Snapshot)
  | none => .error (.snapshotUnknown name)
  | some s =>
    if s.status.isFinal then .error (.transitionRefused s.id s.status .tested)
    else .ok (some s)

/-- The snapshot that a run is for. -/
def select (path : String) (selector : SnapshotChoice) (fs : FileSystem) :
    Except Failure (Option Snapshot) :=
  match selector with
  | .pending => StoredLog.nextPending path fs
  | .id id =>
    match StoredLog.withId path id fs with
    | .error failure => .error failure
    | .ok found => demand id found
  | .index index =>
    match StoredLog.atPosition path index fs with
    | .error failure => .error failure
    | .ok found => demand ("#" ++ toString index) found

/-- The verdict on what an action did. -/
def verdict : Except Failure ActionResult → Status
  | .ok result => if result.success then .successful else .failed
  | .error _ => .failed

/-- Records a verdict reached at one instant in a log written at another. -/
def conclude (path : String) (snapshot : Snapshot) (status : Status) (reached written : Instant)
    (fs : FileSystem) : Except Failure (Snapshot × FileSystem) :=
  match snapshot.complete status reached with
  | .error failure => .error failure
  | .ok done => StoredLog.recordVerdict path done written fs

/-- Runs the tests of the snapshot asked for. The clock is read when they are over and when the
verdict is written. -/
def run (path : String) (action : TestAction τ) (selector : SnapshotChoice) (dryRun : Bool)
    (reached written : Instant) :
    StateM (FileSystem × τ) (Except Failure TestRunResult) := fun (fs, t) =>
  match select path selector fs with
  | .error failure => (.error failure, fs, t)
  | .ok none => (.ok .nothingPending, fs, t)
  | .ok (some snapshot) =>
    let vars := (TestEnvironment.ofComponents snapshot.components).vars
    if dryRun then (.ok (.dryRun snapshot.id action.describe vars), fs, t)
    else
      let (result, fs, t) := action.run vars (fs, t)
      match conclude path snapshot (verdict result) reached written fs with
      | .error failure => (.error failure, fs, t)
      | .ok (stored, fs) => (.ok (.completed stored), fs, t)

end TestRun

end ReleaseCandidates
