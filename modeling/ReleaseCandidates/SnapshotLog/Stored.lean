import ReleaseCandidates.FileSystem.Replace
import ReleaseCandidates.SnapshotLog.Layout

set_option autoImplicit false

/-! # The stored snapshot log

A snapshot log lives in one file. Every operation reads the whole log, and every change writes it
back in one step, so an operation that fails has changed nothing: a new file system comes only with
a result. Saving a scan takes a log that cannot be read for an empty one and replaces it; all other
operations refuse such a log and leave it alone. -/

namespace ReleaseCandidates

namespace StoredLog

/-! ## Whole logs -/

/-- The words by which failures name the file. -/
def description : String := "snapshot log"

/-- Whether there is anything at the path, even a link that leads nowhere. -/
def isThere (path : String) (fs : FileSystem) : Bool :=
  (fs.inspect path).isOk

/-- Reads the log in the file at `path`. -/
def load (path : String) (fs : FileSystem) : Except Failure SnapshotLog :=
  if !isThere path fs then .error (.logMissing path)
  else
    match fs.readRegular path description with
    | .error problem => .error (.notRead problem)
    | .ok content =>
      match SnapshotLog.parse content with
      | .error problem => .error (.logUnreadable path problem)
      | .ok log => .ok log

/-- Reads the log in the file at `path`; one that is missing or cannot be read counts as empty. -/
def loadOrEmpty (path : String) (fs : FileSystem) : SnapshotLog :=
  match load path fs with
  | .ok log => log
  | .error _ => .empty

/-- Writes the whole log to the file at `path`. -/
def save (path : String) (log : SnapshotLog) (fs : FileSystem) : Except Failure FileSystem :=
  fs.replaceFile path log.render

/-! ## Looking up -/

/-- The pending entry that was made last. -/
def nextPending (path : String) (fs : FileSystem) : Except Failure (Option Snapshot) :=
  (load path fs).map SnapshotLog.nextPending?

/-- The first entry with an identity. -/
def withId (path id : String) (fs : FileSystem) : Except Failure (Option Snapshot) :=
  (load path fs).map fun log => log.withId? id

/-- The entry at a position, the newest at 0. -/
def atPosition (path : String) (index : Nat) (fs : FileSystem) :
    Except Failure (Option Snapshot) :=
  (load path fs).map fun log => log.atPosition? index

/-! ## Changes -/

/-- Offers components found at an instant to the log; the file is written only if they are new. -/
def offer (path : String) (components : List Component) (time : Instant)
    (fs : FileSystem) : Except Failure (OfferOutcome × FileSystem) :=
  match (loadOrEmpty path fs).offer components time with
  | (.unchanged, _) => .ok (.unchanged, fs)
  | (.inserted id, log) =>
    match save path log fs with
    | .error failure => .error failure
    | .ok fs => .ok (.inserted id, fs)

/-- Records the verdict that a copy of an entry carries. The entry on file has to be pending still,
and only its status and the time of the verdict change. -/
def recordVerdict (path : String) (snapshot : Snapshot) (now : Instant) (fs : FileSystem) :
    Except Failure (Snapshot × FileSystem) :=
  if !snapshot.status.isFinal then
    .error (.transitionRefused snapshot.id .pending (.status snapshot.status))
  else
    match load path fs with
    | .error failure => .error failure
    | .ok log =>
      match log.recordVerdict snapshot now with
      | .error failure => .error failure
      | .ok (stored, log) =>
        match save path log fs with
        | .error failure => .error failure
        | .ok fs => .ok (stored, fs)

end StoredLog

end ReleaseCandidates
