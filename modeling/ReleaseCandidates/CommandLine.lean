import ReleaseCandidates.TestRun

set_option autoImplicit false

/-! # The command line: what can be asked for

A run of the program carries out one of three commands. Four settings belong to the program as a
whole and may stand before or after the name of the command. -/

namespace ReleaseCandidates

/-- What the program is to do. -/
inductive Command where
  /-- Resolve the tracked repositories, so many at a time, and record a snapshot. -/
  | scan (concurrency : Option Nat)
  /-- Run the tests of a snapshot and record the verdict. -/
  | test (dryRun : Bool) (selector : SnapshotChoice)
  /-- Make sure that named versions have their tags. -/
  | tag (versionsFile version : Option String) (dryRun : Bool)
  deriving DecidableEq, Repr

/-- A command with the settings of the program. -/
structure Arguments where
  config : Option String
  file : Option String
  verbose : Bool
  logJson : Bool
  command : Command
  deriving DecidableEq, Repr

/-- Why the program does not start on a command. -/
inductive Refusal where
  /-- Help was asked for. -/
  | helpShown
  /-- The version was asked for. -/
  | versionShown
  /-- Nothing was given at all. -/
  | nothingGiven
  /-- Something was given, but no command. -/
  | commandMissing
  | commandUnknown
  | argumentUnknown
  /-- A value is missing or empty. -/
  | valueMissing
  /-- A value is not of the right kind. -/
  | valueUnfit
  /-- A value was given to what takes none. -/
  | valueUnwanted
  /-- Two arguments exclude each other, or one was given twice. -/
  | conflict
  deriving DecidableEq, Repr

/-- Whether a refusal is what was asked for. -/
def Refusal.isWanted : Refusal → Bool
  | .helpShown | .versionShown => true
  | _ => false

end ReleaseCandidates
