import ReleaseCandidates.Program

set_option autoImplicit false

/-! # From the command line to a command

A run that is not refused loads its configuration, and with that it carries out one of the three
commands. -/

namespace ReleaseCandidates.Program

variable {τ : Type} {s : Surroundings τ} {args : List String} {a : Arguments}

theorem run_of_read (hread : CommandLine.read args s.environmentFile = .ok a) :
    run s args = execute s a := by
  rw [run, hread]

/-- What is carried out depends on what the configuration file says, and is nothing if it says
something wrong. -/
theorem execute_eq (s : Surroundings τ) (a : Arguments) (fs : FileSystem) (t : τ) :
    execute s a (fs, t) =
      match Configuration.load a.config (workingDirectory fs) fs with
      | .error failure => (failed "" failure, fs, t)
      | .ok config =>
        match a.command with
        | .scan _ => scan s config (snapshotFile a config) (fs, t)
        | .test dryRun selector => test s config (snapshotFile a config) dryRun selector (fs, t)
        | .tag asked only dryRun => tag s config asked only dryRun (fs, t) := by
  show (match Configuration.load a.config (workingDirectory fs) fs with
    | .error failure => (return failed "" failure : StateM (FileSystem × τ) Output)
    | .ok config =>
      match a.command with
      | .scan _ => scan s config (snapshotFile a config)
      | .test dryRun selector => test s config (snapshotFile a config) dryRun selector
      | .tag asked only dryRun => tag s config asked only dryRun) (fs, t) = _
  cases Configuration.load a.config (workingDirectory fs) fs with
  | error failure => rfl
  | ok config => cases a.command <;> rfl

/-- What a command finds when it looks at the files and the world beyond them. -/
theorem get_state (state : FileSystem × τ) :
    (get : StateM (FileSystem × τ) (FileSystem × τ)) state = (state, state) :=
  rfl

/-- A world in which nobody is reached. -/
def unreached : Surroundings Unit where
  environmentFile := none
  environmentToken := none
  forge := .offline
  registry := .offline
  launch _ _ _ := return .ok none
  clock _ := .epoch

end ReleaseCandidates.Program
