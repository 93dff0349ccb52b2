import ReleaseCandidates.Catalogue.Cache
import ReleaseCandidates.CommandLine.Reader
import ReleaseCandidates.Configuration.Stored
import ReleaseCandidates.Playbook
import ReleaseCandidates.Program.Report
import ReleaseCandidates.Registry
import ReleaseCandidates.NamedVersion.Stored

set_option autoImplicit false

/-! # The program

A run reads the command line and the configuration and carries out one command. All that it needs
of the world comes in: the file system, the environment, the clock, and what carries requests and
starts programs. What it did goes out: the file system afterwards, what was printed, and how the
run ended. -/

namespace ReleaseCandidates

/-- The world that a run takes place in; `τ` is the state of what lies beyond the file system. -/
structure Surroundings (τ : Type) where
  /-- The file for the log, as the environment has it. -/
  environmentFile : Option String
  /-- The token for the forge, as the environment has it. -/
  environmentToken : Option String
  forge : Http.Transport τ
  registry : Http.Transport τ
  launch : Launcher τ
  /-- The successive readings of the clock. -/
  clock : Nat → Instant

namespace Program

variable {τ : Type}

/-- A run that ends with a failure, after what was printed to the standard error before. -/
def failed (stderr : String) (failure : Failure) : Output where
  stdout := ""
  stderr := stderr ++ Report.failure failure
  code := .applicationError

/-- The path of the working directory. -/
def workingDirectory (fs : FileSystem) : String :=
  "/" ++ String.intercalate "/" fs.workingDirectory

/-- The file for the log when nothing is configured. -/
def usualLogFile : String := "release-candidates.yaml"

/-- The file with the versions when nothing is configured. -/
def usualVersionsFile : String := "versions.yaml"

/-- The file with the log: the one asked for counts over the configured one. -/
def snapshotFile (args : Arguments) (config : Configuration) : String :=
  (args.file.orElse fun _ => config.snapshotFile).getD usualLogFile

/-- The file with the versions: the one asked for counts over the configured one. -/
def versionsFile (asked : Option String) (config : Configuration) : String :=
  (asked.orElse fun _ => config.versionsFile).getD usualVersionsFile

/-- The forge under a configuration. -/
def forgeApi (s : Surroundings τ) (config : Configuration) : ForgeApi :=
  ForgeApi.make (config.forgeUrl.getD ForgeApi.defaultBase) s.environmentToken

/-- The part of a state beyond the file system, worked on alone. -/
def beyond {α : Type} (act : StateM τ α) : StateM (FileSystem × τ) α := fun (fs, t) =>
  let (a, t) := act t
  (a, fs, t)

/-- An act on a catalogue that remembers its commit listings, on the catalogue itself. -/
def forgetting {α : Type} (act : StateM (Remembered τ) α) : StateM τ α := fun t =>
  let (a, m) := act (Remembered.start t)
  (a, m.inner)

/-- Resolves the targets of the tracked repositories and records what was found. They are resolved
here one after the other, in their order, however many the configuration allows at a time. -/
def scan (s : Surroundings τ) (config : Configuration) (path : String) :
    StateM (FileSystem × τ) Output := do
  match config.tracked with
  | .error failure => return failed "" failure
  | .ok repositories =>
    let catalogue := (Catalogue.live (forgeApi s config) s.forge s.registry).cached
    let limits : ListingLimits := {
      commits := config.maxCommits.getD 20, releases := config.maxReleases.getD 100 }
    let finished ← beyond (forgetting (Scan.run catalogue limits repositories))
    let result := Findings.ofTasks finished
    let progress := Report.progress (Scan.events finished)
    let (fs, t) ← get
    match Scan.record path result (s.clock 0) fs with
    | .error failure => return failed progress failure
    | .ok (outcome, fs) =>
      set (fs, t)
      return { stdout := Report.scan path result outcome, stderr := progress, code := .success }

/-- Runs the tests of a snapshot. -/
def test (s : Surroundings τ) (config : Configuration) (path : String) (dryRun : Bool)
    (selector : SnapshotChoice) : StateM (FileSystem × τ) Output := do
  let action := (Playbook.ofConfiguration config).action s.launch
  match ← TestRun.run path action selector dryRun (s.clock 0) (s.clock 1) with
  | .error failure => return failed "" failure
  | .ok outcome =>
    return { stdout := Report.testRun outcome, stderr := "", code := Report.testRunCode outcome }

/-- Makes sure that named versions have their tags. -/
def tag (s : Surroundings τ) (config : Configuration) (asked only : Option String)
    (dryRun : Bool) : StateM (FileSystem × τ) Output := do
  let (fs, _) ← get
  match NamedVersion.load (versionsFile asked config) fs with
  | .error failure => return failed "" failure
  | .ok versions =>
    let host := (forgeApi s config).tagHost s.forge
    let template := config.tagMessage.getD Tag.defaultMessage
    match ← beyond (Tag.execute host template only dryRun versions) with
    | .error failure => return failed "" failure
    | .ok reports =>
      return { stdout := Report.tags reports, stderr := "", code := Report.tagsCode reports }

/-- Carries out what was asked for. -/
def execute (s : Surroundings τ) (args : Arguments) : StateM (FileSystem × τ) Output := do
  let (fs, _) ← get
  match Configuration.load args.config (workingDirectory fs) fs with
  | .error failure => return failed "" failure
  | .ok config =>
    match args.command with
    | .scan _ => scan s config (snapshotFile args config)
    | .test dryRun selector => test s config (snapshotFile args config) dryRun selector
    | .tag asked only dryRun => tag s config asked only dryRun

/-- The files that a run reads or writes under a configuration. -/
def filesUsed (args : Arguments) (config : Configuration) : List String :=
  match args.command with
  | .scan _ | .test _ _ => [snapshotFile args config]
  | .tag asked _ _ => [versionsFile asked config]

/-- The name and version of the program. -/
def versionText : String := "rc-tracker 0.4.0"

/-- What is printed instead of carrying out a command. The texts of the help and of a wrong command
line are left to whoever starts the program. -/
def refused (refusal : Refusal) : Output where
  stdout := if refusal = .versionShown then versionText ++ "\n" else ""
  stderr := ""
  code := if refusal.isWanted then .success else .invalidArguments

/-- A run of the program with the given arguments. -/
def run (s : Surroundings τ) (args : List String) : StateM (FileSystem × τ) Output :=
  match CommandLine.read args s.environmentFile with
  | .error refusal => return refused refusal
  | .ok args => execute s args

end Program

end ReleaseCandidates
