import ReleaseCandidates.FileSystem.Arrange
import ReleaseCandidates.Program

set_option autoImplicit false

/-! # The program on a machine

The files that a run has to do with are looked at before it, the run itself is `Program.run` on
what was seen, and the files that came out different are put in their places after it. From here no
server is reached and no program is started: a scan records nothing new, tags are not made, and the
tests of a snapshot do not start. -/

namespace ReleaseCandidates.Machine

/-! ## Files -/

/-- What stands at a path, if it can be seen. A link is kept with the place it leads to. -/
def look (path : String) : IO (Option FileEntry) := do
  let place := (← IO.currentDir) / path
  try
    match (← place.symlinkMetadata).type with
    | .dir => return some .directory
    | .symlink => return some (.link (toString (← IO.FS.realPath place)))
    | .file => return some (.file (.ofBytes (← IO.FS.readBinFile place)))
    | .other => return none
  catch _ => return none

/-- Takes what stands at a path and above it into a file system, and where links lead. -/
def take (fs : FileSystem) (path : String) : IO FileSystem := do
  let mut fs := fs
  for start in FileSystem.starts path do
    match fs.walk false start, ← look start with
    | .ok l, some (.link target) =>
      fs := fs.put l (.link target)
      for step in FileSystem.starts target do
        match fs.walk false step, ← look step with
        | .ok l, some entry => fs := fs.put l entry
        | _, _ => pure ()
    | .ok l, some entry => fs := fs.put l entry
    | _, _ => pure ()
  return fs

/-- The part of the machine's files that some paths have to do with. -/
def observe (paths : List String) : IO FileSystem := do
  let here := toString (← IO.currentDir)
  let mut fs : FileSystem := {
    entries := [], workingDirectory := (FileSystem.names here).filter (· ≠ "") }
  for path in here :: paths.map (FileSystem.child here) do
    fs ← take fs path
  return fs

/-- Puts the texts of changed files in their places, each in one step. -/
def store (before after : FileSystem) : IO Unit := do
  for (l, entry) in after.entries do
    match entry with
    | .file (.text s) =>
      if before.entryAt l != some entry then
        let path := "/" ++ String.intercalate "/" l
        IO.FS.writeFile (path ++ ".new") s
        IO.FS.rename (path ++ ".new") path
    | _ => pure ()

/-! ## Runs -/

/-- The time, as a new file shows it. -/
def now : IO Instant :=
  IO.FS.withTempFile fun _ path => do
    let time := (← path.metadata).modified
    return (Instant.ofMinute (time.sec / 60) (time.sec % 60).toNat time.nsec.toNat).getD
      Instant.epoch

/-- The files of a run, as the command line and the configuration name them. -/
def filesFor (args : List String) (environmentFile : Option String) : IO FileSystem := do
  match CommandLine.read args environmentFile with
  | .error _ => observe []
  | .ok args =>
    let first := [args.config.getD Configuration.fileName]
    let fs ← observe first
    match Configuration.load args.config (Program.workingDirectory fs) fs with
    | .error _ => return fs
    | .ok config => observe (first ++ Program.filesUsed args config)

/-- What is said about a command line that asks for nothing that can be done. -/
def usage : String :=
  "Usage: rc-tracker [--config PATH] [--file PATH] [--verbose] [--log-json] COMMAND\n\n" ++
    "  scan  [--concurrency N]\n" ++
    "  test  [--dry-run] [--snapshot-id ID | --snapshot-index N]\n" ++
    "  tag   [--versions-file PATH] [--version NAME] [--dry-run]\n"

/-- Runs the program on the machine. -/
def run (args : List String) : IO ExitCode := do
  let environmentFile ← IO.getEnv "RELEASE_CANDIDATES_FILE"
  let time ← now
  let surroundings : Surroundings Unit := {
    environmentFile := environmentFile
    environmentToken := ← IO.getEnv "GITHUB_TOKEN"
    forge := Http.Transport.offline
    registry := Http.Transport.offline
    launch := fun _ _ _ => return .error .permissionDenied
    clock := fun _ => time }
  let before ← filesFor args environmentFile
  let (output, after, _) := Program.run surroundings args (before, ())
  store before after
  IO.print output.stdout
  IO.eprint output.stderr
  match CommandLine.read args environmentFile with
  | .error .helpShown => IO.print usage
  | .error .versionShown => pure ()
  | .error _ => IO.eprint usage
  | .ok _ => pure ()
  return output.code

end ReleaseCandidates.Machine

/-- Runs the program and ends with its exit code. -/
def main (args : List String) : IO UInt32 := do
  return (← ReleaseCandidates.Machine.run args).number.toUInt32
