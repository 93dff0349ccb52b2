import ReleaseCandidates.Program.ExitCode
import ReleaseCandidates.Scan
import ReleaseCandidates.Tag.Reconcile
import ReleaseCandidates.TestRun

set_option autoImplicit false

/-! # What the program prints

Results go to the standard output, one line for each component, variable or repository. What is
told on the way, and what went wrong, goes to the standard error. -/

namespace ReleaseCandidates

/-- What a run of the program printed, and how it ended. -/
structure Output where
  stdout : String
  stderr : String
  code : ExitCode
  deriving DecidableEq, Repr

namespace Report

/-! ## Emphasis -/

/-- The text in red. -/
def red (s : String) : String := "\x1b[31m" ++ s ++ "\x1b[39m"

/-- The text in green. -/
def green (s : String) : String := "\x1b[32m" ++ s ++ "\x1b[39m"

/-- The text in yellow. -/
def yellow (s : String) : String := "\x1b[33m" ++ s ++ "\x1b[39m"

/-- The text in bold. -/
def bold (s : String) : String := "\x1b[1m" ++ s ++ "\x1b[0m"

/-- The lines, each with its end. -/
def lines (ls : List String) : String :=
  String.join (ls.map (· ++ "\n"))

/-- The width of the column of names. -/
def nameWidth : Nat := 45

/-- The width of the column of mechanisms. -/
def mechanismWidth : Nat := 8

/-! ## Failures -/

/-- What is printed when a failure ends the program. -/
def failure (f : Failure) : String :=
  match f.chain with
  | [] => lines ["", bold (red "❌ An error occurred:"), "", "", ""]
  | message :: causes =>
    lines (["", bold (red "❌ An error occurred:"), "", message] ++
      causes.flatMap (fun c => ["", "Caused by: " ++ c]) ++ [""])

/-! ## Scans -/

/-- What is printed while a scan runs, where there is no terminal to draw on. -/
def progress (events : List ProgressEvent) : String :=
  lines (events.filterMap fun
    | .problem message => some message
    | .done message => some message
    | .start _ _ | .advance _ => none)

/-- The line of a component. -/
def component (c : Component) : String :=
  Text.padRight nameWidth c.name ++ " " ++ Text.padRight mechanismWidth c.mechanism.word ++ " " ++
    c.ref

/-- The line of a target that was not resolved. -/
def unresolved (label : String) : String :=
  Text.padRight nameWidth label ++ " " ++ yellow "unresolved"

/-- The line that says what became of the log. -/
def recorded (path : String) : OfferOutcome → String
  | .inserted id => "📸 Recorded pending snapshot " ++ bold id ++ " in " ++ path
  | .unchanged => "No change since the newest snapshot; nothing recorded"

/-- What a scan prints. -/
def scan (path : String) (result : Findings) (outcome : OfferOutcome) : String :=
  lines (result.components.map component ++ result.unresolved.map unresolved ++
    ["", recorded path outcome])

/-! ## Test runs -/

/-- What a test run prints. -/
def testRun : TestRunResult → String
  | .nothingPending => lines ["No pending snapshot; nothing to test"]
  | .dryRun id command vars =>
    lines (["Snapshot: " ++ id] ++ vars.map (fun (name, value) => name ++ "=" ++ value) ++
      ["Command:  " ++ command])
  | .completed snapshot =>
    lines [(if snapshot.status = .successful then green "✅ successful:" else red "❌ failed:") ++
      " snapshot " ++ snapshot.id]

/-- How the program ends after a test run. -/
def testRunCode : TestRunResult → ExitCode
  | .completed snapshot => if snapshot.status = .successful then .success else .testsFailed
  | _ => .success

/-! ## Tags -/

/-- The line of a repository, with what became of its tag. -/
def tagLine (repository what : String) : String :=
  "  " ++ Text.padRight nameWidth repository ++ " " ++ what

/-- The lines of a version. -/
def tagReport (r : TagReport) : List String :=
  [bold r.version] ++ r.ensured.map (tagLine · "exists") ++
    r.created.map (tagLine · (green "created")) ++
    r.wouldCreate.map (tagLine · (yellow "would create")) ++
    r.failed.map fun (repository, reason) => tagLine repository (red "failed:" ++ " " ++ reason)

/-- What the reconciliation of versions prints. -/
def tags (reports : List TagReport) : String :=
  lines (reports.flatMap tagReport)

/-- How the program ends after the reconciliation of versions. -/
def tagsCode (reports : List TagReport) : ExitCode :=
  if reports.all TagReport.isSuccess then .success else .applicationError

end Report

end ReleaseCandidates
