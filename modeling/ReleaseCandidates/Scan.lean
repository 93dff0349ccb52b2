import ReleaseCandidates.Resolution
import ReleaseCandidates.SnapshotLog.Stored

set_option autoImplicit false

/-! # Scans

A scan resolves every target of every tracked repository, each as a task of its own. The tasks may
finish in any order; the result is put together from what finished and is then sorted by repository
and name, components that agree in both staying as they came. A task that fails or is aborted costs
the scan its own components and nothing else. -/

namespace ReleaseCandidates

/-- A task that came to its end. -/
structure FinishedTask where
  /-- The number of the task among those of the scan. -/
  number : Nat
  target : ScanTarget
  reply : Reply (List Component)
  deriving DecidableEq, Repr

/-- What a scan found, and the names of what it did not. -/
structure Findings where
  components : List Component
  unresolved : List String
  deriving DecidableEq, Repr

/-- What is told to a person who watches a scan. -/
inductive ProgressEvent where
  | start (total : Nat) (message : String)
  | advance (label : String)
  | problem (message : String)
  | done (message : String)
  deriving DecidableEq, Repr

/-- The escaped form of a character inside double quotes; a control character without a sign of its
own is given by its number. -/
def escapeQuoted (c : Char) : List Char :=
  if c = '"' then ['\\', '"']
  else if c = '\\' then ['\\', '\\']
  else if c = '\n' then ['\\', 'n']
  else if c = '\r' then ['\\', 'r']
  else if c = '\t' then ['\\', 't']
  else if c = '\x00' then ['\\', '0']
  else if c.toNat < 0x20 ∨ (0x7F ≤ c.toNat ∧ c.toNat < 0xA0) then
    ['\\', 'u', '\x7b'] ++ Nat.toDigits 16 c.toNat ++ ['\x7d']
  else [c]

/-- The text in double quotes. -/
def quoted (s : String) : String :=
  "\"" ++ String.ofList (s.toList.flatMap escapeQuoted) ++ "\""

namespace FinishedTask

/-- The components that a task found. -/
def components (t : FinishedTask) : List Component :=
  match t.reply with
  | .ok components => components
  | _ => []

/-- The name under which a task that found nothing is missed. -/
def missing? (t : FinishedTask) : Option String :=
  match t.reply with
  | .ok [] => some t.target.label
  | .ok (_ :: _) => none
  | .failed _ => some t.target.label
  | .aborted message =>
    some ("task: task " ++ toString t.number ++ " panicked with message " ++ quoted message)

/-- What is told when a task ends. -/
def events (t : FinishedTask) : List ProgressEvent :=
  match t.reply with
  | .ok _ => [.advance t.target.label]
  | .failed failure =>
    [.problem ("⚠️  " ++ t.target.label ++ ": " ++ failure.text), .advance t.target.label]
  | .aborted _ => [.advance "(aborted task)"]

end FinishedTask

namespace Findings

/-- The result of tasks that finished in some order: the components by repository and name, the
names of what is missing in the order of texts. -/
def ofTasks (finished : List FinishedTask) : Findings where
  components := (finished.flatMap FinishedTask.components).mergeSort Component.placedBefore
  unresolved := (finished.filterMap FinishedTask.missing?).mergeSort fun a b => decide (a ≤ b)

end Findings

namespace Scan

variable {σ : Type}

/-- The targets of a list of tracked repositories. -/
def targets (repositories : List TrackedRepository) : List ScanTarget :=
  repositories.flatMap TrackedRepository.targets

/-- Works on the targets one after the other; the first task gets the given number. -/
def runTasks (c : Catalogue σ) (limits : ListingLimits) :
    Nat → List ScanTarget → StateM σ (List FinishedTask)
  | _, [] => return []
  | number, target :: rest => do
    let reply ← Resolution.resolve c limits target
    let finished ← runTasks c limits (number + 1) rest
    return ⟨number, target, reply⟩ :: finished

/-- Everything that is told during a scan. -/
def events (finished : List FinishedTask) : List ProgressEvent :=
  let result := Findings.ofTasks finished
  .start finished.length "Resolving component versions" ::
    (finished.flatMap FinishedTask.events ++
      [.done ("✅ Resolved " ++ toString result.components.length ++ " component(s), " ++
        toString result.unresolved.length ++ " missing")])

/-- Resolves the targets of all tracked repositories. -/
def run (c : Catalogue σ) (limits : ListingLimits) (repositories : List TrackedRepository) :
    StateM σ (List FinishedTask) :=
  runTasks c limits 1 (targets repositories)

/-- Offers a result to the stored log. A result without components is none. -/
def record (path : String) (result : Findings) (time : Instant) (fs : FileSystem) :
    Except Failure (OfferOutcome × FileSystem) :=
  if result.components.isEmpty then
    .error (.nothingResolved result.unresolved.length path)
  else StoredLog.offer path result.components time fs

end Scan

end ReleaseCandidates
