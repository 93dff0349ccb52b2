import ReleaseCandidates.TrackedRepository

set_option autoImplicit false

/-! # The configuration

Every setting is optional; what is not set has a default. A configuration is checked as a whole
when it is read, so that a mistake in it stops the program before anything is asked or written. -/

namespace ReleaseCandidates

/-- A tracked repository as it is configured: by its releases, by its images, or by its releases
with images to fall back to. -/
structure ConfiguredRepository where
  repository : String
  /-- How the tags of the releases start. -/
  release : Option String
  /-- The images built from commits. -/
  commit : Option (List String)
  deriving DecidableEq, Repr

/-- The external test command, where it differs from the default. -/
structure TestCommand where
  program : Option String
  playbook : Option String
  inventory : Option String
  deriving DecidableEq, Repr

/-- The settings of the program. -/
structure Configuration where
  /-- The tracked repositories, in place of the built-in ones. -/
  repositories : Option (List ConfiguredRepository)
  maxCommits : Option Nat
  maxReleases : Option Nat
  concurrency : Option Nat
  forgeUrl : Option String
  snapshotFile : Option String
  versionsFile : Option String
  testAction : Option TestCommand
  tagMessage : Option String
  /-- The names of settings that are not known. -/
  unknown : List String
  deriving DecidableEq, Repr

namespace ConfiguredRepository

/-- The way of tracking that an entry asks for. -/
def strategy (entry : ConfiguredRepository) : Except Failure Strategy :=
  match entry.release, entry.commit with
  | some tagStart, none => .ok (.release tagStart [])
  | none, some images => .ok (.commit images)
  | some tagStart, some images =>
    if images.isEmpty then .error (.config (.noFallbackImages entry.repository))
    else .ok (.release tagStart images)
  | none, none => .error (.config (.noStrategy entry.repository))

/-- The tracked repository that an entry stands for. -/
def toTracked (entry : ConfiguredRepository) : Except Failure TrackedRepository :=
  match entry.strategy with
  | .error failure => .error failure
  | .ok strategy => TrackedRepository.make entry.repository strategy

/-- The tracked repositories for entries from a position on; a failure says which entry it is. -/
def toTrackedList (index : Nat) : List ConfiguredRepository → Except Failure (List TrackedRepository)
  | [] => .ok []
  | entry :: rest =>
    match entry.toTracked with
    | .error failure => .error (.within (.configEntry index) failure)
    | .ok config =>
      match toTrackedList (index + 1) rest with
      | .error failure => .error failure
      | .ok configs => .ok (config :: configs)

end ConfiguredRepository

namespace Configuration

/-- The configuration that sets nothing. -/
def empty : Configuration :=
  ⟨none, none, none, none, none, none, none, none, none, []⟩

/-- The greatest number of entries of a listing that may be asked for: one page. -/
def listingLimit : Nat := 100

/-- The repositories to scan: those configured, or the built-in ones. -/
def tracked (config : Configuration) : Except Failure (List TrackedRepository) :=
  match config.repositories with
  | some entries => ConfiguredRepository.toTrackedList 0 entries
  | none => .ok TrackedRepository.defaults

/-- Whether a text starts like the address of a web service. -/
def isWebAddress (url : String) : Bool :=
  "https://".toList.isPrefixOf url.toList || "http://".toList.isPrefixOf url.toList

/-- What is wrong with a number that must not be zero. -/
def zeroProblem (key : String) (value : Option Nat) : Option ConfigProblem :=
  if value = some 0 then some (.zero key) else none

/-- What is wrong with the length of a listing. -/
def limitProblem (key : String) (value : Option Nat) : Option ConfigProblem :=
  match value with
  | some n => if n > listingLimit then some (.aboveLimit key listingLimit n) else none
  | none => none

/-- What is wrong with the message for tags. -/
def messageProblem (message : Option String) : Option ConfigProblem :=
  match message with
  | some m =>
    if Text.containsRun "\x7bversion\x7d".toList m.toList then none
    else some .messageWithoutVersion
  | none => none

/-- What is wrong with the address of the forge. -/
def addressProblem (url : Option String) : Option ConfigProblem :=
  match url with
  | some u => if isWebAddress u then none else some (.notWebAddress u)
  | none => none

/-- The first thing that is wrong with the single settings. -/
def problem (config : Configuration) : Option ConfigProblem :=
  [zeroProblem "concurrency" config.concurrency,
    zeroProblem "max_commits" config.maxCommits,
    zeroProblem "max_releases" config.maxReleases,
    limitProblem "max_commits" config.maxCommits,
    limitProblem "max_releases" config.maxReleases,
    messageProblem config.tagMessage,
    addressProblem config.forgeUrl].findSome? id

/-- Refuses a configuration that breaks a rule. -/
def check (config : Configuration) : Except Failure Unit :=
  match config.problem with
  | some problem => .error (.config problem)
  | none => config.tracked.map fun _ => ()

end Configuration

end ReleaseCandidates
