import ReleaseCandidates.FileSystem.Problem
import ReleaseCandidates.Http.Fault
import ReleaseCandidates.ImageReference
import ReleaseCandidates.RepositoryId
import ReleaseCandidates.Snapshot.Status
import ReleaseCandidates.Yaml.Fault

set_option autoImplicit false

/-! # Failures

Everything that can stop an operation of the program, as its cause. The wording stands in one
place, `Failure.chain`: the texts of a failure from the outermost context to the innermost cause. -/

namespace ReleaseCandidates

/-! ## Files with a layout of their own -/

/-- Why one entry of a snapshot log was not accepted. -/
inductive EntryProblem where
  /-- The status is none of the known ones; carries its normal form. -/
  | unknownStatus (normal : String)
  | noComponents
  | unknownMechanism (word : String)
  deriving DecidableEq, Repr

/-- The words for a problem with an entry. -/
def EntryProblem.message : EntryProblem → String
  | .unknownStatus normal => Status.unknownMessage normal
  | .noComponents => "has neither 'components' nor 'versions'"
  | .unknownMechanism word => "unknown versioning_selection_mechanism '" ++ word ++ "'"

/-- Why a text is no snapshot log. -/
inductive LogProblem where
  | yaml (fault : Yaml.Fault)
  | noList
  /-- The entry at a position, counted from the newest, is not in order. -/
  | entry (index : Nat) (problem : EntryProblem)
  deriving DecidableEq, Repr

/-- The details for a text that is no snapshot log. -/
def LogProblem.details : LogProblem → String
  | .yaml fault => fault.message
  | .noList => "missing top-level 'snapshots' list"
  | .entry index problem => "snapshot #" ++ toString index ++ ": " ++ problem.message

/-- Why a file is no versions file. -/
inductive VersionsProblem where
  | file (problem : ReadProblem)
  | yaml (fault : Yaml.Fault)
  | noList
  | noComponents (version : String)
  deriving DecidableEq, Repr

/-- The details for a file that is no versions file. -/
def VersionsProblem.details : VersionsProblem → String
  | .file problem => problem.message
  | .yaml fault => fault.message
  | .noList => "missing top-level 'versions' list"
  | .noComponents version =>
    "version '" ++ version ++ "' has neither 'components' nor 'repositories'"

/-! ## Values that break a rule -/

/-- Why a value was refused. -/
inductive ValidationProblem where
  | noImages (repository : String)
  | blankImage (repository image : String)
  | unknownVersion (name : String)
  deriving DecidableEq, Repr

/-- The words for a refused value. -/
def ValidationProblem.message : ValidationProblem → String
  | .noImages repository =>
    "repository '" ++ repository ++ "' uses the commit strategy but lists no images"
  | .blankImage repository image =>
    "repository '" ++ repository ++ "' lists an empty image name ('" ++ image ++ "')"
  | .unknownVersion name => "Version '" ++ name ++ "' is not listed in the versions file"

/-- Why a configuration was refused. -/
inductive ConfigProblem where
  | zero (key : String)
  | aboveLimit (key : String) (limit value : Nat)
  | messageWithoutVersion
  | notWebAddress (url : String)
  | noFallbackImages (repository : String)
  | noStrategy (repository : String)
  deriving DecidableEq, Repr

/-- The words for a refused configuration. -/
def ConfigProblem.message : ConfigProblem → String
  | .zero key =>
    "Invalid config: " ++ key ++ " must be greater than 0.\n\n" ++
      "💡 Hint: Remove the key to use the default."
  | .aboveLimit key limit value =>
    "Invalid config: " ++ key ++ " must be at most " ++ toString limit ++ ", got " ++
      toString value ++ ".\n\n💡 Hint: Listings are fetched as a single page of the GitHub API."
  | .messageWithoutVersion =>
    "Invalid config: tag_message must contain '\x7bversion\x7d'.\n\n" ++
      "💡 Hint: For example \"Version \x7bversion\x7d - Tagged by rc-tracker\"."
  | .notWebAddress url =>
    "Invalid config: github_api_url must be an http(s) URL, got '" ++ url ++ "'"
  | .noFallbackImages repository =>
    "repository '" ++ repository ++ "' has a 'commit' fallback that lists no images"
  | .noStrategy repository =>
    "repository '" ++ repository ++ "' sets neither 'release' nor 'commit'"

/-! ## Failures -/

/-- What a snapshot was to become. -/
inductive TransitionTarget where
  | status (status : Status)
  /-- A test run was asked for. -/
  | tested
  deriving DecidableEq, Repr

/-- The word for a target. -/
def TransitionTarget.word : TransitionTarget → String
  | .status s => s.word
  | .tested => "tested"

/-- What was being done when a failure came up. -/
inductive FailureContext where
  | forgeRequest (what : String)
  | configRead (path : String)
  | configParse (path : String)
  | configEntry (index : Nat)
  | actionStart (command : String)
  deriving DecidableEq, Repr

/-- The words for a context. -/
def FailureContext.message : FailureContext → String
  | .forgeRequest what => "GitHub request failed: " ++ what
  | .configRead path =>
    "Failed to read config file: " ++ path ++
      "\n\n💡 Hint: Check that the file exists and is readable."
  | .configParse path =>
    "Failed to parse config file: " ++ path ++
      "\n\n💡 Hint: Ensure the file contains valid YAML syntax."
  | .configEntry index =>
    "Invalid config: repositories[" ++ toString index ++ "]\n\n" ++
      "💡 Hint: Each entry needs 'repository: org/name' plus " ++
      "'release: \x7bprefix: v\x7d', 'commit: \x7bimages: [...]\x7d', or both."
  | .actionStart command => "Failed to start test action: " ++ command

/-- The cause that stopped an operation, with what was being done around it. -/
inductive Failure where
  | logMissing (path : String)
  | logUnreadable (path : String) (problem : LogProblem)
  | versionsUnreadable (path : String) (problem : VersionsProblem)
  | snapshotUnknown (id : String)
  | transitionRefused (id : String) (origin : Status) (target : TransitionTarget)
  | identifier (value : String) (problem : RepositoryId.Problem)
  | notRead (problem : ReadProblem)
  | linkRefused (problem : LinkProblem)
  | notWritten (path : String) (problem : WriteProblem)
  | invalid (problem : ValidationProblem)
  | config (problem : ConfigProblem)
  | image (problem : ImageReference.Problem)
  | nothingResolved (targets : Nat) (path : String)
  /-- The forge answered with a status other than success; `status` is its number and reason. -/
  | forgeStatus (status what body : String)
  | http (fault : Http.Fault)
  | yaml (fault : Yaml.Fault)
  | os (error : OsError)
  /-- A collaborator's own words. -/
  | reported (text : String)
  | within (context : FailureContext) (cause : Failure)
  deriving DecidableEq, Repr

namespace Failure

/-- The text of a failure that stands in no context and came from no exchange. -/
def text : Failure → String
  | .logMissing path =>
    "Snapshot log not found: " ++ path ++ "\n\n💡 Hint: Run \x60rc-tracker scan\x60 first, " ++
      "or point --file at an existing release-candidates file"
  | .logUnreadable path problem =>
    "Failed to parse snapshot log: " ++ path ++ "\nDetails: " ++ problem.details ++
      "\n\n💡 Hint: The file must contain a top-level 'snapshots' list"
  | .versionsUnreadable path problem =>
    "Invalid versions file: " ++ path ++ "\nDetails: " ++ problem.details ++
      "\n\n💡 Hint: The file must contain a top-level 'versions' list"
  | .snapshotUnknown id => "Snapshot not found: " ++ id
  | .transitionRefused id origin target =>
    "Invalid status transition for snapshot " ++ id ++ ": " ++ origin.word ++ " -> " ++
      target.word ++ "\n\n💡 Hint: Only pending snapshots can be marked successful or failed, " ++
      "and only once"
  | .identifier value problem =>
    "Invalid repository identifier: '" ++ value ++ "'\nReason: " ++ problem.reason
  | .notRead problem => problem.message
  | .linkRefused problem => problem.message
  | .notWritten path problem =>
    "Failed to write to file: " ++ path ++ "\nDetails: " ++ problem.details ++
      "\n\n💡 Hint: Please verify that the directory exists and you have write permissions"
  | .invalid problem => "Validation error: " ++ problem.message
  | .config problem => problem.message
  | .image problem => problem.message
  | .nothingResolved targets path =>
    "No components could be resolved (" ++ toString targets ++ " target(s) failed); " ++ path ++
      " was not modified"
  | .forgeStatus status what body =>
    "GitHub API returned status code " ++ status ++ " for " ++ what ++ ": " ++ body
  | .http fault => fault.chain.headD ""
  | .yaml fault => fault.message
  | .os error => error.message
  | .reported words => words
  | .within context _ => context.message

/-- The program's own texts for a failure, outermost first; what an exchange has to say is left
out. -/
def ownChain : Failure → List String
  | .within context cause => context.message :: cause.ownChain
  | .http _ => []
  | failure => [failure.text]

/-- All texts of a failure, outermost first. -/
def chain : Failure → List String
  | .within context cause => context.message :: cause.chain
  | .http fault => fault.chain
  | failure => [failure.text]

/-- The innermost cause. -/
def root : Failure → Failure
  | .within _ cause => cause.root
  | failure => failure

/-- All texts of a failure on one line. -/
def summary (failure : Failure) : String :=
  String.intercalate ": " failure.chain

end Failure

end ReleaseCandidates
