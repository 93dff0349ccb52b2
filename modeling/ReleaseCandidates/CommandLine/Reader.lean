import ReleaseCandidates.CommandLine
import ReleaseCandidates.Text.Pieces

set_option autoImplicit false

/-! # Reading the command line

Arguments are read from left to right, first at the level of the program and, after the name of a
command, at the level of that command. An option's value stands in the same argument or in the next
one; an option that waits for its value is settled when the next option comes or the level ends.
What stands on the level of the command is settled before what stands before it. -/

namespace ReleaseCandidates

namespace CommandLine

/-- The names of commands. -/
inductive CommandName where
  | scan
  | test
  | tag
  deriving DecidableEq, Repr

/-- The command that a word names. -/
def CommandName.ofWord? : String → Option CommandName
  | "scan" => some .scan
  | "test" => some .test
  | "tag" => some .tag
  | _ => none

/-- Where arguments are read: before the command, or after its name. -/
abbrev Level := Option CommandName

/-- The options of all levels. -/
inductive OptionKey where
  | config
  | file
  | verbose
  | logJson
  | help
  | version
  | concurrency
  | dryRun
  | snapshotId
  | snapshotIndex
  | versionsFile
  | versionName
  deriving DecidableEq, Repr

namespace OptionKey

/-- Whether a value follows. -/
def takesValue : OptionKey → Bool
  | .verbose | .logJson | .help | .version | .dryRun => false
  | _ => true

/-- The option with a long name at a level. -/
def ofLong? (level : Level) (name : String) : Option OptionKey :=
  match level, name with
  | _, "config" => some .config
  | _, "file" => some .file
  | _, "verbose" => some .verbose
  | _, "log-json" => some .logJson
  | _, "help" => some .help
  | none, "version" => some .version
  | some .scan, "concurrency" => some .concurrency
  | some .test, "dry-run" => some .dryRun
  | some .test, "snapshot-id" => some .snapshotId
  | some .test, "snapshot-index" => some .snapshotIndex
  | some .tag, "versions-file" => some .versionsFile
  | some .tag, "version" => some .versionName
  | some .tag, "dry-run" => some .dryRun
  | _, _ => none

/-- The option with a short name at a level. -/
def ofShort? (level : Level) (name : Char) : Option OptionKey :=
  match level, name with
  | _, 'c' => some .config
  | _, 'f' => some .file
  | _, 'v' => some .verbose
  | _, 'h' => some .help
  | none, 'V' => some .version
  | _, _ => none

end OptionKey

/-! ## Values -/

/-- The number that digits stand for, after a plus sign or without one. -/
def number? (s : String) : Option Nat :=
  let digits :=
    match s.toList with
    | '+' :: rest => rest
    | cs => cs
  if !digits.isEmpty && digits.all Char.isDigit then
    some (digits.foldl (fun n c => 10 * n + (c.toNat - 48)) 0)
  else none

/-- The number of tasks that a value asks for: from 1 to 65535. -/
def concurrency? (s : String) : Option Nat :=
  (number? s).filter fun n => 1 ≤ n && n < 65536

/-- The position that a value asks for: below 2^64. -/
def index? (s : String) : Option Nat :=
  (number? s).filter (· < 18446744073709551616)

/-- Why a value does not do for an option, if it does not: a path may not be empty, and a number
has to be one. -/
def valueProblem (key : OptionKey) (value : String) : Option Refusal :=
  match key with
  | .config | .file | .versionsFile => if value.isEmpty then some .valueMissing else none
  | .concurrency => if (concurrency? value).isNone then some .valueUnfit else none
  | .snapshotIndex => if (index? value).isNone then some .valueUnfit else none
  | _ => none

/-! ## What was given at a level -/

/-- An option that has not been settled yet, with its value if that has come. -/
structure Pending where
  key : OptionKey
  value : Option String

/-- The options given at a level so far. A flag has the empty value. -/
structure Given where
  settled : List (OptionKey × String)
  pending : Option Pending

namespace Given

/-- Nothing given. -/
def nothing : Given := ⟨[], none⟩

/-- The value of an option. -/
def value? (g : Given) (key : OptionKey) : Option String :=
  g.settled.lookup key

/-- Whether an option was given. -/
def has (g : Given) (key : OptionKey) : Bool :=
  (g.value? key).isSome

/-- Whether the next argument is to be the value of an option. -/
def isWaiting (g : Given) : Bool :=
  match g.pending with
  | some p => p.value.isNone
  | none => false

/-- Takes an option with its value, once and if the value will do. -/
def take (g : Given) (key : OptionKey) (value : String) : Except Refusal Given :=
  if g.has key then .error .conflict
  else
    match valueProblem key value with
    | some refusal => .error refusal
    | none => .ok { g with settled := g.settled ++ [(key, value)] }

/-- Settles the option that is pending; one without a value is refused. -/
def settle (g : Given) : Except Refusal Given :=
  match g.pending with
  | none => .ok g
  | some ⟨key, some value⟩ => take { g with pending := none } key value
  | some ⟨_, none⟩ => .error .valueMissing

/-- Meets an option without a value of its own in the same argument. -/
def meet (g : Given) (key : OptionKey) : Except Refusal Given :=
  match g.settle with
  | .error refusal => .error refusal
  | .ok g =>
    match key with
    | .help => .error .helpShown
    | .version => .error .versionShown
    | key => if key.takesValue then .ok { g with pending := some ⟨key, none⟩ } else g.take key ""

/-- Meets an option with its value in the same argument. -/
def meetWith (g : Given) (key : OptionKey) (value : String) : Except Refusal Given :=
  match g.settle with
  | .error refusal => .error refusal
  | .ok g => g.take key value

/-- Gives the option that waits its value. -/
def supply (g : Given) (value : String) : Given :=
  { g with pending := g.pending.map fun p => { p with value := some value } }

end Given

/-! ## Single arguments -/

/-- Reads an argument after its two dashes: a name, with a value after an equals sign or without
one. -/
def readLong (level : Level) (g : Given) (cs : List Char) : Except Refusal Given :=
  let name := String.ofList (Text.beforeFirst '=' cs)
  let value := (Text.cutFirst '=' cs).map fun (_, v) => String.ofList v
  match OptionKey.ofLong? level name, value with
  | none, _ => .error .argumentUnknown
  | some key, none => g.meet key
  | some key, some v => if key.takesValue then g.meetWith key v else .error .valueUnwanted

/-- Reads an argument after its single dash: flags, and at the end an option whose value is the
rest, without an equals sign in front of it. -/
def readShort (level : Level) : Given → List Char → Except Refusal Given
  | g, [] => .ok g
  | g, c :: rest =>
    match OptionKey.ofShort? level c with
    | none => .error .argumentUnknown
    | some key =>
      if key.takesValue then
        match rest with
        | [] => g.meet key
        | '=' :: value => g.meetWith key (String.ofList value)
        | value => g.meetWith key (String.ofList value)
      else
        match g.meet key with
        | .error refusal => .error refusal
        | .ok g => readShort level g rest

/-- Why an argument that is no option cannot stand at a level; `bare` says that it follows two
dashes alone. -/
def strayRefusal (level : Level) (bare : Bool) (arg : String) : Refusal :=
  match level with
  | some _ => .argumentUnknown
  | none =>
    if bare && ((CommandName.ofWord? arg).isSome || arg == "help") then .argumentUnknown
    else .commandUnknown

/-- What help is asked about: commands may be named, but they have no commands of their own. -/
def helpRefusal : List String → Refusal
  | [] => .helpShown
  | [topic] =>
    if (CommandName.ofWord? topic).isSome || topic == "help" then .helpShown else .commandUnknown
  | _ => .commandUnknown

/-! ## Levels -/

/-- The arguments of a level, and the command after it with its arguments. -/
abbrev Reading := Given × Option (CommandName × List String)

/-- Reads arguments up to the end or, before a command, up to its name. -/
def readLevel (level : Level) : Given → List String → Except Refusal Reading
  | g, [] => .ok (g, none)
  | g, arg :: rest =>
    if !g.isWaiting && level.isNone && arg == "help" then .error (helpRefusal rest)
    else
      match if g.isWaiting || level.isSome then none else CommandName.ofWord? arg with
      | some name => .ok (g, some (name, rest))
      | none =>
        match arg.toList with
        | ['-', '-'] =>
          match rest with
          | [] => .ok (g, none)
          | stray :: _ => .error (strayRefusal level true stray)
        | '-' :: '-' :: cs =>
          match readLong level g cs with
          | .error refusal => .error refusal
          | .ok g => readLevel level g rest
        | '-' :: c :: cs =>
          match readShort level g (c :: cs) with
          | .error refusal => .error refusal
          | .ok g => readLevel level g rest
        | _ =>
          if g.isWaiting then readLevel level (g.supply arg) rest
          else .error (strayRefusal level false arg)

/-- Settles what is pending and takes a value from the environment for the file, if none was
given. The result also says whether it was taken. -/
def finish (g : Given) (environmentFile : Option String) : Except Refusal (Given × Bool) :=
  match g.settle with
  | .error refusal => .error refusal
  | .ok g =>
    match environmentFile with
    | some value =>
      if g.has .file then .ok (g, false)
      else
        match g.take .file value with
        | .error refusal => .error refusal
        | .ok g => .ok (g, true)
    | none => .ok (g, false)

/-- The command that options stand for. -/
def commandOf (name : CommandName) (g : Given) : Command :=
  match name with
  | .scan => .scan ((g.value? .concurrency).bind concurrency?)
  | .test =>
    .test (g.has .dryRun)
      (match g.value? .snapshotId, (g.value? .snapshotIndex).bind index? with
        | some id, _ => .id id
        | none, some index => .index index
        | none, none => .pending)
  | .tag => .tag (g.value? .versionsFile) (g.value? .versionName) (g.has .dryRun)

/-- Reads the arguments of a command. -/
def readCommand (name : CommandName) (args : List String) (environmentFile : Option String) :
    Except Refusal (Given × Bool) :=
  match readLevel (some name) .nothing args with
  | .error refusal => .error refusal
  | .ok (g, _) =>
    match finish g environmentFile with
    | .error refusal => .error refusal
    | .ok (g, taken) =>
      if g.has .snapshotId && g.has .snapshotIndex then .error .conflict else .ok (g, taken)

/-- The settings of two levels put together: what was written counts over what the environment
says, and then what stands nearer to the end. -/
def combine (name : CommandName) (outer inner : Given) (innerTaken : Bool) : Arguments where
  config := (inner.value? .config).orElse fun _ => outer.value? .config
  file :=
    if innerTaken then (outer.value? .file).orElse fun _ => inner.value? .file
    else (inner.value? .file).orElse fun _ => outer.value? .file
  verbose := outer.has .verbose || inner.has .verbose
  logJson := outer.has .logJson || inner.has .logJson
  command := commandOf name inner

/-- Reads a command line; `environmentFile` is what the environment says about the file. -/
def read (args : List String) (environmentFile : Option String) : Except Refusal Arguments :=
  match readLevel none .nothing args with
  | .error refusal => .error refusal
  | .ok (outer, none) =>
    match finish outer environmentFile with
    | .error refusal => .error refusal
    | .ok (outer, _) =>
      .error (if outer.settled.isEmpty then .nothingGiven else .commandMissing)
  | .ok (outer, some (name, rest)) =>
    match readCommand name rest environmentFile with
    | .error refusal => .error refusal
    | .ok (inner, innerTaken) =>
      match finish outer environmentFile with
      | .error refusal => .error refusal
      | .ok (outer, _) => .ok (combine name outer inner innerTaken)

end CommandLine

end ReleaseCandidates
