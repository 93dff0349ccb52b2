import ReleaseCandidates.FileSystem.Replace

set_option autoImplicit false

/-! # Replacing a file step by step

`replaceFile` says what the replacement of a file comes to as far as the files decide it. These are
the steps it is made of: a temporary file is made beside the old one, filled, brought to the disk
and renamed over the old one, and it is removed again if a step is refused. The system may refuse
any of them for reasons that the files do not tell, such as a full disk; what it refuses, and what
has been written by then, is said by a `Conduct`. -/

namespace ReleaseCandidates

/-- What the system does in one replacement besides what the files decide. -/
structure Conduct where
  /-- The names that are drawn for the temporary file, each with the refusal to make it, if there is
  one. A name that is taken is passed over. -/
  draws : List (String × Option OsError)
  /-- The refusal where no name that was drawn is free. -/
  exhausted : OsError
  /-- The refusal to write the content, and what has been written by then. -/
  fillRefusal : Option (FileContent × OsError)
  flushRefusal : Option OsError
  renameRefusal : Option OsError
  deriving DecidableEq, Repr

namespace FileSystem

/-! ## The temporary file -/

/-- The location of a new file in a directory, under the first name drawn that is free. -/
def drawLocation (fs : FileSystem) (directory : Location) (exhausted : OsError) :
    List (String × Option OsError) → Except OsError Location
  | [] => .error exhausted
  | (name, refusal) :: draws =>
    match fs.entryAt (directory ++ [name]), refusal with
    | some _, _ => drawLocation fs directory exhausted draws
    | none, some error => .error error
    | none, none => .ok (directory ++ [name])

/-- The location of the temporary file for a path, in the directory that holds the file. -/
def temporary (fs : FileSystem) (c : Conduct) (path : String) : Except OsError Location :=
  match fs.walk true (workshop path) with
  | .error error => .error error
  | .ok directory => fs.drawLocation directory c.exhausted c.draws

/-! ## Steps -/

/-- What a step gives, and the files it leaves. -/
abbrev Step := FileSystem → Except WriteProblem Unit × FileSystem

/-- Writes the content to the temporary file. -/
def fill (c : Conduct) (temp : Location) (content : String) : Step := fun fs =>
  match c.fillRefusal with
  | some (left, error) => (.error (.notFilled error), fs.put temp (.file left))
  | none => (.ok (), fs.put temp (.file (.text content)))

/-- Brings the content to the disk. -/
def flush (c : Conduct) : Step := fun fs =>
  match c.flushRefusal with
  | some error => (.error (.notFlushed error), fs)
  | none => (.ok (), fs)

/-- The file system after the temporary file was renamed to a path. What the path names then gives
way, be it a link. -/
def moved (fs : FileSystem) (temp : Location) (path : String) : Except OsError FileSystem :=
  match fs.renameTarget path with
  | .error error => .error error
  | .ok l =>
    match fs.entryAt temp with
    | none => .error .notFound
    | some entry => .ok ((fs.erase temp).put l entry)

/-- Renames the temporary file over the old one. -/
def renameOver (c : Conduct) (temp : Location) (path : String) : Step := fun fs =>
  match c.renameRefusal with
  | some error => (.error (.notReplaced error), fs)
  | none =>
    match fs.moved temp path with
    | .error error => (.error (.notReplaced error), fs)
    | .ok fs' => (.ok (), fs')

/-- One step and, unless it was refused, another. -/
def Step.andThen (first second : Step) : Step := fun fs =>
  match first fs with
  | (.error problem, fs) => (.error problem, fs)
  | (.ok (), fs) => second fs

/-- A step after which the temporary file is removed if it was refused. -/
def Step.orRemove (step : Step) (temp : Location) : Step := fun fs =>
  match step fs with
  | (.error problem, fs) => (.error problem, fs.erase temp)
  | (.ok (), fs) => (.ok (), fs)

/-- What is done once there is a temporary file. -/
def replaceThrough (c : Conduct) (temp : Location) (path content : String) : Step :=
  (fill c temp content).andThen ((flush c).andThen (renameOver c temp path))

/-! ## All steps together -/

/-- Refuses a path that names a link. One that names nothing is not refused. -/
def refuseLinkThere (fs : FileSystem) (path operation : String) : Except LinkProblem Unit :=
  if (fs.inspect path).isOk then fs.refuseLink path operation else .ok ()

/-- Replaces the content of a file step by step, or creates the file in a directory that exists. -/
def replaceBySteps (c : Conduct) (path content : String) (fs : FileSystem) :
    Except Failure Unit × FileSystem :=
  if !fs.isDirectory (workshop path) then
    (.error (.notWritten path (.noParent (workshop path))), fs)
  else
    match fs.refuseLinkThere path "write" with
    | .error problem => (.error (.linkRefused problem), fs)
    | .ok () =>
      match fs.temporary c path with
      | .error error => (.error (.notWritten path (.notPrepared error)), fs)
      | .ok temp =>
        match (replaceThrough c temp path content).orRemove temp
            (fs.put temp (.file (.text ""))) with
        | (.error problem, fs) => (.error (.notWritten path problem), fs)
        | (.ok (), fs) => (.ok (), fs)

end FileSystem

end ReleaseCandidates
