import ReleaseCandidates.FileSystem.Path
import ReleaseCandidates.FileSystem.Regular

set_option autoImplicit false

/-! # Replacing a file in one step

A file is written by preparing the new content beside it and renaming that over the old file, so
that a reader sees the old file or the new one. Whatever refuses the operation leaves everything as
it was; `replaceFile` therefore gives a new file system only when it succeeds, and then only the
one entry differs. A link is neither followed nor replaced. -/

namespace ReleaseCandidates.FileSystem

/-- The directory in which the new content of a file is prepared. -/
def workshop (path : String) : String :=
  match parent? path with
  | some p => if p.isEmpty then "." else p
  | none => "."

/-- The names of a path without the empty ones at its end. -/
def properNames (path : String) : List String :=
  ((names path).reverse.dropWhile (· = "")).reverse

/-- The location that a rename to a path gives a new file to. The path has to end in a proper name:
a dot name stands for a directory in use, and a slash at the end asks for a directory. -/
def renameTarget (fs : FileSystem) (path : String) : Except OsError Location :=
  match pathProblem path with
  | some error => .error error
  | none =>
    let proper := properNames path
    match fs.walkFrom false maxLinks (origin fs.workingDirectory path) proper with
    | .error error => .error error
    | .ok l =>
      if proper.getLast? ∈ [none, some ".", some ".."] then .error .busy
      else if proper.length < (names path).length then .error .notDirectory
      else
        match fs.entryAt l with
        | some .directory => .error .isDirectory
        | _ => .ok l

/-- Replaces the content of a file, or creates the file in a directory that exists. -/
def replaceFile (fs : FileSystem) (path content : String) : Except Failure FileSystem :=
  if !fs.isDirectory (workshop path) then
    .error (.notWritten path (.noParent (workshop path)))
  else
    match fs.inspect path with
    | .ok (.link _) => .error (.linkRefused (.isLink path "write"))
    | _ =>
      match fs.renameTarget path with
      | .error error => .error (.notWritten path (.notReplaced error))
      | .ok l => .ok (fs.put l (.file (.text content)))

end ReleaseCandidates.FileSystem
