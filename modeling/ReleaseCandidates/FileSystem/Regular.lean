import ReleaseCandidates.Failure
import ReleaseCandidates.FileSystem

set_option autoImplicit false

/-! # Reading regular files

Logs and versions files are read only where the path names a regular file itself: a link is
refused even if it leads to one, and so is a file above the limit of size, before its content is
looked at. -/

namespace ReleaseCandidates.FileSystem

/-- The greatest size in bytes of a file that is read: 100 MiB. -/
def sizeLimit : Nat := 104857600

/-- Refuses a size above a limit. -/
def checkSize (path : String) (size limit : Nat) : Except ReadProblem Unit :=
  if size > limit then .error (.tooLarge path size limit) else .ok ()

/-- The text of the content of a file. -/
def contentText (description : String) (content : FileContent) : Except ReadProblem String :=
  match content.text? with
  | some s => .ok s
  | none => .error (.noContent description .notText)

/-- The text of the regular file that a path names; `description` says in failures what the file
is for. -/
def readRegular (fs : FileSystem) (path description : String) : Except ReadProblem String :=
  match fs.inspect path with
  | .error error => .error (.noMetadata description error)
  | .ok (.link _) => .error (.isLink path description)
  | .ok .directory => .error (.notRegular path)
  | .ok (.file content) =>
    match checkSize path content.size sizeLimit with
    | .error problem => .error problem
    | .ok () => contentText description content

/-- The text of the file that a path leads to through any links, of any size. -/
def readThrough (fs : FileSystem) (path : String) : Except OsError String :=
  match fs.follow path with
  | .error error => .error error
  | .ok (.file content) =>
    match content.text? with
    | some s => .ok s
    | none => .error .notText
  | .ok .directory | .ok (.link _) => .error .isDirectory

/-- Refuses a path that names a link; `operation` says in failures what was to be done. -/
def refuseLink (fs : FileSystem) (path operation : String) : Except LinkProblem Unit :=
  match fs.inspect path with
  | .error error => .error (.noMetadata path operation error)
  | .ok (.link _) => .error (.isLink path operation)
  | .ok _ => .ok ()

end ReleaseCandidates.FileSystem
