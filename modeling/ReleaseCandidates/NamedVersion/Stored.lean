import ReleaseCandidates.FileSystem.Regular
import ReleaseCandidates.NamedVersion.Layout

set_option autoImplicit false

/-! # The versions file

The curated versions are read from one file, under the rules for regular files. Whatever is wrong,
with the file or with what it holds, makes it an invalid versions file. -/

namespace ReleaseCandidates

/-- The versions in the file at `path`. -/
def NamedVersion.load (path : String) (fs : FileSystem) : Except Failure (List NamedVersion) :=
  match fs.readRegular path "versions file" with
  | .error problem => .error (.versionsUnreadable path (.file problem))
  | .ok content =>
    match NamedVersion.parseAll content with
    | .error problem => .error (.versionsUnreadable path problem)
    | .ok records => .ok records

end ReleaseCandidates
