import ReleaseCandidates.FileSystem
import ReleaseCandidates.FileSystem.Path

set_option autoImplicit false

/-! # Arranging files and directories

The plain operations on what stands in a file system: making directories and links, writing a
content whether the file exists or not, and removing. Each gives nothing when the operating system
would refuse it, so a caller keeps the file system that it had. -/

namespace ReleaseCandidates.FileSystem

/-- Makes a directory in one that exists; a directory that is already there is kept. -/
def makeDirectory (fs : FileSystem) (path : String) : Option FileSystem :=
  if fs.isDirectory path then some fs
  else
    match fs.inspect path, fs.walk false path with
    | .error .notFound, .ok l => some (fs.put l .directory)
    | _, _ => none

/-- The paths that start a path, the shortest first and the path itself last. -/
def starts (path : String) : List String :=
  let pieces := names path
  (List.range pieces.length).map fun k => String.intercalate "/" (pieces.take (k + 1))

/-- Makes a directory and those above it as far as they are missing. -/
def makeDirectories (fs : FileSystem) (path : String) : Option FileSystem :=
  ((starts path).filter fun start => !start.isEmpty).foldlM makeDirectory fs

/-- Makes a link where nothing stands yet. -/
def makeLink (fs : FileSystem) (path target : String) : Option FileSystem :=
  match fs.inspect path, fs.walk false path with
  | .error .notFound, .ok l => if target.isEmpty then none else some (fs.put l (.link target))
  | _, _ => none

/-- Gives a file a content through any links to it; the file need not exist. -/
def write (fs : FileSystem) (path : String) (content : FileContent) : Option FileSystem :=
  match fs.walk true path with
  | .error _ => none
  | .ok l =>
    match fs.entryAt l with
    | some .directory => none
    | _ => some (fs.put l (.file content))

/-- Gives a file a content once the directories above it are made. -/
def writeBelow (fs : FileSystem) (path : String) (content : FileContent) : Option FileSystem :=
  match parent? path with
  | some parent => (fs.makeDirectories parent).bind fun fs => fs.write path content
  | none => none

/-- Removes a file, a link or an empty directory. -/
def remove (fs : FileSystem) (path : String) : Option FileSystem :=
  match fs.inspect path, fs.walk false path with
  | .ok .directory, .ok l => if (fs.children l).isEmpty then some (fs.erase l) else none
  | .ok _, .ok l => some (fs.erase l)
  | _, _ => none

end ReleaseCandidates.FileSystem
