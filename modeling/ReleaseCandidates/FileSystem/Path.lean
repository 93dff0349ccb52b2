import ReleaseCandidates.Text.Pieces

set_option autoImplicit false

/-! # Parents and children of paths, as texts

The directory that holds a file is found by cutting the last name off the path. Slashes and single
dots at the cut say nothing and go with it, so `a//b/.` lies in `a`; a path of one name lies in the
empty path, and nothing lies above the root. -/

namespace ReleaseCandidates.FileSystem

/-- The reversed characters of a path without the slashes and single dots at its end. A dot that is
the whole path and the slash of the root stay. -/
def dropIdleEnd : List Char → List Char
  | '/' :: c :: rest => dropIdleEnd (c :: rest)
  | '.' :: '/' :: c :: rest => dropIdleEnd (c :: rest)
  | ['.', '/'] => ['/']
  | cs => cs

/-- The path of the directory that a path lies in. -/
def parent? (path : String) : Option String :=
  match dropIdleEnd path.toList.reverse with
  | [] | ['/'] => none
  | cs => some (String.ofList (dropIdleEnd (cs.dropWhile (· ≠ '/'))).reverse)

/-- The path of a name in a directory; an absolute name stands alone. -/
def child (directory name : String) : String :=
  if name.toList.head? = some '/' || directory.isEmpty then name
  else if directory.toList.getLast? = some '/' then directory ++ name
  else directory ++ "/" ++ name

end ReleaseCandidates.FileSystem
