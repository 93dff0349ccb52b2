import ReleaseCandidates.FileSystem.OsError
import ReleaseCandidates.Text.Pieces

set_option autoImplicit false

/-! # The file system

A file system is a table from locations to what stands there. A location is the list of names from
the root; a path is the text that a person writes, read from the working directory on. `walk`
follows a path through directories and links to a location, `inspect` tells what a path names
without following a link at its end, and `follow` looks through such links.

The table is flat, so that changing one location (`put`) says nothing about any other: that is
`entryAt_put_of_ne`. -/

namespace ReleaseCandidates

/-! ## What stands at a location -/

/-- The content of a regular file. -/
inductive FileContent where
  | text (s : String)
  /-- Bytes that are not the encoding of any text, by their number. -/
  | bytes (size : Nat)
  /-- So many zero bytes. -/
  | zeros (size : Nat)
  deriving DecidableEq, Repr

namespace FileContent

/-- The number of bytes. -/
def size : FileContent → Nat
  | .text s => s.utf8ByteSize
  | .bytes n => n
  | .zeros n => n

/-- The text that the bytes encode, if they encode one. -/
def text? : FileContent → Option String
  | .text s => some s
  | .bytes _ => none
  | .zeros n => some ("".pushn '\x00' n)

/-- The content that bytes make up. -/
def ofBytes (bytes : ByteArray) : FileContent :=
  match String.fromUTF8? bytes with
  | some s => .text s
  | none => .bytes bytes.size

end FileContent

/-- What a name in a directory stands for. -/
inductive FileEntry where
  | file (content : FileContent)
  | directory
  /-- A symbolic link with the path it holds. -/
  | link (target : String)
  deriving DecidableEq, Repr

/-- The names from the root of the file system to a place in it. -/
abbrev Location := List String

/-- What stands where, and the directory from which paths are read. -/
structure FileSystem where
  entries : List (Location × FileEntry)
  workingDirectory : Location
  deriving DecidableEq, Repr

namespace FileSystem

/-- What stands at a location, if anything. The root is always a directory. -/
def entryAt (fs : FileSystem) (l : Location) : Option FileEntry :=
  if l = [] then some .directory else fs.entries.lookup l

/-- The entries with the one at a location set. -/
def setEntry (l : Location) (e : FileEntry) :
    List (Location × FileEntry) → List (Location × FileEntry)
  | [] => [(l, e)]
  | (k, old) :: rest => if l = k then (k, e) :: rest else (k, old) :: setEntry l e rest

/-- The file system with an entry set; nothing else changes. -/
def put (fs : FileSystem) (l : Location) (e : FileEntry) : FileSystem :=
  { fs with entries := setEntry l e fs.entries }

/-- The file system without the entry at a location. -/
def erase (fs : FileSystem) (l : Location) : FileSystem :=
  { fs with entries := fs.entries.filter fun (k, _) => k != l }

theorem lookup_setEntry_self (l : Location) (e : FileEntry) (es : List (Location × FileEntry)) :
    (setEntry l e es).lookup l = some e := by
  induction es with
  | nil => simp [setEntry]
  | cons p rest ih =>
    obtain ⟨k, old⟩ := p
    by_cases h : l = k
    · subst h; simp [setEntry]
    · have hb : (l == k) = false := by simpa using h
      simp [setEntry, h, List.lookup_cons, hb, ih]

theorem lookup_setEntry_of_ne {l other : Location} (h : other ≠ l) (e : FileEntry)
    (es : List (Location × FileEntry)) : (setEntry l e es).lookup other = es.lookup other := by
  have ho : (other == l) = false := by simpa using h
  induction es with
  | nil => simp [setEntry, List.lookup_cons, ho]
  | cons p rest ih =>
    obtain ⟨k, old⟩ := p
    by_cases hk : l = k
    · subst hk; simp [setEntry, List.lookup_cons, ho]
    · simp [setEntry, hk, List.lookup_cons, ih]

/-- A location holds what was put there. -/
theorem entryAt_put_self (fs : FileSystem) {l : Location} (h : l ≠ []) (e : FileEntry) :
    (fs.put l e).entryAt l = some e := by
  simp [entryAt, put, h, lookup_setEntry_self]

/-- Putting an entry leaves every other location alone. -/
theorem entryAt_put_of_ne (fs : FileSystem) {l other : Location} (h : other ≠ l) (e : FileEntry) :
    (fs.put l e).entryAt other = fs.entryAt other := by
  simp [entryAt, put, lookup_setEntry_of_ne h]

@[simp] theorem workingDirectory_put (fs : FileSystem) (l : Location) (e : FileEntry) :
    (fs.put l e).workingDirectory = fs.workingDirectory := rfl

/-! ## Paths -/

/-- The names between the slashes of a path. An empty one stands for the place reached so far. -/
def names (path : String) : List String :=
  (Text.split '/' path.toList).map String.ofList

/-- Where the reading of a path starts, given the directory that relative paths are read from. -/
def origin (here : Location) (path : String) : Location :=
  if path.toList.head? = some '/' then [] else here

/-- The greatest number of bytes in one name. -/
def maxNameLength : Nat := 255

/-- The number of bytes from which on a path is too long. -/
def pathLimit : Nat := 4096

/-- How many links may be followed for one path. -/
def maxLinks : Nat := 40

/-- Goes through the names of a path from a directory on. A link is handed to `jump`, with the
directory that it stands in and the names still to go; the last name is only looked through if
`through` is set, and it need not exist. -/
def walkWith (jump : Location → String → List String → Except OsError Location) (fs : FileSystem)
    (through : Bool) : Location → List String → Except OsError Location
  | here, [] => .ok here
  | here, name :: rest =>
    match fs.entryAt here with
    | none => .error .notFound
    | some (.file _) | some (.link _) => .error .notDirectory
    | some .directory =>
      if name = "" ∨ name = "." then walkWith jump fs through here rest
      else if name = ".." then walkWith jump fs through here.dropLast rest
      else if name.utf8ByteSize > maxNameLength then .error .nameTooLong
      else
        match fs.entryAt (here ++ [name]) with
        | none => if rest.isEmpty then .ok (here ++ [name]) else .error .notFound
        | some (.link target) =>
          if rest.isEmpty && !through then .ok (here ++ [name]) else jump here target rest
        | some _ => walkWith jump fs through (here ++ [name]) rest

/-- Goes through the names of a path, following at most so many links. -/
def walkFrom (fs : FileSystem) (through : Bool) :
    Nat → Location → List String → Except OsError Location
  | 0 => walkWith (fun _ _ _ => .error .tooManyLinks) fs through
  | links + 1 => walkWith (fun here target rest =>
      walkFrom fs through links (origin here target) (names target ++ rest)) fs through

/-- What is wrong with a path before it is looked at. -/
def pathProblem (path : String) : Option OsError :=
  if path.toList.contains '\x00' then some .nulInName
  else if path.isEmpty then some .notFound
  else if path.utf8ByteSize ≥ pathLimit then some .nameTooLong
  else none

/-- The location that a path leads to. The last name need not exist; whether a link there is
followed says `through`. -/
def walk (fs : FileSystem) (through : Bool) (path : String) : Except OsError Location :=
  match pathProblem path with
  | some error => .error error
  | none => walkFrom fs through maxLinks (origin fs.workingDirectory path) (names path)

/-- What stands where a path leads. -/
def lookAt (fs : FileSystem) (through : Bool) (path : String) : Except OsError FileEntry :=
  match fs.walk through path with
  | .error error => .error error
  | .ok l =>
    match fs.entryAt l with
    | none => .error .notFound
    | some e => .ok e

/-- What a path names; a link at its end is not followed. -/
def inspect (fs : FileSystem) (path : String) : Except OsError FileEntry :=
  fs.lookAt false path

/-- What a path names once all links are followed. -/
def follow (fs : FileSystem) (path : String) : Except OsError FileEntry :=
  fs.lookAt true path

/-- Whether a path names something once all links are followed. -/
def exists? (fs : FileSystem) (path : String) : Bool :=
  (fs.follow path).isOk

/-- Whether a path names a directory once all links are followed. -/
def isDirectory (fs : FileSystem) (path : String) : Bool :=
  fs.follow path matches .ok .directory

/-- The names and entries that stand directly in a directory, in no particular order. -/
def children (fs : FileSystem) (directory : Location) : List (String × FileEntry) :=
  fs.entries.filterMap fun (l, e) =>
    match l.getLast? with
    | some name => if l.dropLast = directory then some (name, e) else none
    | none => none

end FileSystem

end ReleaseCandidates
