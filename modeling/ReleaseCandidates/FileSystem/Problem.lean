import ReleaseCandidates.FileSystem.OsError

set_option autoImplicit false

/-! # What can go wrong with a file

Files are read and written under rules of the program's own on top of those of the operating
system: only regular files of a bounded size are read, and a symbolic link is neither read nor
replaced. -/

namespace ReleaseCandidates

/-- The words for a link where a file is expected. -/
def linkMessage (path reason : String) : String :=
  "Security violation: " ++ path ++ "\nReason: " ++ reason ++
    "\n\n💡 Hint: Point rc-tracker at the real file instead of a link"

/-- Why a file was not read. -/
inductive ReadProblem where
  /-- The system knows nothing about the path. -/
  | noMetadata (description : String) (error : OsError)
  | isLink (path description : String)
  | notRegular (path : String)
  | tooLarge (path : String) (size limit : Nat)
  /-- The content could not be read, or is not text. -/
  | noContent (description : String) (error : OsError)
  deriving DecidableEq, Repr

/-- The words for a problem with reading. -/
def ReadProblem.message : ReadProblem → String
  | .noMetadata description error =>
    "Failed to read " ++ description ++ " metadata: " ++ error.message
  | .isLink path description => linkMessage path (description ++ " is a symbolic link")
  | .notRegular path => path ++ " is not a regular file"
  | .tooLarge path size limit =>
    "Security: " ++ path ++ " is too large (" ++ toString size ++
      " bytes). Maximum allowed size is " ++ toString limit ++ " bytes."
  | .noContent description error => "Failed to read " ++ description ++ ": " ++ error.message

/-- Why a path was refused as a link. -/
inductive LinkProblem where
  /-- The system knows nothing about the path. -/
  | noMetadata (path operation : String) (error : OsError)
  | isLink (path operation : String)
  deriving DecidableEq, Repr

/-- The words for a refused link. -/
def LinkProblem.message : LinkProblem → String
  | .noMetadata path operation error =>
    "Failed to read metadata for " ++ operation ++ " operation on " ++ path ++ ": " ++ error.message
  | .isLink path operation =>
    linkMessage path (operation ++ " operations on symbolic links are not allowed")

/-- Why a file was not written. -/
inductive WriteProblem where
  /-- The directory that should hold the file is none. -/
  | noParent (parent : String)
  /-- No temporary file could be made. -/
  | notPrepared (error : OsError)
  /-- The new content could not be written to the temporary file. -/
  | notFilled (error : OsError)
  /-- The new content could not be brought to the disk. -/
  | notFlushed (error : OsError)
  /-- The new content could not be put in the place of the old. -/
  | notReplaced (error : OsError)
  deriving DecidableEq, Repr

/-- The details for a problem with writing. -/
def WriteProblem.details : WriteProblem → String
  | .noParent parent => "Parent directory does not exist: " ++ parent
  | .notPrepared error => "Failed to create temporary file: " ++ error.message
  | .notFilled error => error.message
  | .notFlushed error => "Failed to flush: " ++ error.message
  | .notReplaced error => "Failed to replace file: " ++ error.message

end ReleaseCandidates
