set_option autoImplicit false

/-! # Errors of the operating system -/

namespace ReleaseCandidates

/-- Why the operating system refused an operation on a file or program. -/
inductive OsError where
  | notFound
  | permissionDenied
  | busy
  | notDirectory
  | isDirectory
  | tooManyLinks
  | nameTooLong
  | networkUnreachable
  /-- The bytes read are not valid text. -/
  | notText
  /-- The name holds a NUL character. -/
  | nulInName
  /-- Any other refusal, in the words for it. -/
  | other (words : String)
  deriving DecidableEq, Repr

/-- The system's words for an error. -/
def OsError.message : OsError → String
  | .notFound => "No such file or directory (os error 2)"
  | .permissionDenied => "Permission denied (os error 13)"
  | .busy => "Device or resource busy (os error 16)"
  | .notDirectory => "Not a directory (os error 20)"
  | .isDirectory => "Is a directory (os error 21)"
  | .tooManyLinks => "Too many levels of symbolic links (os error 40)"
  | .nameTooLong => "File name too long (os error 36)"
  | .networkUnreachable => "Network is unreachable (os error 101)"
  | .notText => "stream did not contain valid UTF-8"
  | .nulInName => "file name contained an unexpected NUL byte"
  | .other words => words

end ReleaseCandidates
