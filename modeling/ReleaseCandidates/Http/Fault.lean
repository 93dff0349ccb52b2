import ReleaseCandidates.FileSystem.OsError

set_option autoImplicit false

/-! # Failures of an HTTP exchange

An exchange fails when no answer arrives, or when the body of an answer is not what was asked for.
Either way the failure has an outer text and, under it, the texts of its causes. -/

namespace ReleaseCandidates.Http

/-- Why a connection could not be made. -/
inductive ConnectProblem where
  /-- The host's name could not be resolved. -/
  | lookup
  /-- The host did not take the connection. -/
  | refused (error : OsError)
  deriving DecidableEq, Repr

/-- The texts for a connection problem, outermost first. -/
def ConnectProblem.chain : ConnectProblem → List String
  | .lookup =>
    ["dns error", "failed to lookup address information: Temporary failure in name resolution"]
  | .refused error => ["tcp connect error", error.message]

/-- Why an exchange failed. -/
inductive Fault where
  /-- No connection to the server of `url`. -/
  | notConnected (url : String) (problem : ConnectProblem)
  /-- The address of the request could not be read. -/
  | badAddress
  /-- A header of the request cannot be sent. -/
  | badHeader
  /-- The body does not hold the expected data. -/
  | unreadableBody
  deriving DecidableEq, Repr

/-- The texts of a fault, outermost first. -/
def Fault.chain : Fault → List String
  | .notConnected url problem =>
    ("error sending request for url (" ++ url ++ ")") :: "client error (Connect)" :: problem.chain
  | .badAddress => ["builder error"]
  | .badHeader => ["builder error", "failed to parse header value"]
  | .unreadableBody => ["error decoding response body"]

end ReleaseCandidates.Http
