import ReleaseCandidates.Http.Fault
import ReleaseCandidates.Http.Url

set_option autoImplicit false

/-! # Requests, responses and what carries them

A client of a web service is a function from requests to what it makes of the responses. What
carries them, redirections included, is a `Transport`: the clients say nothing about it, and one
that reaches nobody (`Transport.offline`) serves as well as any other. -/

namespace ReleaseCandidates.Http

/-- What is asked of a server. -/
inductive Method where
  | get
  | head
  | post
  deriving DecidableEq, Repr

/-- The word for a method. -/
def Method.word : Method → String
  | .get => "GET"
  | .head => "HEAD"
  | .post => "POST"

/-- A request. Names of headers are in lower case. -/
structure Request where
  method : Method
  url : Url
  headers : List (String × String)
  body : Option String
  deriving DecidableEq, Repr

/-- A response. Names of headers are in lower case. -/
structure Response where
  status : Nat
  headers : List (String × String)
  body : String
  deriving DecidableEq, Repr

/-- The value of a header. -/
def Response.header? (r : Response) (name : String) : Option String :=
  r.headers.lookup name

/-- Whether a response says that the request was carried out. -/
def Response.isSuccess (r : Response) : Bool :=
  200 ≤ r.status && r.status < 300

/-- What carries a request to its server and brings the response, or says why there is none. -/
abbrev Transport (τ : Type) := Request → StateM τ (Except Fault Response)

/-! ## Status lines -/

/-- The registered reasons. -/
def reasons : List (Nat × String) := [
  (100, "Continue"), (101, "Switching Protocols"), (102, "Processing"), (103, "Early Hints"),
  (200, "OK"), (201, "Created"), (202, "Accepted"), (203, "Non Authoritative Information"),
  (204, "No Content"), (205, "Reset Content"), (206, "Partial Content"), (207, "Multi-Status"),
  (208, "Already Reported"), (226, "IM Used"), (300, "Multiple Choices"),
  (301, "Moved Permanently"), (302, "Found"), (303, "See Other"), (304, "Not Modified"),
  (305, "Use Proxy"), (307, "Temporary Redirect"), (308, "Permanent Redirect"),
  (400, "Bad Request"), (401, "Unauthorized"), (402, "Payment Required"), (403, "Forbidden"),
  (404, "Not Found"), (405, "Method Not Allowed"), (406, "Not Acceptable"),
  (407, "Proxy Authentication Required"), (408, "Request Timeout"), (409, "Conflict"),
  (410, "Gone"), (411, "Length Required"), (412, "Precondition Failed"),
  (413, "Payload Too Large"), (414, "URI Too Long"), (415, "Unsupported Media Type"),
  (416, "Range Not Satisfiable"), (417, "Expectation Failed"), (418, "I'm a teapot"),
  (421, "Misdirected Request"), (422, "Unprocessable Entity"), (423, "Locked"),
  (424, "Failed Dependency"), (425, "Too Early"), (426, "Upgrade Required"),
  (428, "Precondition Required"), (429, "Too Many Requests"),
  (431, "Request Header Fields Too Large"), (451, "Unavailable For Legal Reasons"),
  (500, "Internal Server Error"), (501, "Not Implemented"), (502, "Bad Gateway"),
  (503, "Service Unavailable"), (504, "Gateway Timeout"), (505, "HTTP Version Not Supported"),
  (506, "Variant Also Negotiates"), (507, "Insufficient Storage"), (508, "Loop Detected"),
  (510, "Not Extended"), (511, "Network Authentication Required")]

/-- A status with its reason. -/
def statusText (status : Nat) : String :=
  toString status ++ " " ++ (reasons.lookup status).getD "<unknown status code>"

/-! ## Headers -/

/-- Whether a text can be sent as the value of a header. -/
def isHeaderValue (s : String) : Bool :=
  s.toList.all fun c => c == '\t' || (c.toNat ≥ 0x20 && c.toNat != 0x7F)

/-- Whether the value of a header can be read as text. -/
def isReadableValue (s : String) : Bool :=
  s.toList.all fun c => c == '\t' || (c.toNat ≥ 0x20 && c.toNat < 0x7F)

/-! ## Without a network -/

/-- Whether a host is a numeric address or the machine itself, so that its name needs no look-up. -/
def isLocated (host : String) : Bool :=
  host == "localhost" || host.toList.head? == some '[' || Url.isNumericHost host.toList

/-- The transport of a machine without a network: no exchange gets as far as a connection. -/
def Transport.offline {τ : Type} : Transport τ := fun request =>
  let problem : ConnectProblem :=
    if isLocated request.url.host then .refused .networkUnreachable else .lookup
  return .error (.notConnected request.url.text problem)

end ReleaseCandidates.Http
