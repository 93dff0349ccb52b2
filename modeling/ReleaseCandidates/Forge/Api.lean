import ReleaseCandidates.Catalogue
import ReleaseCandidates.Http.Exchange
import ReleaseCandidates.Http.Payload.Reader
import ReleaseCandidates.Tag.Reconcile

set_option autoImplicit false

/-! # The forge's web service

Releases, commits and tags of a repository are asked for at addresses below the repository's own.
An `ApiCall` is one such question; its address is made of the parts of the identifier and the
ending of the call. -/

namespace ReleaseCandidates

open Http (Fault Method Payload Request Response Transport Url)

/-- Where the service is, and who asks. -/
structure ForgeApi where
  /-- The address that all others start with, without a slash at its end. -/
  base : String
  token : Option String
  deriving DecidableEq, Repr

/-- A question about a repository, or a change to it. -/
inductive ApiCall where
  | releases (limit : Nat)
  | commits (limit : Nat)
  | tagRef (tag : String)
  | createTagObject (tag message sha : String)
  | createRef (refName sha : String)
  deriving DecidableEq, Repr

namespace ApiCall

/-- The greatest number of entries on a page. -/
def pageLimit : Nat := 100

/-- The number of entries asked for: at least one and at most a page. -/
def perPage (limit : Nat) : Nat :=
  min (max limit 1) pageLimit

/-- The name of a tag as a piece of an address: its own slashes separate. -/
def tagPath (tag : String) : String :=
  String.ofList (Text.join '/' ((Text.split '/' tag.toList).map Http.Percent.encodeChars))

/-- What follows the repository in the address. -/
def ending : ApiCall → String
  | .releases limit => "/releases?per_page=" ++ toString (perPage limit)
  | .commits limit => "/commits?per_page=" ++ toString (perPage limit)
  | .tagRef tag => "/git/ref/tags/" ++ tagPath tag
  | .createTagObject _ _ _ => "/git/tags"
  | .createRef _ _ => "/git/refs"

/-- How the call is made. -/
def method : ApiCall → Method
  | .releases _ | .commits _ | .tagRef _ => .get
  | .createTagObject _ _ _ | .createRef _ _ => .post

/-- What is sent along. -/
def body : ApiCall → Option String
  | .createTagObject tag message sha =>
    some (Payload.writeRecord
      [("tag", tag), ("message", message), ("object", sha), ("type", "commit")])
  | .createRef refName sha => some (Payload.writeRecord [("ref", refName), ("sha", sha)])
  | _ => none

/-- The name of the call in failures. -/
def what (repository : String) : ApiCall → String
  | .releases _ => "releases of " ++ repository
  | .commits _ => "commits of " ++ repository
  | .tagRef tag => "tag ref " ++ tag ++ " of " ++ repository
  | .createTagObject tag _ _ => "create tag " ++ tag ++ " on " ++ repository
  | .createRef refName _ => "create ref " ++ refName ++ " on " ++ repository

end ApiCall

/-! ## Requests -/

namespace ForgeApi

/-- Where the service is if nothing else is configured. -/
def defaultBase : String := "https://api.github.com"

/-- The service at an address, asked with a token or, if that is blank, without one. -/
def make (address : String) (token : Option String) : ForgeApi where
  base := String.ofList (address.toList.reverse.dropWhile (· = '/')).reverse
  token := token.filter fun t => !Text.isAllBlank t

/-- The name under which the program asks. -/
def userAgent : String := "rc-tracker/0.4.0"

/-- The address for a call about a repository. -/
def address (api : ForgeApi) (repository : String) (call : ApiCall) :
    Except RepositoryId.Problem String :=
  match RepositoryId.parse repository with
  | .error problem => .error problem
  | .ok id =>
    .ok (api.base ++ "/repos/" ++ Http.Percent.encode id.owner ++ "/" ++
      Http.Percent.encode id.name ++ call.ending)

/-- The headers of every request, and those that a body and a token bring. -/
def headers (api : ForgeApi) (call : ApiCall) : List (String × String) :=
  [("accept", "application/vnd.github+json"), ("x-github-api-version", "2022-11-28"),
    ("user-agent", userAgent)] ++
    (match call.body with
      | some _ => [("content-type", "application/json")]
      | none => []) ++
    (match api.token with
      | some token => [("authorization", "Bearer " ++ token)]
      | none => [])

/-- The request for an address, if the address can be read and every header can be sent. -/
def requestFor (api : ForgeApi) (address : String) (call : ApiCall) : Except Fault Request :=
  let headers := api.headers call
  match Url.parse? address with
  | none => .error .badAddress
  | some url =>
    if headers.all fun (_, v) => Http.isHeaderValue v then
      .ok { method := call.method, url := url, headers := headers, body := call.body }
    else .error .badHeader

/-! ## Responses -/

/-- The greatest number of characters that are told of a refusal. -/
def maxDetail : Nat := 200

/-- A response that is no success is a failure that tells how it starts. -/
def accept (what : String) (response : Response) : Except Failure Response :=
  if response.isSuccess then .ok response
  else .error (.forgeStatus (Http.statusText response.status) what
    (String.ofList (response.body.toList.take maxDetail)))

/-- Makes a call and gives the successful response. -/
def send {τ : Type} (api : ForgeApi) (transport : Transport τ) (repository : String)
    (call : ApiCall) : StateM τ (Except Failure Response) :=
  match api.address repository call with
  | .error problem => return .error (.identifier repository problem)
  | .ok address =>
    let what := call.what repository
    match api.requestFor address call with
    | .error fault => return .error (.within (.forgeRequest what) (.http fault))
    | .ok request => do
      match ← transport request with
      | .error fault => return .error (.within (.forgeRequest what) (.http fault))
      | .ok response => return accept what response

/-- The data in a response. -/
def decode {α : Type} (read : Payload → Option α) (response : Response) : Except Failure α :=
  match (Payload.parse? response.body).bind read with
  | some a => .ok a
  | none => .error (.http .unreadableBody)

/-- A release in a listing. -/
def readRelease (p : Payload) : Option Release := do
  match ← p.fieldsOf ["tag_name", "target_commitish", "prerelease"] with
  | [tag, target, prerelease] =>
    return {
      tag := ← Payload.required Payload.asText tag
      target := ← Payload.optional Payload.asText "" target
      prerelease := ← Payload.optional Payload.asTruth false prerelease }
  | _ => none

/-- The identity of a commit or an object. -/
def readSha (p : Payload) : Option String := do
  match ← p.fieldsOf ["sha"] with
  | [sha] => Payload.required Payload.asText sha
  | _ => none

/-- What a ref points at. -/
def readRefTarget (p : Payload) : Option String := do
  match ← p.fieldsOf ["object"] with
  | [object] => Payload.required readSha object
  | _ => none

/-! ## The service as a collaborator -/

variable {τ : Type}

/-- Makes a call and reads the data in the response. -/
def fetch {α : Type} (api : ForgeApi) (transport : Transport τ) (read : Payload → Option α)
    (repository : String) (call : ApiCall) : StateM τ (Except Failure α) := do
  match ← api.send transport repository call with
  | .error failure => return .error failure
  | .ok response => return decode read response

/-- The releases of a repository. -/
def releases (api : ForgeApi) (transport : Transport τ) (repository : String) (limit : Nat) :
    StateM τ (Except Failure (List Release)) := do
  let answer ← api.fetch transport (Payload.asList readRelease) repository (.releases limit)
  return answer.map (List.take limit)

/-- The commits of a repository. -/
def commits (api : ForgeApi) (transport : Transport τ) (repository : String) (limit : Nat) :
    StateM τ (Except Failure (List String)) := do
  let answer ← api.fetch transport (Payload.asList readSha) repository (.commits limit)
  return answer.map (List.take limit)

/-- The service as a keeper of tags. -/
def tagHost (api : ForgeApi) (transport : Transport τ) : TagHost τ where
  tagRef repository tag := api.fetch transport readRefTarget repository (.tagRef tag)
  createTagObject repository tag message sha :=
    api.fetch transport readSha repository (.createTagObject tag message sha)
  createRef repository refName sha := do
    let answer ← api.send transport repository (.createRef refName sha)
    return answer.map fun _ => ()

end ForgeApi

end ReleaseCandidates
