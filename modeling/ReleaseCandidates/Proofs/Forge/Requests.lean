import ReleaseCandidates.Forge.Api
import ReleaseCandidates.Proofs.Http.Address
import ReleaseCandidates.Proofs.RepositoryId.Segments

set_option autoImplicit false

/-! # The requests of the forge's client

Every call to the forge puts at most one request to the transport (`ForgeApi.sent_eq`), and nothing
but a header that cannot be sent keeps it from doing so. Where the request goes is read off the
address, which continues the address of the service by pieces of a path: those of the repository and
those of the call (`ForgeApi.address_eq`). -/

namespace ReleaseCandidates

/-! ## A transport that writes down what it carries -/

namespace Http

/-- The state of a transport and the requests put to it. -/
structure Carried (τ : Type) where
  state : τ
  requests : List Request

/-- The transport with its requests written down. -/
def Transport.recorded {τ : Type} (transport : Transport τ) : Transport (Carried τ) :=
  fun request c =>
    let (answer, s) := transport request c.state
    (answer, ⟨s, c.requests ++ [request]⟩)

end Http

open Http (Carried Request Transport Url)

namespace ForgeApi

variable {τ : Type}

/-- Makes a call the way the client offers it. -/
def perform (api : ForgeApi) (transport : Transport τ) (repository : String) :
    ApiCall → StateM τ Unit
  | .releases limit => do let _ ← api.releases transport repository limit
  | .commits limit => do let _ ← api.commits transport repository limit
  | .tagRef tag => do let _ ← (api.tagHost transport).tagRef repository tag
  | .createTagObject tag message sha => do
    let _ ← (api.tagHost transport).createTagObject repository tag message sha
  | .createRef refName sha => do let _ ← (api.tagHost transport).createRef repository refName sha

/-- The requests that are sent for a call. -/
def sent (api : ForgeApi) (transport : Transport τ) (repository : String) (call : ApiCall) (s : τ) :
    List Request :=
  (api.perform transport.recorded repository call ⟨s, []⟩).2.requests

/-- Whether all headers of a call can be sent. -/
def canAsk (api : ForgeApi) (call : ApiCall) : Bool :=
  (api.headers call).all fun (_, v) => Http.isHeaderValue v

/-- The request for a call, if the call gets that far. -/
def request? (api : ForgeApi) (repository : String) (call : ApiCall) : Option Request :=
  (api.address repository call).toOption.bind fun address =>
    (api.requestFor address call).toOption

theorem requests_send (api : ForgeApi) (transport : Transport τ) (repository : String)
    (call : ApiCall) (c : Carried τ) :
    (api.send transport.recorded repository call c).2.requests =
      c.requests ++ (api.request? repository call).toList := by
  rw [send, request?]
  cases api.address repository call with
  | error problem => exact (List.append_nil _).symm
  | ok address =>
    simp only [Except.toOption, Option.bind_some]
    cases api.requestFor address call with
    | error fault => exact (List.append_nil _).symm
    | ok request =>
      simp only [Transport.recorded, bind, StateT.bind]
      rcases transport request c.state with ⟨fault | response, s⟩ <;> rfl

theorem state_fetch {α : Type} (api : ForgeApi) (transport : Transport τ)
    (read : Http.Payload → Option α) (repository : String) (call : ApiCall) (s : τ) :
    (api.fetch transport read repository call s).2 = (api.send transport repository call s).2 := by
  simp only [fetch, bind, StateT.bind]
  rcases api.send transport repository call s with ⟨failure | response, s'⟩ <;> rfl

theorem snd_map {α β : Type} (x : StateM τ α) (f : α → β) (s : τ) :
    ((do let a ← x; return f a) s : β × τ).2 = (x s).2 :=
  rfl

theorem state_perform (api : ForgeApi) (transport : Transport τ) (repository : String)
    (call : ApiCall) (s : τ) :
    (api.perform transport repository call s).2 = (api.send transport repository call s).2 := by
  cases call with
  | releases limit => rw [perform, snd_map, releases, snd_map, state_fetch]
  | commits limit => rw [perform, snd_map, commits, snd_map, state_fetch]
  | tagRef tag => rw [perform, snd_map, tagHost, state_fetch]
  | createTagObject tag message sha => rw [perform, snd_map, tagHost, state_fetch]
  | createRef refName sha => rw [perform, snd_map, tagHost, snd_map]

/-- A call sends its one request, or nothing. -/
theorem sent_eq (api : ForgeApi) (transport : Transport τ) (repository : String) (call : ApiCall)
    (s : τ) : api.sent transport repository call s = (api.request? repository call).toList := by
  rw [sent, state_perform, requests_send, List.nil_append]

/-- The address that is asked for a call, if it can be read. -/
def url? (api : ForgeApi) (repository : String) (call : ApiCall) : Option Url :=
  (api.address repository call).toOption.bind Url.parse?

theorem map_url_sent (api : ForgeApi) (transport : Transport τ) (repository : String)
    (call : ApiCall) (s : τ) :
    (api.sent transport repository call s).map (·.url) =
      if api.canAsk call then (api.url? repository call).toList else [] := by
  rw [sent_eq, request?, url?, canAsk]
  cases api.address repository call with
  | error problem => simp [Except.toOption]
  | ok address =>
    simp only [Except.toOption, Option.bind_some, requestFor]
    cases Url.parse? address with
    | none => simp
    | some url =>
      simp only [Option.toList_some]
      by_cases hheaders : ((api.headers call).all fun x => Http.isHeaderValue x.2) = true
      · rw [if_pos hheaders, if_pos hheaders]
        rfl
      · rw [if_neg hheaders, if_neg hheaders]
        rfl

theorem map_url_sent_of_url? {api : ForgeApi} {repository : String} {call : ApiCall} {url : Url}
    (h : api.url? repository call = some url) (transport : Transport τ) (s : τ) :
    (api.sent transport repository call s).map (·.url) = if api.canAsk call then [url] else [] := by
  rw [map_url_sent, h]
  rfl

theorem url_of_mem_sent {api : ForgeApi} {repository : String} {call : ApiCall} {url : Url}
    (h : api.url? repository call = some url) {transport : Transport τ} {s : τ} {request : Request}
    (hrequest : request ∈ api.sent transport repository call s) : request.url = url := by
  have hmem := List.mem_map_of_mem (f := (·.url)) hrequest
  rw [map_url_sent_of_url? h] at hmem
  split at hmem
  · exact List.mem_singleton.1 hmem
  · cases hmem

end ForgeApi

/-! ## The pieces of an address -/

namespace ApiCall

/-- The pieces of the path behind the repository. -/
def pieces : ApiCall → List (List Char)
  | .releases _ => ["releases".toList]
  | .commits _ => ["commits".toList]
  | .tagRef tag =>
    ["git".toList, "ref".toList, "tags".toList] ++
      (Text.split '/' tag.toList).map Http.Percent.encodeChars
  | .createTagObject _ _ _ => ["git".toList, "tags".toList]
  | .createRef _ _ => ["git".toList, "refs".toList]

/-- The query behind the path. -/
def query : ApiCall → Option (List Char)
  | .releases limit | .commits limit => some ("per_page=" ++ toString (perPage limit)).toList
  | .tagRef _ | .createTagObject _ _ _ | .createRef _ _ => none

theorem pieces_ne_nil (call : ApiCall) : call.pieces ≠ [] := by
  cases call <;> simp [pieces]

theorem toList_tagPath (tag : String) : (tagPath tag).toList =
    Text.join '/' ((Text.split '/' tag.toList).map Http.Percent.encodeChars) :=
  String.toList_ofList

theorem encodedPieces_ne_nil (tag : String) :
    (Text.split '/' tag.toList).map Http.Percent.encodeChars ≠ [] :=
  fun h => Text.split_ne_nil '/' tag.toList (List.map_eq_nil_iff.1 h)

/-- The address of a listing, with the name of what is listed and the query. -/
theorem toList_listing (name start : String) (n : Nat)
    (h : start.toList = '/' :: (name.toList ++ '?' :: "per_page=".toList)) :
    (start ++ toString n).toList =
      '/' :: (Text.join '/' [name.toList] ++ '?' :: ("per_page=" ++ toString n).toList) := by
  rw [String.toList_append, h, String.toList_append, Text.join, List.cons_append, List.append_assoc,
    List.cons_append]

theorem toList_ending (call : ApiCall) :
    call.ending.toList = '/' :: Url.continuation call.pieces call.query := by
  cases call with
  | releases limit =>
    show ("/releases?per_page=" ++ toString (perPage limit)).toList = '/' ::
      (Text.join '/' ["releases".toList] ++ '?' :: ("per_page=" ++ toString (perPage limit)).toList)
    exact toList_listing "releases" "/releases?per_page=" (perPage limit) (by decide)
  | commits limit =>
    show ("/commits?per_page=" ++ toString (perPage limit)).toList = '/' ::
      (Text.join '/' ["commits".toList] ++ '?' :: ("per_page=" ++ toString (perPage limit)).toList)
    exact toList_listing "commits" "/commits?per_page=" (perPage limit) (by decide)
  | tagRef tag =>
    have hstart : "/git/ref/tags/".toList =
        '/' :: (Text.join '/' ["git".toList, "ref".toList, "tags".toList] ++ ['/']) := by decide
    have hjoin := Text.join_append '/' (List.cons_ne_nil "git".toList ["ref".toList, "tags".toList])
      (encodedPieces_ne_nil tag)
    show ("/git/ref/tags/" ++ tagPath tag).toList = _
    rw [String.toList_append, hstart, toList_tagPath, pieces, query, Url.continuation, hjoin]
    simp only [Url.marked, List.cons_append, List.append_assoc, List.nil_append, List.append_nil]
  | createTagObject tag message sha =>
    show "/git/tags".toList = '/' :: (Text.join '/' ["git".toList, "tags".toList] ++ [])
    decide
  | createRef refName sha =>
    show "/git/refs".toList = '/' :: (Text.join '/' ["git".toList, "refs".toList] ++ [])
    decide

theorem isInert_of_isPlain {c : Char} (h : Http.Percent.isPlain c = true) : Url.isInert c = true :=
  Url.isInert_of_isEncodedChar (by rw [Http.Percent.isEncodedChar, h, Bool.true_or])

theorem isInert_of_all {ps : List (List Char)} (h : ps.all (·.all Url.isInert) = true) :
    ∀ piece ∈ ps, ∀ c ∈ piece, Url.isInert c = true :=
  fun piece hpiece => List.all_eq_true.1 (List.all_eq_true.1 h piece hpiece)

theorem isInert_of_mem_pieces (call : ApiCall) :
    ∀ piece ∈ call.pieces, ∀ c ∈ piece, Url.isInert c = true := by
  cases call with
  | tagRef tag =>
    have hstart : ∀ piece ∈ ["git".toList, "ref".toList, "tags".toList], ∀ c ∈ piece,
        Url.isInert c = true := isInert_of_all (by decide)
    intro piece hpiece
    rcases List.mem_append.1 hpiece with hpiece | hpiece
    · exact hstart piece hpiece
    · obtain ⟨cs, -, rfl⟩ := List.mem_map.1 hpiece
      exact fun c hc => Url.isInert_of_isEncodedChar
        (Http.Percent.isEncodedChar_of_mem_encodeChars hc)
  | releases | commits | createTagObject | createRef =>
    rw [pieces]
    exact isInert_of_all (by decide)

theorem isInert_of_mem_query (call : ApiCall) :
    ∀ q ∈ call.query, ∀ c ∈ q, Url.isInert c = true := by
  have hlisting : ∀ n : Nat, ∀ c ∈ ("per_page=" ++ toString n).toList, Url.isInert c = true := by
    intro n c hc
    rw [String.toList_append] at hc
    rcases List.mem_append.1 hc with hc | hc
    · have hname : "per_page=".toList.all Url.isInert = true := by decide
      exact List.all_eq_true.1 hname c hc
    · have hdigit : c.isDigit = true := by
        rw [Nat.toString_eq_repr, Nat.repr_eq_ofList_toDigits, String.toList_ofList] at hc
        exact Nat.isDigit_of_mem_toDigits (by decide) (by decide) hc
      refine isInert_of_isPlain ?_
      rw [Http.Percent.isPlain, Char.isAlphanum, hdigit, Bool.or_true]
      rfl
  cases call with
  | releases limit | commits limit =>
    intro q hq
    cases hq
    exact hlisting _
  | tagRef | createTagObject | createRef => simp [query]

end ApiCall

namespace ForgeApi

/-- The pieces of the path for a call about a repository, behind the path of the service. -/
def piecesFor (id : RepositoryId) (call : ApiCall) : List (List Char) :=
  "repos".toList :: id.owner.toList :: id.name.toList :: call.pieces

theorem piecesFor_ne_nil (id : RepositoryId) (call : ApiCall) : piecesFor id call ≠ [] :=
  List.cons_ne_nil _ _

section Accepted

variable {repository : String} {id : RepositoryId}

/-- The pieces as they stand in an address. -/
theorem continuation_piecesFor (id : RepositoryId) (call : ApiCall) :
    Url.continuation (piecesFor id call) call.query =
      ("repos/" ++ id.owner ++ "/" ++ id.name ++ call.ending).toList := by
  have hjoin : Text.join '/' (piecesFor id call) = "repos".toList ++ '/' ::
      (id.owner.toList ++ '/' :: (id.name.toList ++ '/' :: Text.join '/' call.pieces)) := by
    rw [piecesFor, Text.join_cons '/' _ (List.cons_ne_nil _ _),
      Text.join_cons '/' _ (List.cons_ne_nil _ _), Text.join_cons '/' _ call.pieces_ne_nil]
  have hstart : "repos/".toList = "repos".toList ++ ['/'] := by decide
  have hslash : "/".toList = ['/'] := by decide
  simp only [String.toList_append, ApiCall.toList_ending, Url.continuation, hjoin, hstart, hslash,
    List.append_assoc, List.cons_append, List.nil_append]

/-- The address for a call goes on from that of the service, with the parts of the identifier as
they are. -/
theorem address_eq (api : ForgeApi) (h : RepositoryId.parse repository = .ok id) (call : ApiCall) :
    api.address repository call = .ok (api.base ++ "/" ++
      String.ofList (Url.continuation (piecesFor id call) call.query)) := by
  have howner : Http.Percent.encode id.owner = id.owner := by
    rw [Http.Percent.encode,
      Http.Percent.encodeChars_of_plain (RepositoryId.isPlain_of_mem_owner h), String.ofList_toList]
  have hname : Http.Percent.encode id.name = id.name := by
    rw [Http.Percent.encode, Http.Percent.encodeChars_of_plain (RepositoryId.isPlain_of_mem_name h),
      String.ofList_toList]
  have hstart : "/repos/" = "/" ++ "repos/" := by decide
  rw [continuation_piecesFor, String.ofList_toList, address, h]
  simp only [howner, hname, hstart, String.append_assoc]

theorem isInert_of_mem_piecesFor (h : RepositoryId.parse repository = .ok id) (call : ApiCall) :
    ∀ piece ∈ piecesFor id call, ∀ c ∈ piece, Url.isInert c = true := by
  have hrepos : "repos".toList.all Url.isInert = true := by decide
  simp only [piecesFor, List.forall_mem_cons]
  exact ⟨List.all_eq_true.1 hrepos,
    fun c hc => ApiCall.isInert_of_isPlain (RepositoryId.isPlain_of_mem_owner h c hc),
    fun c hc => ApiCall.isInert_of_isPlain (RepositoryId.isPlain_of_mem_name h c hc),
    call.isInert_of_mem_pieces⟩

/-- The pieces before the name are never resolved away. -/
theorem isDots_of_mem_start (h : RepositoryId.parse repository = .ok id) :
    ∀ piece ∈ ["repos".toList, id.owner.toList], Url.isDots piece = false := by
  simp only [List.forall_mem_cons]
  refine ⟨by decide, RepositoryId.isDots_eq_false (RepositoryId.isPlain_of_mem_owner h)
    (RepositoryId.isOrdinary_owner h), by simp⟩

variable {api : ForgeApi} {root : Url}

/-- Where the address of the service is all path, the pieces of a call are resolved from the place
it leads to. -/
theorem exists_url?_below (readable : Url.parse? (api.base ++ "/") = some root)
    (hpath : root.isAllPath = true) :
    ∃ above, root.segments = (above ++ [[]]).map (Url.encodeClass Url.isEncodedInPath) ∧
      ∀ {repository : String} {id : RepositoryId} (call : ApiCall),
        RepositoryId.parse repository = .ok id →
        api.url? repository call = some { root with
          segments := (Url.resolveFrom above (piecesFor id call)).map
            (Url.encodeClass Url.isEncodedInPath)
          query := call.query.map String.ofList } := by
  obtain ⟨above, hroot, hbelow⟩ := Url.exists_parse?_below readable hpath
  refine ⟨above, hroot, fun call h => ?_⟩
  rw [url?, address_eq api h call]
  exact hbelow _ _ (piecesFor_ne_nil _ call) (isInert_of_mem_piecesFor h call)
    call.isInert_of_mem_query

/-- Where the address of the service is not all path, a call adds nothing to its path. -/
theorem exists_url?_behind (readable : Url.parse? (api.base ++ "/") = some root)
    (hpath : root.isAllPath = false) (h : RepositoryId.parse repository = .ok id) (call : ApiCall) :
    ∃ url, api.url? repository call = some url ∧ url.place = root.place ∧
      url.segments = root.segments ∧ url.query.isSome = root.query.isSome := by
  rw [url?, address_eq api h call]
  exact Url.exists_parse?_behind readable hpath (isInert_of_mem_piecesFor h call)
    call.isInert_of_mem_query

end Accepted

end ForgeApi

end ReleaseCandidates
