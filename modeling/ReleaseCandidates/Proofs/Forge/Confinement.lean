import ReleaseCandidates.Proofs.Forge.Requests

set_option autoImplicit false

/-! # Which repository a request is about

The address of a call names the repository by two segments. Whether they are still there when the
address has been read is decided by the name alone: an owner is never resolved away, but a name is
if it is `.` or `..`, and it is not there at all if it is empty. An accepted text can have such a
name, since a closing `.git` is dropped from a name that was checked with it. Calls with a fixed
ending thus stay in their repository exactly if the name is ordinary.

Main statement: `ForgeApi.stays_in_repository_iff`. -/

namespace ReleaseCandidates

open Http (Transport Url)

/-- Whether the address of a call ends in the same way for every tag. -/
def ApiCall.hasFixedEnding : ApiCall → Bool
  | .tagRef _ => false
  | .releases _ | .commits _ | .createTagObject .. | .createRef .. => true

theorem ApiCall.isDots_of_mem_pieces {call : ApiCall} (h : call.hasFixedEnding = true) :
    ∀ piece ∈ call.pieces, Url.isDots piece = false := by
  cases call with
  | tagRef tag => cases h
  | releases | commits => rw [pieces, List.forall_mem_singleton]; decide
  | createTagObject | createRef => rw [pieces]; decide

namespace ForgeApi

section Accepted

variable {repository : String} {id : RepositoryId}

/-- With an ordinary name, all pieces of a call with a fixed ending are the path. -/
theorem resolveFrom_piecesFor (h : RepositoryId.parse repository = .ok id)
    (ordinary : RepositoryId.IsOrdinary id.name) {call : ApiCall}
    (fixed : call.hasFixedEnding = true) (above : List (List Char)) :
    Url.resolveFrom above (piecesFor id call) = above ++ piecesFor id call := by
  refine Url.resolveFrom_of_no_dots above ?_
  have hstart := isDots_of_mem_start h
  have hname := RepositoryId.isDots_eq_false (RepositoryId.isPlain_of_mem_name h) ordinary
  have hpieces := ApiCall.isDots_of_mem_pieces fixed
  simp only [piecesFor, List.forall_mem_cons] at hstart ⊢
  exact ⟨hstart.1, hstart.2.1, hname, hpieces⟩

/-- A name that is resolved away leaves a shorter path: it is missing itself, and with `..` the
owner is missing too. -/
theorem resolveFrom_piecesFor_dots (h : RepositoryId.parse repository = .ok id)
    (dots : id.name = "." ∨ id.name = "..") {call : ApiCall} (fixed : call.hasFixedEnding = true)
    (above : List (List Char)) :
    ∃ kept, Url.resolveFrom above (piecesFor id call) = above ++ (kept ++ call.pieces) ∧
      kept <+: ["repos".toList, id.owner.toList] := by
  have hpieces := ApiCall.isDots_of_mem_pieces fixed
  have hstart : Url.resolveFrom above (piecesFor id call) =
      Url.resolveFrom (above ++ ["repos".toList, id.owner.toList])
        (id.name.toList :: call.pieces) := by
    rw [← Url.descend_of_no_dots above (isDots_of_mem_start h)]
    exact Url.resolveFrom_append above ["repos".toList, id.owner.toList] (List.cons_ne_nil _ _)
  rcases dots with hname | hname
  · refine ⟨["repos".toList, id.owner.toList], ?_, List.prefix_rfl⟩
    rw [hstart, hname, Url.resolveFrom_cons _ _ call.pieces_ne_nil, if_neg (by decide),
      if_pos (by decide), Url.resolveFrom_of_no_dots _ hpieces, List.append_assoc]
  · refine ⟨["repos".toList], ?_, List.prefix_append _ _⟩
    rw [hstart, hname, Url.resolveFrom_cons _ _ call.pieces_ne_nil, if_pos (by decide),
      List.append_cons, List.dropLast_concat, Url.resolveFrom_of_no_dots _ hpieces,
      List.append_assoc]

/-- What is asked for below the service: its path, the repository, and the ending of the call. -/
theorem target_eq_iff {root : Url} {above kept : List (List Char)}
    (hroot : root.segments = (above ++ [[]]).map (Url.encodeClass Url.isEncodedInPath))
    (h : RepositoryId.parse repository = .ok id) (call : ApiCall) (hne : kept ≠ [])
    (hinert : ∀ piece ∈ kept, ∀ c ∈ piece, Url.isInert c = true) :
    Url.target { root with
        segments := (above ++ kept).map (Url.encodeClass Url.isEncodedInPath)
        query := call.query.map String.ofList } =
      root.path ++ "repos/" ++ id.owner ++ "/" ++ id.name ++ call.ending ↔
    kept = piecesFor id call := by
  have hwhole : root.path ++ "repos/" ++ id.owner ++ "/" ++ id.name ++ call.ending =
      root.path ++ String.ofList (Url.continuation (piecesFor id call) call.query) := by
    rw [continuation_piecesFor, String.ofList_toList]
    simp only [String.append_assoc]
  rw [Url.target_below hroot hne hinert, hwhole]
  constructor
  · intro heq
    rw [← String.toList_inj, String.toList_append, String.toList_append, String.toList_ofList,
      String.toList_ofList] at heq
    exact Url.continuation_injective hne (piecesFor_ne_nil id call) hinert
      (isInert_of_mem_piecesFor h call) (List.append_cancel_left heq)
  · rintro rfl
    rfl

/-- With a name that is resolved away, something else is asked for. -/
theorem target_ne_of_dots {root : Url} {above : List (List Char)}
    (hroot : root.segments = (above ++ [[]]).map (Url.encodeClass Url.isEncodedInPath))
    (h : RepositoryId.parse repository = .ok id) (dots : id.name = "." ∨ id.name = "..")
    {call : ApiCall} (fixed : call.hasFixedEnding = true) :
    Url.target { root with
        segments := (Url.resolveFrom above (piecesFor id call)).map
          (Url.encodeClass Url.isEncodedInPath)
        query := call.query.map String.ofList } ≠
      root.path ++ "repos/" ++ id.owner ++ "/" ++ id.name ++ call.ending := by
  obtain ⟨kept, hkept, hleads⟩ := resolveFrom_piecesFor_dots h dots fixed above
  have hall := isInert_of_mem_piecesFor h call
  have hinert : ∀ piece ∈ kept ++ call.pieces, ∀ c ∈ piece, Url.isInert c = true := by
    intro piece hpiece
    rcases List.mem_append.1 hpiece with hpiece | hpiece
    · exact hall piece (List.mem_append_left (id.name.toList :: call.pieces)
        (hleads.subset hpiece))
    · exact hall piece (by simp [piecesFor, hpiece])
  rw [hkept, ne_eq, target_eq_iff hroot h call (by simp [call.pieces_ne_nil]) hinert]
  -- the pieces are too few
  intro hsame
  have hlength := congrArg List.length hsame
  have hshort := hleads.length_le
  simp only [piecesFor, List.length_append, List.length_cons, List.length_nil] at hlength hshort
  omega

end Accepted

/-- Where the address of the service has a query or a fragment, no path follows that of the
service. -/
theorem target_ne_of_behind {root url : Url} (hsegments : url.segments = root.segments)
    (rest : String) : url.target ≠ root.path ++ "repos/" ++ rest := by
  intro heq
  have hpath : url.path = root.path := by rw [Url.path, Url.path, hsegments]
  have hrest : Url.marked (url.query.map String.toList) = ("repos/" ++ rest).toList := by
    rw [← String.toList_inj, Url.toList_target, hpath, String.append_assoc, String.toList_append]
      at heq
    exact List.append_cancel_left heq
  rw [String.toList_append] at hrest
  cases hquery : url.query with
  | none =>
    rw [hquery] at hrest
    cases hrest
  | some q =>
    rw [hquery] at hrest
    exact absurd (List.cons.inj hrest).1 (by decide)

/-- Every call but the look for a tag sends one request, to the server of the service; and this
request asks at the path of the service for the repository that it was made for, named by two parts
that are there, exactly if the address of the service is all path and the name is neither empty nor
resolved away. -/
theorem stays_in_repository_iff {τ : Type} (api : ForgeApi) {root : Url}
    (readable : Url.parse? (api.base ++ "/") = some root) {repository : String} {id : RepositoryId}
    (accepted : RepositoryId.parse repository = .ok id) (call : ApiCall)
    (fixed : call.hasFixedEnding = true) (transport : Transport τ) (s : τ) :
    ∃ url, (api.sent transport repository call s).map (·.url) =
        (if api.canAsk call then [url] else []) ∧
      url.place = root.place ∧
      ((id.owner ≠ "" ∧ id.name ≠ "" ∧
          url.target = root.path ++ "repos/" ++ id.owner ++ "/" ++ id.name ++ call.ending) ↔
        root.isAllPath = true ∧ RepositoryId.IsOrdinary id.name) := by
  cases hpath : root.isAllPath with
  | false =>
    obtain ⟨url, hurl, hplace, hsegments, -⟩ := exists_url?_behind readable hpath accepted call
    refine ⟨url, map_url_sent_of_url? hurl transport s, hplace, iff_of_false ?_ (by simp)⟩
    rintro ⟨-, -, htarget⟩
    refine target_ne_of_behind hsegments (id.owner ++ ("/" ++ (id.name ++ call.ending))) ?_
    rw [htarget]
    simp only [String.append_assoc]
  | true =>
    obtain ⟨above, hroot, hurl⟩ := exists_url?_below readable hpath
    refine ⟨_, map_url_sent_of_url? (hurl call accepted) transport s, rfl, ?_⟩
    by_cases ordinary : RepositoryId.IsOrdinary id.name
    · rw [resolveFrom_piecesFor accepted ordinary fixed, target_eq_iff hroot accepted call
        (piecesFor_ne_nil id call) (isInert_of_mem_piecesFor accepted call)]
      exact iff_of_true ⟨(RepositoryId.isOrdinary_owner accepted).1, ordinary.1, rfl⟩
        ⟨rfl, ordinary⟩
    · refine iff_of_false ?_ fun h => ordinary h.2
      rintro ⟨-, hname, htarget⟩
      have dots : id.name = "." ∨ id.name = ".." := by
        by_contra hnot
        exact ordinary ⟨hname, not_or.1 hnot⟩
      exact target_ne_of_dots hroot accepted dots fixed htarget

/-- The commits of a repository that publishes several artifacts, asked of a service with a path of
its own. -/
theorem stays_in_repository_for_part :
    Url.parse? ("https://ghe.example.com/api/v3" ++ "/") =
        some ⟨true, "ghe.example.com", none, ["api", "v3", ""], none, none⟩ ∧
      RepositoryId.parse "openshift/assisted-installer/controller" =
        .ok ⟨"openshift", "assisted-installer", some "controller"⟩ ∧
      ApiCall.hasFixedEnding (.commits 20) = true ∧
      ∃ url, ((⟨"https://ghe.example.com/api/v3", none⟩ : ForgeApi).sent Transport.offline
            "openshift/assisted-installer/controller" (.commits 20) ()).map (·.url) = [url] ∧
        url.target = "/api/v3/repos/openshift/assisted-installer/commits?per_page=20" := by
  have readable : Url.parse? ("https://ghe.example.com/api/v3" ++ "/") =
      some ⟨true, "ghe.example.com", none, ["api", "v3", ""], none, none⟩ := by decide +kernel
  have accepted : RepositoryId.parse "openshift/assisted-installer/controller" =
      .ok ⟨"openshift", "assisted-installer", some "controller"⟩ := by decide +kernel
  obtain ⟨url, hsent, -, hstays⟩ := stays_in_repository_iff ⟨"https://ghe.example.com/api/v3", none⟩
    readable accepted (.commits 20) rfl Transport.offline ()
  exact ⟨readable, accepted, rfl, url, hsent, (hstays.2 (by decide)).2.2⟩

/-- A name that is `..` once its `.git` is dropped takes the request out of its repository. -/
theorem leaves_repository_of_dots :
    ¬ ∀ (repository : String) (id : RepositoryId) (call : ApiCall),
      RepositoryId.parse repository = .ok id → call.hasFixedEnding = true →
      ∀ request ∈ (⟨defaultBase, none⟩ : ForgeApi).sent Transport.offline repository call (),
        request.url.target = "/repos/" ++ id.owner ++ "/" ++ id.name ++ call.ending := by
  intro h
  have hcommits := h "o/...git" ⟨"o", "..", none⟩ (.commits 20) (by decide +kernel) rfl
  exact absurd hcommits (by decide +kernel)

end ForgeApi

end ReleaseCandidates
