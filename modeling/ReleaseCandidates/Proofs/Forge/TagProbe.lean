import ReleaseCandidates.Proofs.Forge.Requests

set_option autoImplicit false

/-! # Which tag a look for a tag asks about

The name of a tag is put into the address piece by piece, each piece encoded. So it can be read off
the path again (`AsksForTag`), with one exception: a piece `.` or `..` stands for itself and is
resolved away when the address is read, and the path is then one that other names have too. Asked in
the right way, different tags have different paths.

Main statement: `ForgeApi.probe_asks_for_tag_iff`. -/

namespace ReleaseCandidates

open Http (Transport Url)

/-- Whether no piece of a name is resolved away when it stands in a path. -/
def HasNoDots (tag : String) : Prop :=
  ∀ piece ∈ Text.split '/' tag.toList, piece ≠ ['.'] ∧ piece ≠ ['.', '.']
  deriving Decidable

/-- An address below the service asks for a tag of a repository: behind the path of the repository's
tags stand segments which read, decoded, as the pieces of the name. -/
def AsksForTag (root : Url) (id : RepositoryId) (tag : String) (url : Url) : Prop :=
  ∃ segments pieces : List String,
    url.path = root.path ++ "repos/" ++ id.owner ++ "/" ++ id.name ++ "/git/ref/tags/" ++
      String.intercalate "/" segments ∧
    (∀ segment ∈ segments, '/' ∉ segment.toList) ∧
    segments.mapM Http.Percent.decode? = some pieces ∧
    String.intercalate "/" pieces = tag

/-! ## Encoded pieces -/

/-- Every piece for a call about a tag is the encoding of a text without slashes. -/
theorem ForgeApi.exists_encoded_of_mem_piecesFor {repository : String} {id : RepositoryId}
    (h : RepositoryId.parse repository = .ok id) {tag : String} {piece : List Char}
    (hpiece : piece ∈ piecesFor id (.tagRef tag)) :
    ∃ cs, piece = Http.Percent.encodeChars cs ∧ '/' ∉ cs := by
  have hplain : ∀ {cs : List Char}, cs.all Http.Percent.isPlain = true →
      ∃ ds, cs = Http.Percent.encodeChars ds ∧ '/' ∉ ds := by
    intro cs hcs
    rw [List.all_eq_true] at hcs
    refine ⟨cs, (Http.Percent.encodeChars_of_plain hcs).symm, fun hslash => ?_⟩
    exact absurd (hcs '/' hslash) (by decide)
  simp only [piecesFor, ApiCall.pieces, List.mem_cons, List.mem_append, List.not_mem_nil, or_false]
    at hpiece
  rcases hpiece with rfl | rfl | rfl | (rfl | rfl | rfl) | hpiece
  · exact hplain (by decide)
  · exact hplain (List.all_eq_true.2 (RepositoryId.isPlain_of_mem_owner h))
  · exact hplain (List.all_eq_true.2 (RepositoryId.isPlain_of_mem_name h))
  · exact hplain (by decide)
  · exact hplain (by decide)
  · exact hplain (by decide)
  · obtain ⟨cs, hcs, rfl⟩ := List.mem_map.1 hpiece
    exact ⟨cs, rfl, Text.not_mem_of_mem_split hcs⟩

/-- What encoded texts are decoded to has the properties of these texts. -/
theorem forall_mem_of_mapM_decode? {p : List Char → Prop} {segments pieces : List String}
    (h : ∀ segment ∈ segments, ∃ cs, segment.toList = Http.Percent.encodeChars cs ∧ p cs)
    (hdecode : segments.mapM Http.Percent.decode? = some pieces) :
    ∀ piece ∈ pieces, p piece.toList := by
  induction segments generalizing pieces with
  | nil =>
    cases hdecode
    simp
  | cons segment segments ih =>
    obtain ⟨⟨cs, hsegment, hp⟩, hsegments⟩ := List.forall_mem_cons.1 h
    have hfirst : Http.Percent.decode? segment = some (String.ofList cs) := by
      rw [← String.ofList_toList (s := segment), hsegment, Http.Percent.decode?_encodeChars]
    rw [List.mapM_cons, hfirst] at hdecode
    cases hrest : segments.mapM Http.Percent.decode? with
    | none =>
      rw [hrest] at hdecode
      cases hdecode
    | some rest =>
      rw [hrest] at hdecode
      cases hdecode
      rw [List.forall_mem_cons, String.toList_ofList]
      exact ⟨hp, ih hsegments hrest⟩

theorem mapM_decode?_encodeChars (css : List (List Char)) :
    (css.map fun cs => String.ofList (Http.Percent.encodeChars cs)).mapM Http.Percent.decode? =
      some (css.map String.ofList) := by
  induction css with
  | nil => rfl
  | cons cs css ih =>
    rw [List.map_cons, List.mapM_cons, Http.Percent.decode?_encodeChars, ih]
    rfl

/-! ## Paths that ask for a tag -/

namespace ForgeApi

/-- The pieces of the path below which a repository keeps its tags. -/
def tagsOf (id : RepositoryId) : List (List Char) :=
  ["repos".toList, id.owner.toList, id.name.toList, "git".toList, "ref".toList, "tags".toList]

theorem piecesFor_tagRef (id : RepositoryId) (tag : String) : piecesFor id (.tagRef tag) =
    tagsOf id ++ (Text.split '/' tag.toList).map Http.Percent.encodeChars :=
  rfl

/-- The text of a path that asks for a tag, in pieces. -/
theorem toList_tagAddress (start : String) (id : RepositoryId) {segments : List String}
    (hne : segments ≠ []) :
    (start ++ "repos/" ++ id.owner ++ "/" ++ id.name ++ "/git/ref/tags/" ++
        String.intercalate "/" segments).toList =
      start.toList ++ Text.join '/' (tagsOf id ++ segments.map String.toList) := by
  have hmap : segments.map String.toList ≠ [] := fun h => hne (List.map_eq_nil_iff.1 h)
  have hstart : tagsOf id ≠ [] := List.cons_ne_nil _ _
  have hjoin : Text.join '/' (tagsOf id) = "repos".toList ++ '/' :: (id.owner.toList ++ '/' ::
      (id.name.toList ++ '/' :: "git/ref/tags".toList)) := rfl
  have hrepos : "repos/".toList = "repos".toList ++ ['/'] := by decide
  have hslash : "/".toList = ['/'] := by decide
  have htags : "/git/ref/tags/".toList = '/' :: "git/ref/tags".toList ++ ['/'] := by decide
  rw [Text.join_append '/' hstart hmap, hjoin]
  simp only [String.toList_append, Url.toList_intercalate_slash, hrepos, hslash, htags,
    List.append_assoc, List.cons_append, List.nil_append]

section Accepted

variable {root : Url} {above : List (List Char)} {repository : String} {id : RepositoryId}

/-- A name without dots is asked for by a path that keeps all of its pieces. -/
theorem resolveFrom_tagRef (h : RepositoryId.parse repository = .ok id)
    (ordinary : RepositoryId.IsOrdinary id.name) {tag : String} (hdots : HasNoDots tag)
    (above : List (List Char)) :
    Url.resolveFrom above (piecesFor id (.tagRef tag)) = above ++ piecesFor id (.tagRef tag) := by
  refine Url.resolveFrom_of_no_dots above ?_
  have hstart := isDots_of_mem_start h
  have hname := RepositoryId.isDots_eq_false (RepositoryId.isPlain_of_mem_name h) ordinary
  have hends : ∀ piece ∈ ["git".toList, "ref".toList, "tags".toList],
      Url.isDots piece = false := by decide
  have hpieces : ∀ piece ∈ (Text.split '/' tag.toList).map Http.Percent.encodeChars,
      Url.isDots piece = false := by
    intro piece hpiece
    obtain ⟨cs, hcs, rfl⟩ := List.mem_map.1 hpiece
    exact Url.isDots_encodeChars.2 (hdots cs hcs)
  rw [piecesFor_tagRef]
  intro piece hpiece
  rcases List.mem_append.1 hpiece with hpiece | hpiece
  · simp only [tagsOf, List.mem_cons, List.not_mem_nil, or_false] at hpiece
    simp only [List.forall_mem_cons] at hstart hends
    rcases hpiece with rfl | rfl | rfl | rfl | rfl | rfl
    · exact hstart.1
    · exact hstart.2.1
    · exact hname
    · exact hends.1
    · exact hends.2.1
    · exact hends.2.2.1
  · exact hpieces piece hpiece

theorem asksForTag_of_kept
    (hroot : root.segments = (above ++ [[]]).map (Url.encodeClass Url.isEncodedInPath))
    (h : RepositoryId.parse repository = .ok id) (tag : String) (query : Option String) :
    AsksForTag root id tag { root with
      segments := (above ++ piecesFor id (.tagRef tag)).map (Url.encodeClass Url.isEncodedInPath)
      query := query } := by
  have hne : Text.split '/' tag.toList ≠ [] := Text.split_ne_nil '/' tag.toList
  refine ⟨(Text.split '/' tag.toList).map fun cs => String.ofList (Http.Percent.encodeChars cs),
    (Text.split '/' tag.toList).map String.ofList, ?_, ?_, mapM_decode?_encodeChars _, ?_⟩
  · rw [Url.path_below hroot (piecesFor_ne_nil id _) (isInert_of_mem_piecesFor h (.tagRef tag))]
    apply String.toList_inj.1
    rw [toList_tagAddress root.path id (by simpa using hne), List.map_map, String.toList_append,
      String.toList_ofList, piecesFor_tagRef]
    simp only [Function.comp_def, String.toList_ofList]
  · intro segment hsegment
    obtain ⟨cs, -, rfl⟩ := List.mem_map.1 hsegment
    rw [String.toList_ofList]
    intro hslash
    exact absurd (Http.Percent.isEncodedChar_of_mem_encodeChars hslash) (by decide)
  · apply String.toList_inj.1
    rw [Url.toList_intercalate_slash, List.map_map]
    simp only [Function.comp_def, String.toList_ofList, List.map_id']
    exact Text.join_split '/' tag.toList

/-- What is behind the tags of the repository in a resolved path was not resolved away. -/
theorem mem_of_path_eq (hslash : ∀ segment ∈ root.segments, '/' ∉ segment.toList)
    (hroot : root.segments = (above ++ [[]]).map (Url.encodeClass Url.isEncodedInPath))
    (h : RepositoryId.parse repository = .ok id) {tag : String} {query : Option String}
    {segments : List String} (hne : segments ≠ [])
    (hsegments : ∀ segment ∈ segments, '/' ∉ segment.toList)
    (hpath : Url.path { root with
        segments := (Url.resolveFrom above (piecesFor id (.tagRef tag))).map
          (Url.encodeClass Url.isEncodedInPath)
        query := query } =
      root.path ++ "repos/" ++ id.owner ++ "/" ++ id.name ++ "/git/ref/tags/" ++
        String.intercalate "/" segments) :
    ∀ segment ∈ segments, segment.toList = [] ∨
      segment.toList ∈ piecesFor id (.tagRef tag) ∧ Url.isDots segment.toList = false := by
  obtain ⟨n, kept, heq, hkept⟩ := Url.exists_resolveFrom_eq above (piecesFor id (.tagRef tag))
  have hinert := isInert_of_mem_piecesFor h (.tagRef tag)
  have hkeptInert : ∀ piece ∈ kept, ∀ c ∈ piece, Url.isInert c = true := by
    intro piece hpiece
    rcases hkept piece hpiece with rfl | ⟨hmem, -⟩
    · simp
    · exact hinert piece hmem
  have hnotNil : above.take n ++ kept ≠ [] := by
    rw [← heq]
    exact Url.resolveFrom_ne_nil above (piecesFor_ne_nil id _)
  have hrestSlash : ∀ piece ∈ tagsOf id ++ segments.map String.toList, '/' ∉ piece := by
    intro piece hpiece
    rcases List.mem_append.1 hpiece with hpiece | hpiece
    · refine Url.slash_not_mem_of_inert hinert piece ?_
      rw [piecesFor_tagRef]
      exact List.mem_append_left _ hpiece
    · obtain ⟨segment, hsegment, rfl⟩ := List.mem_map.1 hpiece
      exact hsegments segment hsegment
  have htext : root.path ++ "repos/" ++ id.owner ++ "/" ++ id.name ++ "/git/ref/tags/" ++
        String.intercalate "/" segments =
      root.path ++ String.ofList (Text.join '/' (tagsOf id ++ segments.map String.toList)) := by
    rw [← String.toList_inj, toList_tagAddress root.path id hne, String.toList_append,
      String.toList_ofList]
  rw [heq, htext] at hpath
  have hsuffix : tagsOf id ++ segments.map String.toList <:+ kept :=
    Url.suffix_of_path_eq hslash hroot hnotNil hkeptInert (by simp [tagsOf]) hrestSlash hpath
  intro segment hsegment
  exact hkept segment.toList (hsuffix.subset
    (List.mem_append_right _ (List.mem_map_of_mem hsegment)))

/-- Only a name without dots is asked for by the path that its pieces are resolved to. -/
theorem hasNoDots_of_asksForTag (hslash : ∀ segment ∈ root.segments, '/' ∉ segment.toList)
    (hroot : root.segments = (above ++ [[]]).map (Url.encodeClass Url.isEncodedInPath))
    (h : RepositoryId.parse repository = .ok id) {tag : String} {query : Option String}
    (hasks : AsksForTag root id tag { root with
      segments := (Url.resolveFrom above (piecesFor id (.tagRef tag))).map
        (Url.encodeClass Url.isEncodedInPath)
      query := query }) : HasNoDots tag := by
  obtain ⟨segments, pieces, hpath, hsegments, hdecode, rfl⟩ := hasks
  by_cases hpiecesNe : pieces = []
  · -- the name is empty
    rw [hpiecesNe]
    decide
  have hne : segments ≠ [] := by
    rintro rfl
    cases hdecode
    exact hpiecesNe rfl
  have hencoded : ∀ segment ∈ segments, ∃ cs, segment.toList = Http.Percent.encodeChars cs ∧
      '/' ∉ cs ∧ cs ≠ ['.'] ∧ cs ≠ ['.', '.'] := by
    intro segment hsegment
    rcases mem_of_path_eq hslash hroot h hne hsegments hpath segment hsegment with
      hnil | ⟨hmem, hdots⟩
    · exact ⟨[], hnil, by simp⟩
    · obtain ⟨cs, hcs, hcsSlash⟩ := exists_encoded_of_mem_piecesFor h hmem
      rw [hcs, Url.isDots_encodeChars] at hdots
      exact ⟨cs, hcs, hcsSlash, hdots⟩
  have hpieces := forall_mem_of_mapM_decode? hencoded hdecode
  have hsplit : Text.split '/' (String.intercalate "/" pieces).toList =
      pieces.map String.toList := by
    rw [Url.toList_intercalate_slash]
    refine Text.split_join (by simpa using hpiecesNe) ?_
    simpa using fun piece hpiece => (hpieces piece hpiece).1
  rw [HasNoDots, hsplit]
  intro piece hpiece
  obtain ⟨text, htext, rfl⟩ := List.mem_map.1 hpiece
  exact (hpieces text htext).2

/-- Paths that were not shortened tell the repository and the name. -/
theorem eq_of_piecesFor_eq {id' : RepositoryId} {tag tag' : String}
    (h : piecesFor id (.tagRef tag) = piecesFor id' (.tagRef tag')) :
    id.owner = id'.owner ∧ id.name = id'.name ∧ tag = tag' := by
  obtain ⟨howner, hrest⟩ := List.cons.inj (List.cons.inj h).2
  obtain ⟨hname, hpieces⟩ := List.cons.inj hrest
  have hsplit := List.map_injective_iff.2 (fun _ _ => Http.Percent.encodeChars_injective)
    (List.append_cancel_left hpieces)
  refine ⟨String.toList_inj.1 howner, String.toList_inj.1 hname, String.toList_inj.1 ?_⟩
  rw [← Text.join_split '/' tag.toList, hsplit, Text.join_split]

theorem eq_of_path_eq
    (hroot : root.segments = (above ++ [[]]).map (Url.encodeClass Url.isEncodedInPath))
    {repository' : String} {id' : RepositoryId} (h : RepositoryId.parse repository = .ok id)
    (h' : RepositoryId.parse repository' = .ok id') {tag tag' : String}
    {query query' : Option String}
    (heq : Url.path { root with
        segments := (above ++ piecesFor id (.tagRef tag)).map (Url.encodeClass Url.isEncodedInPath)
        query := query } =
      Url.path { root with
        segments := (above ++ piecesFor id' (.tagRef tag')).map
          (Url.encodeClass Url.isEncodedInPath)
        query := query' }) :
    id.owner = id'.owner ∧ id.name = id'.name ∧ tag = tag' := by
  have hinert := isInert_of_mem_piecesFor h (.tagRef tag)
  have hinert' := isInert_of_mem_piecesFor h' (.tagRef tag')
  rw [Url.path_below hroot (piecesFor_ne_nil id _) hinert,
    Url.path_below hroot (piecesFor_ne_nil id' _) hinert', ← String.toList_inj,
    String.toList_append, String.toList_append, String.toList_ofList, String.toList_ofList] at heq
  exact eq_of_piecesFor_eq (Text.join_injective (piecesFor_ne_nil id _) (piecesFor_ne_nil id' _)
    (Url.slash_not_mem_of_inert hinert) (Url.slash_not_mem_of_inert hinert')
    (List.append_cancel_left heq))

/-- A path that is that of the service asks for no tag. -/
theorem not_asksForTag_of_segments_eq {url : Url} (hsegments : url.segments = root.segments)
    (tag : String) : ¬ AsksForTag root id tag url := by
  rintro ⟨segments, pieces, hpath, -⟩
  have hlength := congrArg String.length hpath
  rw [Url.path, hsegments, ← Url.path] at hlength
  have hrepos : "repos/".length = 6 := by decide
  simp only [String.length_append, hrepos] at hlength
  omega

end Accepted

variable {τ : Type}

/-- A look for a tag of an ordinary repository sends one request, to the server of the service. It
asks for this tag of this repository exactly if the address of the service is all path and no piece
of the name is resolved away; and no two looks of this kind have the same path, unless they are for
one tag of one repository. -/
theorem probe_asks_for_tag_iff (api : ForgeApi) {root : Url}
    (readable : Url.parse? (api.base ++ "/") = some root) (transport : Transport τ)
    {repository : String} {id : RepositoryId} (accepted : RepositoryId.parse repository = .ok id)
    (ordinary : RepositoryId.IsOrdinary id.name) (tag : String) (s : τ) :
    ∃ url, (api.sent transport repository (.tagRef tag) s).map (·.url) =
        (if api.canAsk (.tagRef tag) then [url] else []) ∧
      url.place = root.place ∧
      (AsksForTag root id tag url ↔ root.isAllPath = true ∧ HasNoDots tag) ∧
      (root.isAllPath = true → HasNoDots tag →
        ∀ (repository' : String) (id' : RepositoryId) (tag' : String) (s' : τ),
          RepositoryId.parse repository' = .ok id' → RepositoryId.IsOrdinary id'.name →
          HasNoDots tag' →
          ∀ request ∈ api.sent transport repository' (.tagRef tag') s',
            request.url.path = url.path →
            id'.owner = id.owner ∧ id'.name = id.name ∧ tag' = tag) := by
  cases hpath : root.isAllPath with
  | false =>
    obtain ⟨url, hurl, hplace, hsegments, -⟩ :=
      exists_url?_behind readable hpath accepted (.tagRef tag)
    refine ⟨url, map_url_sent_of_url? hurl transport s, hplace, iff_of_false ?_ (by simp), ?_⟩
    · exact not_asksForTag_of_segments_eq hsegments tag
    · intro hfalse
      cases hfalse
  | true =>
    obtain ⟨above, hroot, hurl⟩ := exists_url?_below readable hpath
    refine ⟨_, map_url_sent_of_url? (hurl (.tagRef tag) accepted) transport s, rfl, ?_, ?_⟩
    · constructor
      · intro hasks
        exact ⟨rfl,
          hasNoDots_of_asksForTag (Url.slash_not_mem_segments readable) hroot accepted hasks⟩
      · rintro ⟨-, hdots⟩
        rw [resolveFrom_tagRef accepted ordinary hdots]
        exact asksForTag_of_kept hroot accepted tag _
    · intro _ hdots repository' id' tag' s' accepted' ordinary' hdots' request hrequest hsame
      rw [url_of_mem_sent (hurl (.tagRef tag') accepted') hrequest,
        resolveFrom_tagRef accepted ordinary hdots, resolveFrom_tagRef accepted' ordinary' hdots']
        at hsame
      exact eq_of_path_eq hroot accepted' accepted hsame

/-- The address of the service itself, where nothing else is configured. -/
def defaultRoot : Url :=
  ⟨true, "api.github.com", none, [""], none, none⟩

theorem parse?_defaultBase : Url.parse? (defaultBase ++ "/") = some defaultRoot := by
  decide +kernel

/-- A name in two pieces, one of which has a blank, on a repository that publishes several
artifacts. -/
theorem probe_asks_for_tag_in_pieces :
    Url.parse? (defaultBase ++ "/") = some defaultRoot ∧
      RepositoryId.parse "openshift/assisted-installer/controller" =
        .ok ⟨"openshift", "assisted-installer", some "controller"⟩ ∧
      RepositoryId.IsOrdinary "assisted-installer" ∧ HasNoDots "api/v1 beta" ∧
      ∃ url, ((⟨defaultBase, none⟩ : ForgeApi).sent Transport.offline
            "openshift/assisted-installer/controller" (.tagRef "api/v1 beta") ()).map (·.url) =
          [url] ∧
        AsksForTag defaultRoot ⟨"openshift", "assisted-installer", some "controller"⟩ "api/v1 beta"
          url := by
  have accepted : RepositoryId.parse "openshift/assisted-installer/controller" =
      .ok ⟨"openshift", "assisted-installer", some "controller"⟩ := by decide +kernel
  have ordinary : RepositoryId.IsOrdinary "assisted-installer" := by decide
  have hdots : HasNoDots "api/v1 beta" := by decide
  obtain ⟨url, hsent, -, hasks, -⟩ := probe_asks_for_tag_iff ⟨defaultBase, none⟩ parse?_defaultBase
    Transport.offline accepted ordinary "api/v1 beta" ()
  exact ⟨parse?_defaultBase, accepted, ordinary, hdots, url, hsent, hasks.2 ⟨by decide, hdots⟩⟩

/-- The look for the tag `x/../v1` does not ask for it: its request is the one for the tag `v1`. -/
theorem probe_misled_by_dots :
    RepositoryId.parse "o/r" = .ok ⟨"o", "r", none⟩ ∧ RepositoryId.IsOrdinary "r" ∧
      ∃ url, ((⟨defaultBase, none⟩ : ForgeApi).sent Transport.offline "o/r"
            (.tagRef "x/../v1") ()).map (·.url) = [url] ∧
        ¬ AsksForTag defaultRoot ⟨"o", "r", none⟩ "x/../v1" url ∧
        ((⟨defaultBase, none⟩ : ForgeApi).sent Transport.offline "o/r"
            (.tagRef "v1") ()).map (·.url) = [url] := by
  have accepted : RepositoryId.parse "o/r" = .ok ⟨"o", "r", none⟩ := by decide +kernel
  refine ⟨accepted, by decide, { defaultRoot with
    segments := (Url.resolveFrom [] (piecesFor ⟨"o", "r", none⟩ (.tagRef "x/../v1"))).map
      (Url.encodeClass Url.isEncodedInPath)
    query := none }, by decide +kernel, ?_, by decide +kernel⟩
  intro hasks
  have hdots := hasNoDots_of_asksForTag (by decide) rfl accepted hasks
  exact absurd hdots (by decide)

end ForgeApi

end ReleaseCandidates
