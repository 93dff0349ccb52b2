import ReleaseCandidates.Proofs.Registry.Requests

set_option autoImplicit false

/-! # Which manifest is asked for

The address of a manifest holds the path of the image as it is, and the tag encoded. Whether it asks
for this manifest when it has been read is decided by the name and the tag
(`Registry.asks_for_manifest_iff`): the reader of addresses takes some of what an image name may
hold for something else. Two dots in a row are kept out of image names, but the same dots
percent-encoded are not, nor is a single dot, a backslash, or the mark of a query or a fragment.

An address that asks for a manifest asks for no other (`ImageReference.AsksForManifest.unique`). -/

namespace ReleaseCandidates

open Http (Transport Url)

namespace ImageReference

/-! ## The address of a manifest -/

/-- Whether an address asks the registry of an image for the manifest under a path and a tag. -/
structure AsksForManifest (r : ImageReference) (path tag : String) (url : Url) : Prop where
  secure : url.secure = true
  server : Url.authorityOf true r.host.toList = some (url.host, url.port)
  query : url.query = none
  path : ∃ segment : String, '/' ∉ segment.toList ∧ Http.Percent.decode? segment = some tag ∧
    url.path = "/v2/" ++ path ++ "/manifests/" ++ segment

/-- The path of an image as it is sent. -/
def sentPath (r : ImageReference) : String :=
  Url.encodeClass Url.isEncodedInPath r.path.toList

/-- When the address of a manifest is read as what it was made of. -/
structure IsAddressable (r : ImageReference) (tag : String) : Prop where
  host : (Url.authorityOf true r.host.toList).isSome = true
  path : Url.IsPath r.path.toList
  tag : tag ≠ "." ∧ tag ≠ ".."

variable {image tag : String} {r : ImageReference}

/-- The segments of the path to a manifest. -/
theorem split_manifests (path : List Char) {segment : List Char} (h : '/' ∉ segment) :
    Text.split '/' (manifests path ++ '/' :: segment) =
      "v2".toList :: (Text.split '/' path ++ ["manifests".toList, segment]) := by
  have hversion : Text.split '/' "v2".toList = ["v2".toList] := by decide
  have hmanifests : Text.split '/' "manifests".toList = ["manifests".toList] := by decide
  rw [Text.split_append, manifests, Text.split_append, Text.split_append, hversion, hmanifests,
    Text.split_of_not_mem h, List.append_assoc, List.append_assoc]
  rfl

/-- An address asks for one manifest only. -/
theorem AsksForManifest.unique {path path' tag' : String} {url : Url}
    (h : AsksForManifest r path tag url) (h' : AsksForManifest r path' tag' url) :
    path' = path ∧ tag' = tag := by
  obtain ⟨segment, hslash, hdecode, hpath⟩ := h.path
  obtain ⟨segment', hslash', hdecode', hpath'⟩ := h'.path
  have htexts := congrArg String.toList (hpath'.symm.trans hpath)
  rw [toList_manifestPath, toList_manifestPath] at htexts
  have hsegments := congrArg (Text.split '/') (List.cons.inj htexts).2
  rw [split_manifests _ hslash', split_manifests _ hslash] at hsegments
  obtain ⟨hpieces, hends⟩ := List.append_inj' (List.cons.inj hsegments).2 rfl
  refine ⟨?_, ?_⟩
  · rw [← String.toList_inj, ← Text.join_split '/' path'.toList, hpieces, Text.join_split]
  · have hsegment : segment' = segment := by
      rw [← String.toList_inj]
      simpa using hends
    rw [hsegment, hdecode] at hdecode'
    exact (Option.some.inj hdecode').symm

/-- The text behind the server is a path exactly if the path of the image and the tag are. -/
theorem isPath_manifests {path : List Char} :
    Url.IsPath (manifests path ++ '/' :: Http.Percent.encodeChars tag.toList) ↔
      Url.IsPath path ∧ tag ≠ "." ∧ tag ≠ ".." := by
  have hversion : Url.IsPath "v2".toList := ⟨by decide, by decide, by decide, by decide⟩
  have hmanifests : Url.IsPath "manifests".toList := ⟨by decide, by decide, by decide, by decide⟩
  have htag : (tag.toList ≠ ['.'] ∧ tag.toList ≠ ['.', '.']) ↔ tag ≠ "." ∧ tag ≠ ".." := by
    rw [ne_eq, ne_eq, ne_eq, ne_eq, ← String.toList_inj, ← String.toList_inj]
    rfl
  rw [Url.isPath_append_slash, manifests, Url.isPath_append_slash, Url.isPath_append_slash,
    Url.isPath_encodeChars, htag]
  simp only [hversion, hmanifests, true_and, and_true]

/-! ## What an asking address is made of -/

namespace AsksForManifest

variable {path : String} {url : Url}

/-- The segments of an address that asks for a manifest. -/
theorem segments (h : AsksForManifest r path tag url)
    (hurl : ∀ s ∈ url.segments, ∀ c ∈ s.toList, Url.isSlash c = false) : ∃ segment : String,
    Http.Percent.decode? segment = some tag ∧ url.segments.map String.toList =
      "v2".toList :: (Text.split '/' path.toList ++ ["manifests".toList, segment.toList]) := by
  obtain ⟨segment, hslash, hdecode, hpath⟩ := h.path
  refine ⟨segment, hdecode, ?_⟩
  have hkept : ∀ piece ∈ url.segments.map String.toList, '/' ∉ piece := by
    intro piece hpiece hmem
    obtain ⟨s, hs, rfl⟩ := List.mem_map.1 hpiece
    exact absurd (hurl s hs '/' hmem) (by decide)
  have htexts := congrArg String.toList hpath
  rw [Url.toList_path, toList_manifestPath] at htexts
  have hjoined := congrArg (Text.split '/') (List.cons.inj htexts).2
  rw [split_manifests _ hslash, Text.split_join ?_ hkept] at hjoined
  · exact hjoined
  · -- without segments the path would be too short
    intro hnil
    rw [hnil] at htexts
    exact absurd (congrArg List.length htexts) (by simp [Text.join, manifests])

/-- No address has a backslash in its path, so none is asked for. -/
theorem backslash_not_mem (h : AsksForManifest r path tag url)
    (hurl : ∀ s ∈ url.segments, ∀ c ∈ s.toList, Url.isSlash c = false) : '\\' ∉ path.toList := by
  obtain ⟨segment, -, hsegments⟩ := h.segments hurl
  intro hmem
  rw [← Text.join_split '/' path.toList] at hmem
  obtain hsep | ⟨piece, hpiece, hmem⟩ := Text.mem_join hmem
  · exact absurd hsep (by decide)
  · have hkept : piece ∈ url.segments.map String.toList := by
      rw [hsegments]
      exact List.mem_cons_of_mem _ (List.mem_append_left _ hpiece)
    obtain ⟨s, hs, rfl⟩ := List.mem_map.1 hkept
    exact absurd (hurl s hs _ hmem) (by decide)

theorem length_segments (h : AsksForManifest r path tag url)
    (hurl : ∀ s ∈ url.segments, ∀ c ∈ s.toList, Url.isSlash c = false) :
    url.segments.length = (Text.split '/' path.toList).length + 3 := by
  obtain ⟨segment, -, hsegments⟩ := h.segments hurl
  have hlength := congrArg List.length hsegments
  simpa using hlength

/-- Only the empty tag is asked for by an empty segment. -/
theorem tag_eq_of_getLast? (h : AsksForManifest r path tag url)
    (hurl : ∀ s ∈ url.segments, ∀ c ∈ s.toList, Url.isSlash c = false)
    (hempty : url.segments.getLast? = some "") : tag = "" := by
  obtain ⟨segment, hdecode, hsegments⟩ := h.segments hurl
  have hlast := congrArg List.getLast? hsegments
  rw [List.getLast?_map, hempty, ← List.cons_append, List.getLast?_append_of_ne_nil _ (by simp)]
    at hlast
  have hsegment : segment = "" := (String.toList_inj.1 (Option.some.inj hlast)).symm
  rw [hsegment] at hdecode
  exact (Option.some.inj hdecode).symm.trans rfl

end AsksForManifest

section Address

variable {name : String} {port : Option Nat}

/-- The address that is read where the host names a server. -/
def manifestUrl (r : ImageReference) (name : String) (port : Option Nat) (tag : String) : Url :=
  Url.Place.address ⟨true, name, port⟩
    ('/' :: (manifests r.path.toList ++ '/' :: Http.Percent.encodeChars tag.toList))

theorem encodeClass_manifests (path tag : List Char) :
    (Url.encodeClass Url.isEncodedInPath
        (manifests path ++ '/' :: Http.Percent.encodeChars tag)).toList =
      manifests (Url.encodeClass Url.isEncodedInPath path).toList ++
        '/' :: Http.Percent.encodeChars tag := by
  have hversion : (Url.encodeClass Url.isEncodedInPath "v2".toList).toList = "v2".toList := by
    decide
  have hmanifests : (Url.encodeClass Url.isEncodedInPath "manifests".toList).toList =
      "manifests".toList := by decide
  have htag : (Url.encodeClass Url.isEncodedInPath (Http.Percent.encodeChars tag)).toList =
      Http.Percent.encodeChars tag := by
    rw [Url.encodeClass_inert fun c hc => (Url.isInert_iff.1 (Url.isInert_of_isEncodedChar
      (Http.Percent.isEncodedChar_of_mem_encodeChars hc))).2.2.1, String.toList_ofList]
  rw [Url.toList_encodeClass_append, manifests, Url.toList_encodeClass_append,
    Url.toList_encodeClass_append, hversion, hmanifests, htag, manifests]

/-- What is addressable is asked for. -/
theorem asksForManifest_of_isPath (hname : Url.authorityOf true r.host.toList = some (name, port))
    (hpath : Url.IsPath r.path.toList) (htag : tag ≠ "." ∧ tag ≠ "..") :
    AsksForManifest r r.sentPath tag (r.manifestUrl name port tag) := by
  have hwhole := isPath_manifests.2 ⟨hpath, htag⟩
  have hurl := Url.address_of_isPath (p := ⟨true, name, port⟩) hwhole
  refine ⟨rfl, hname, congrArg Url.query hurl, Http.Percent.encode tag, ?_, ?_, ?_⟩
  · rw [Http.Percent.encode, String.toList_ofList]
    exact Http.Percent.not_mem_encodeChars (by decide) _
  · rw [Http.Percent.encode, Http.Percent.decode?_encodeChars, String.ofList_toList]
  · rw [← String.toList_inj, manifestUrl, Url.toList_path_of_isPath hwhole, encodeClass_manifests,
      toList_manifestPath, Http.Percent.encode, String.toList_ofList, sentPath]

/-- Only what is addressable is asked for, whether its path is written as it is sent or as it is. -/
theorem isPath_of_asksForManifest {path : String} (hspelled : path = r.sentPath ∨ path = r.path)
    (h : AsksForManifest r path tag (r.manifestUrl name port tag)) :
    Url.IsPath r.path.toList ∧ tag ≠ "." ∧ tag ≠ ".." := by
  have hurl : ∀ s ∈ (r.manifestUrl name port tag).segments, ∀ c ∈ s.toList,
      Url.isSlash c = false := Url.isSlash_of_mem_segmentsOf
  have htag : ∀ c, Http.Percent.isEncodedChar c = false →
      c ∉ Http.Percent.encodeChars tag.toList :=
    fun c hc => Http.Percent.not_mem_encodeChars hc _
  -- neither backslashes nor the number of segments depend on how the path is spelled
  have hback : '\\' ∉ r.path.toList := by
    rcases hspelled with rfl | rfl
    · exact fun hmem => h.backslash_not_mem hurl (Url.mem_encodeClass (by decide) hmem)
    · exact h.backslash_not_mem hurl
  have hpieces : (Text.split '/' path.toList).length = (Text.split '/' r.path.toList).length := by
    rcases hspelled with rfl | rfl
    · rw [sentPath, Url.split_encodeClass, List.length_map]
    · rfl
  refine isPath_manifests.1 (Url.isPath_of_length_segments ?_
    (Text.split_of_not_mem (htag '/' (by decide))) (htag '#' (by decide)) h.query ?_ ?_)
  · simp [manifests, hback, htag '\\' (by decide)]
  · refine Eq.ge ((h.length_segments hurl).trans ?_)
    rw [split_manifests _ (htag '/' (by decide)), hpieces]
    simp
  · intro hdots hempty
    rw [h.tag_eq_of_getLast? hurl hempty] at hdots
    exact absurd hdots (by decide)

/-- Where the host names a server, the manifest is asked for exactly if it is addressable. -/
theorem asksForManifest_iff (hname : Url.authorityOf true r.host.toList = some (name, port)) :
    AsksForManifest r r.sentPath tag (r.manifestUrl name port tag) ↔ r.IsAddressable tag := by
  constructor
  · intro h
    obtain ⟨hpath, htag⟩ := isPath_of_asksForManifest (.inl rfl) h
    exact ⟨by rw [hname]; rfl, hpath, htag⟩
  · rintro ⟨-, hpath, htag⟩
    exact asksForManifest_of_isPath hname hpath htag

/-- Its path is asked for as it is written exactly if it is sent so. -/
theorem asksForManifest_written_iff
    (hname : Url.authorityOf true r.host.toList = some (name, port)) :
    AsksForManifest r r.path tag (r.manifestUrl name port tag) ↔
      r.IsAddressable tag ∧ r.sentPath = r.path := by
  constructor
  · intro h
    obtain ⟨hpath, htag⟩ := isPath_of_asksForManifest (.inr rfl) h
    have hsent := asksForManifest_of_isPath hname hpath htag
    exact ⟨⟨by rw [hname]; rfl, hpath, htag⟩, (h.unique hsent).1⟩
  · rintro ⟨haddressable, hsent⟩
    exact hsent ▸ (asksForManifest_iff hname).2 haddressable

end Address

end ImageReference

namespace Registry

open ImageReference (AsksForManifest IsAddressable)

variable {τ : Type} {image : String} {reference : ImageReference}

/-- If the host of an accepted image names a server, one request is sent for a manifest. A request
that is sent asks this server for the manifest of the image under the tag exactly if both are
addressable, with the path as it is written exactly if nothing in it has to be encoded; and then it
asks for no other manifest. -/
theorem asks_for_manifest_iff (transport : Transport τ)
    (accepted : ImageReference.parse image = .ok reference) (tag : String) (s : τ) :
    ((Url.authorityOf true reference.host.toList).isSome = true →
      (sent transport image tag s).length = 1) ∧
    ∀ request ∈ sent transport image tag s, request.method = .head ∧
      (AsksForManifest reference reference.sentPath tag request.url ↔
        reference.IsAddressable tag) ∧
      (AsksForManifest reference reference.path tag request.url ↔
        reference.IsAddressable tag ∧ reference.sentPath = reference.path) ∧
      (reference.IsAddressable tag → ∀ path tag',
        AsksForManifest reference path tag' request.url → path = reference.sentPath ∧ tag' = tag) := by
  rw [sent_of_parse accepted]
  cases hname : Url.authorityOf true reference.host.toList with
  | none =>
    refine ⟨fun h => absurd h Bool.false_ne_true, fun request hrequest => ?_⟩
    obtain ⟨url, -, rfl⟩ := Option.map_eq_some_iff.1 (Option.mem_toList.1 hrequest)
    have hnot : ∀ path tag', ¬ AsksForManifest reference path tag' (requestAt url).url := by
      intro path tag' h
      cases hname.symm.trans h.server
    have hunaddressable : ¬ reference.IsAddressable tag := by
      intro h
      exact absurd h.host (by simp [hname])
    exact ⟨rfl, iff_of_false (hnot _ _) hunaddressable,
      iff_of_false (hnot _ _) fun h => hunaddressable h.1, fun h => absurd h hunaddressable⟩
  | some server =>
    obtain ⟨name, port⟩ := server
    rw [ImageReference.parse?_manifestAddress accepted hname]
    refine ⟨fun _ => rfl, fun request hrequest => ?_⟩
    obtain rfl := List.mem_singleton.1 hrequest
    have hasks : AsksForManifest reference reference.sentPath tag _ ↔ reference.IsAddressable tag :=
      ImageReference.asksForManifest_iff hname
    exact ⟨rfl, hasks, ImageReference.asksForManifest_written_iff hname,
      fun h path tag' h' => (hasks.2 h).unique h'⟩

/-- The manifest of an image at a registry with a port of its own. -/
theorem asks_for_manifest_at_port :
    ImageReference.parse "localhost:5000/team/app" = .ok ⟨"localhost:5000", "team/app"⟩ ∧
      (sent Transport.offline "localhost:5000/team/app" "latest-c1" ()).length = 1 ∧
      ∀ request ∈ sent Transport.offline "localhost:5000/team/app" "latest-c1" (),
        AsksForManifest ⟨"localhost:5000", "team/app"⟩ "team/app" "latest-c1" request.url := by
  have accepted : ImageReference.parse "localhost:5000/team/app" =
      .ok ⟨"localhost:5000", "team/app"⟩ := by decide +kernel
  have addressable : IsAddressable ⟨"localhost:5000", "team/app"⟩ "latest-c1" :=
    ⟨by decide +kernel, ⟨by decide, by decide, by decide, by decide⟩, by decide⟩
  obtain ⟨hone, hasks⟩ := asks_for_manifest_iff Transport.offline accepted "latest-c1" ()
  exact ⟨accepted, hone addressable.host, fun request hrequest =>
    (hasks request hrequest).2.2.1.2 ⟨addressable, by decide +kernel⟩⟩

/-- Two dots that are percent-encoded take the request to the manifest of another image. -/
theorem leaves_image_of_encoded_dots :
    (sent Transport.offline "quay.io/org/%2e%2e/secret" "latest-c1" ()).map (·.url.text) =
        ["https://quay.io/v2/secret/manifests/latest-c1"] ∧
      ¬ ∀ (image tag : String) (reference : ImageReference),
        ImageReference.parse image = .ok reference →
        ∀ request ∈ sent Transport.offline image tag (),
          AsksForManifest reference reference.path tag request.url := by
  have hsent : sent Transport.offline "quay.io/org/%2e%2e/secret" "latest-c1" () = [requestAt
      ⟨true, "quay.io", none, ["v2", "secret", "manifests", "latest-c1"], none, none⟩] := by
    decide +kernel
  refine ⟨by rw [hsent]; decide +kernel, fun h => ?_⟩
  have hasks := h "quay.io/org/%2e%2e/secret" "latest-c1" ⟨"quay.io", "org/%2e%2e/secret"⟩
    (by decide +kernel) _ (hsent ▸ List.mem_singleton_self _)
  obtain ⟨segment, -, -, hpath⟩ := hasks.path
  have hstart : ("/v2/" ++ "org/%2e%2e/secret").toList <+:
      "/v2/secret/manifests/latest-c1".toList := by
    refine ⟨("/manifests/" ++ segment).toList, ?_⟩
    rw [← String.toList_append, ← String.append_assoc, ← hpath]
    rfl
  exact absurd hstart (by decide)

end Registry

end ReleaseCandidates
