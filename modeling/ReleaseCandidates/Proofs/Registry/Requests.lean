import ReleaseCandidates.Proofs.Forge.Requests
import ReleaseCandidates.Proofs.Http.Hosts
import ReleaseCandidates.Proofs.Http.Paths
import ReleaseCandidates.Proofs.ImageReference.Reading
import ReleaseCandidates.Registry

set_option autoImplicit false

/-! # The requests of the registry's client

The look for a manifest puts one request to the transport, or none (`Registry.sent_eq`). If the host
of the image names a server, there is a request, and it goes to this server
(`Registry.parse?_manifestAddress`). -/

namespace ReleaseCandidates

open Http (Percent.encodeChars Request Transport Url)

namespace Registry

variable {τ : Type}

/-- The requests that are sent for the manifest of an image under a tag. -/
def sent (transport : Transport τ) (image tag : String) (s : τ) : List Request :=
  (manifest transport.recorded image tag ⟨s, []⟩).2.requests

/-- The request for a manifest, if the look for it gets that far. -/
def request? (image tag : String) : Option Request :=
  (ImageReference.parse image).toOption.bind fun reference => (request reference tag).toOption

/-- The look for a manifest sends its one request, or nothing. -/
theorem sent_eq (transport : Transport τ) (image tag : String) (s : τ) :
    sent transport image tag s = (request? image tag).toList := by
  rw [sent, request?, manifest]
  cases ImageReference.parse image with
  | error problem => rfl
  | ok reference =>
    simp only [Except.toOption, Option.bind_some]
    cases request reference tag with
    | error fault => rfl
    | ok request =>
      simp only [Transport.recorded, bind, StateT.bind]
      rcases transport request s with ⟨fault | response, s'⟩ <;> rfl

/-- The request for what an address leads to. -/
def requestAt (url : Url) : Request where
  method := .head
  url := url
  headers := [("accept", acceptedKinds), ("user-agent", ForgeApi.userAgent)]
  body := none

variable {image tag : String} {reference : ImageReference}

theorem request_eq (reference : ImageReference) (tag : String) :
    (request reference tag).toOption =
      (Url.parse? (reference.manifestAddress tag)).map requestAt := by
  rw [request]
  cases Url.parse? (reference.manifestAddress tag) <;> rfl

theorem sent_of_parse (accepted : ImageReference.parse image = .ok reference)
    (transport : Transport τ) (tag : String) (s : τ) :
    sent transport image tag s =
      ((Url.parse? (reference.manifestAddress tag)).map requestAt).toList := by
  rw [sent_eq, request?, accepted, ← request_eq]
  rfl

end Registry

namespace ImageReference

variable {image : String} {r : ImageReference}

/-- The path to the manifests of an image, without the slash before it. -/
def manifests (path : List Char) : List Char :=
  "v2".toList ++ '/' :: (path ++ '/' :: "manifests".toList)

theorem toList_manifestPath (path segment : String) :
    ("/v2/" ++ path ++ "/manifests/" ++ segment).toList =
      '/' :: (manifests path.toList ++ '/' :: segment.toList) := by
  have hversion : "/v2/".toList = '/' :: ("v2".toList ++ ['/']) := by decide
  have hmanifests : "/manifests/".toList = '/' :: ("manifests".toList ++ ['/']) := by decide
  simp only [manifests, String.toList_append, hversion, hmanifests, List.append_assoc,
    List.cons_append, List.nil_append]

theorem toList_manifestAddress (r : ImageReference) (tag : String) :
    (r.manifestAddress tag).toList = "https://".toList ++ (r.host.toList ++
      '/' :: (manifests r.path.toList ++ '/' :: Http.Percent.encodeChars tag.toList)) := by
  have hpath := toList_manifestPath r.path (Http.Percent.encode tag)
  rw [Http.Percent.encode, String.toList_ofList] at hpath
  rw [← hpath, manifestAddress, Http.Percent.encode]
  simp only [String.toList_append, List.append_assoc]

theorem isBreak_of_not_isBlank {c : Char} (h : Text.isBlank c = false) : Url.isBreak c = false := by
  by_contra hbreak
  simp only [Url.isBreak, Bool.not_eq_false, Bool.or_eq_true, beq_iff_eq] at hbreak
  rcases hbreak with (rfl | rfl) | rfl <;> exact absurd h (by decide)

/-- What stands before the tag holds no line breaks. -/
theorem isBreak_of_mem_front (accepted : parse image = .ok r) :
    ∀ c ∈ "https://".toList ++ (r.host.toList ++ '/' :: manifests r.path.toList),
      Url.isBreak c = false := by
  have hread : ∀ c ∈ r.host.toList ++ r.path.toList, Url.isBreak c = false :=
    fun c hc => isBreak_of_not_isBlank (visible_of_parse accepted c hc).1
  have hfixed : ∀ c ∈ "https://".toList ++ ("v2".toList ++ "manifests".toList),
      Url.isBreak c = false :=
    fun c hc => isBreak_of_not_isBlank (Text.visible_of_all (by decide) c hc)
  intro c hc
  simp only [manifests, List.mem_append, List.mem_cons] at hc
  rcases hc with hc | hc | rfl | hc | rfl | hc | rfl | hc
  · exact hfixed c (List.mem_append_left _ hc)
  · exact hread c (List.mem_append_left _ hc)
  · rfl
  · exact hfixed c (List.mem_append_right _ (List.mem_append_left _ hc))
  · rfl
  · exact hread c (List.mem_append_right _ hc)
  · rfl
  · exact hfixed c (List.mem_append_right _ (List.mem_append_right _ hc))

/-- Nothing is dropped from the address of a manifest when it is read. -/
theorem clean_manifestAddress (accepted : parse image = .ok r) (tag : String) :
    Url.clean (r.manifestAddress tag).toList = (r.manifestAddress tag).toList := by
  have htag : ∀ c ∈ Http.Percent.encodeChars tag.toList, Url.isOuterBlank c = false := fun c hc =>
    (Url.isInert_iff.1 (Url.isInert_of_isEncodedChar
      (Http.Percent.isEncodedChar_of_mem_encodeChars hc))).1.1
  have hstart : ("https://".toList ++ (r.host.toList ++ '/' :: manifests r.path.toList)).dropWhile
      Url.isOuterBlank = "https://".toList ++ (r.host.toList ++ '/' :: manifests r.path.toList) :=
    List.dropWhile_cons_of_neg (by decide)
  have hkept : ("https://".toList ++ (r.host.toList ++ '/' :: manifests r.path.toList)).filter
      (fun c => !Url.isBreak c) =
        "https://".toList ++ (r.host.toList ++ '/' :: manifests r.path.toList) := by
    rw [List.filter_eq_self]
    intro c hc
    rw [isBreak_of_mem_front accepted c hc, Bool.not_false]
  have hwhole := Url.clean_slash
    ("https://".toList ++ (r.host.toList ++ '/' :: manifests r.path.toList)) htag
  rw [hstart, hkept] at hwhole
  simpa only [toList_manifestAddress, List.append_assoc, List.cons_append] using hwhole

/-- Where the host names a server, the address of a manifest leads to a path at this server. -/
theorem parse?_manifestAddress (accepted : parse image = .ok r) {name : String} {port : Option Nat}
    (hname : Url.authorityOf true r.host.toList = some (name, port)) (tag : String) :
    Url.parse? (r.manifestAddress tag) = some (Url.Place.address ⟨true, name, port⟩
      ('/' :: (manifests r.path.toList ++ '/' :: Http.Percent.encodeChars tag.toList))) := by
  have hasker : '@' ∉ r.host.toList := fun hmem =>
    (visible_of_parse accepted '@' (List.mem_append_left _ hmem)).2 rfl
  rw [Url.parse?_eq, clean_manifestAddress accepted, toList_manifestAddress,
    Url.place?_secure hname hasker]
  rfl

end ImageReference

end ReleaseCandidates
