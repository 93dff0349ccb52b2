import ReleaseCandidates.Proofs.ImageReference.Reading
import ReleaseCandidates.Proofs.Resolution.Probes
import ReleaseCandidates.Registry

set_option autoImplicit false

/-! # The image that is recorded

A component for an image that was found at the live registry was found by a probe: a request was
sent for the image, as it was read, and answered with a manifest (`Resolution.exists_probe_of_live`).
Blanks around the name of the image are dropped when it is read, but the component repeats the name
as it is written. So it names what was probed exactly if the name is written without blanks
(`Resolution.recorded_as_probed_iff`). -/

namespace ReleaseCandidates

open Http (Request Response Transport)

namespace Registry

variable {τ : Type} {transport : Transport τ} {image tag : String} {s s' : τ} {found : Manifest}

/-- What it takes to find a manifest. -/
theorem manifest_eq_found (h : manifest transport image tag s = (.ok (some found), s')) :
    ∃ reference request' response, ImageReference.parse image = .ok reference ∧
      request reference tag = .ok request' ∧ transport request' s = (.ok response, s') ∧
      manifestOf response = some found := by
  rw [manifest] at h
  cases hparse : ImageReference.parse image with
  | error problem =>
    rw [hparse] at h
    cases h
  | ok reference =>
    simp only [hparse] at h
    cases hrequest : request reference tag with
    | error fault =>
      rw [hrequest] at h
      cases h
    | ok request' =>
      simp only [hrequest, bind, StateT.bind] at h
      rcases hanswer : transport request' s with ⟨fault | response, s₁⟩
      · rw [hanswer] at h
        cases h
      · rw [hanswer] at h
        obtain ⟨hreply, rfl⟩ := Prod.mk.inj h
        exact ⟨reference, request', response, rfl, hrequest, hanswer, Except.ok.inj hreply⟩

end Registry

namespace Resolution

variable {σ : Type} {c : Catalogue σ} {limits : ListingLimits} {repository i : String}
variable {component : Component} {s s' : σ}

/-- A component is found by the probe that was made last. -/
theorem exists_probe_of_firstPublished {commits : List String}
    (h : firstPublished c repository i commits s = (.ok (some component), s')) :
    ∃ sha s₁ manifest, c.manifest i (imageTag sha) s₁ = (.ok (some manifest), s') ∧
      component = .ofImage repository sha i (imageTag sha) manifest.digest := by
  induction commits generalizing s with
  | nil => cases h
  | cons sha rest ih =>
    simp only [firstPublished, bind, StateT.bind] at h
    rcases hanswer : c.manifest i (imageTag sha) s with ⟨(_ | manifest) | failure | message, s₁⟩
    · rw [hanswer] at h
      exact ih h
    · rw [hanswer] at h
      obtain ⟨hfound, rfl⟩ := Prod.mk.inj h
      cases hfound
      exact ⟨sha, s, manifest, hanswer, rfl⟩
    · rw [hanswer] at h
      exact ih h
    · rw [hanswer] at h
      cases h

theorem exists_probe_of_image
    (h : image c limits repository i s = (.ok (some component), s')) :
    ∃ sha s₁ manifest, c.manifest i (imageTag sha) s₁ = (.ok (some manifest), s') ∧
      component = .ofImage repository sha i (imageTag sha) manifest.digest := by
  simp only [image, bind, StateT.bind] at h
  rcases hlisting : c.commits repository limits.commits s with
    ⟨commits | failure | message, s₁⟩
  · rw [hlisting] at h
    exact exists_probe_of_firstPublished h
  · rw [hlisting] at h
    cases h
  · rw [hlisting] at h
    cases h

section Live

variable {τ : Type} {api : ForgeApi} {forge registry : Transport τ} {t t' : τ}

/-- At the live registry the probe is a request for the image as it was read. -/
theorem exists_probe_of_live
    (h : image (.live api forge registry) limits repository i t = (.ok (some component), t')) :
    ∃ sha reference request response t₁, ImageReference.parse i = .ok reference ∧
      Registry.request reference (imageTag sha) = .ok request ∧
      registry request t₁ = (.ok response, t') ∧
      ∃ manifest, Registry.manifestOf response = some manifest ∧
        component = .ofImage repository sha i (imageTag sha) manifest.digest := by
  obtain ⟨sha, t₁, manifest, hprobe, hcomponent⟩ := exists_probe_of_image h
  have hmanifest : Registry.manifest registry i (imageTag sha) t₁ = (.ok (some manifest), t') := by
    simp only [Catalogue.live, bind, StateT.bind] at hprobe
    rcases hanswer : Registry.manifest registry i (imageTag sha) t₁ with ⟨failure | found, t₂⟩
    · rw [hanswer] at hprobe
      cases hprobe
    · rw [hanswer] at hprobe
      cases hprobe
      rfl
  obtain ⟨reference, request, response, hparse, hrequest, hresponse, hfound⟩ :=
    Registry.manifest_eq_found hmanifest
  exact ⟨sha, reference, request, response, t₁, hparse, hrequest, hresponse, manifest, hfound,
    hcomponent⟩

/-- What a component for an image names is what was probed exactly if the name of the image is
written without blanks. This holds of every image that names its registry, whatever forge and
registry answer: if a component is found, it was found by a request for the image as it was read,
under the tag of the commit, and holds the digest of the manifest that was the answer. -/
theorem recorded_as_probed_iff (api : ForgeApi) (forge registry : Transport τ)
    (limits : ListingLimits) {repository i : String} {component : Component} {t t' : τ}
    (found : image (.live api forge registry) limits repository i t = (.ok (some component), t'))
    (hosted : ImageReference.namesHost i = true) :
    ∃ reference request response t₁,
      ImageReference.parse i = .ok reference ∧
      Registry.request reference (imageTag component.ref) = .ok request ∧
      registry request t₁ = (.ok response, t') ∧
      Registry.manifestOf response = some ⟨component.imageDigest⟩ ∧
      (component.imageUrl =
          some (reference.host ++ "/" ++ reference.path ++ ":latest-" ++ component.ref) ↔
        ∀ c ∈ i.toList, Text.isBlank c = false) ∧
      ((∀ url ∈ component.imageUrl, ∀ c ∈ url.toList, Text.isBlank c = false) ↔
        ∀ c ∈ i.toList ++ component.ref.toList, Text.isBlank c = false) := by
  obtain ⟨sha, reference, request, response, t₁, hparse, hrequest, hresponse, manifest, hmanifest,
    rfl⟩ := exists_probe_of_live found
  refine ⟨reference, request, response, t₁, hparse, hrequest, hresponse, hmanifest, ?_⟩
  rw [Component.ofImage_imageTag]
  constructor
  · rw [Option.some_inj, String.append_left_inj, String.append_left_inj,
      ImageReference.eq_host_path_iff hparse hosted]
  · have hmark : ∀ c ∈ ":latest-".toList, Text.isBlank c = false :=
      Text.visible_of_all (by decide)
    simp only [Option.mem_some_iff, forall_eq', String.toList_append, List.forall_mem_append,
      iff_true_intro hmark, and_true]

end Live

/-- A forge that lists one commit. -/
def oneCommit : Transport Unit :=
  fun _ => return .ok ⟨200, [], "[\x7b\"sha\":\"c1\"\x7d]"⟩

/-- A registry that has a manifest for everything it is asked for. -/
def allPublished : Transport Unit :=
  fun _ => return .ok ⟨200, [(Registry.digestKey, "sha256:1")], ""⟩

/-- An image at a registry with a port, written without blanks. -/
theorem recorded_as_probed_at_port :
    image (.live ⟨ForgeApi.defaultBase, none⟩ oneCommit allPublished) {} "o/r"
        "localhost:5000/team/app" () =
      (.ok (some ⟨"o/r", "c1", "o/app", .commit, some "localhost:5000/team/app:latest-c1",
        some "sha256:1"⟩), ()) ∧
      ImageReference.namesHost "localhost:5000/team/app" = true ∧
      ∃ reference, ImageReference.parse "localhost:5000/team/app" = .ok reference ∧
        some "localhost:5000/team/app:latest-c1" =
          some (reference.host ++ "/" ++ reference.path ++ ":latest-" ++ "c1") := by
  have found : image (.live ⟨ForgeApi.defaultBase, none⟩ oneCommit allPublished) {} "o/r"
      "localhost:5000/team/app" () =
    (.ok (some ⟨"o/r", "c1", "o/app", .commit, some "localhost:5000/team/app:latest-c1",
      some "sha256:1"⟩), ()) := Prod.ext (by decide +kernel) (Subsingleton.elim _ _)
  have hosted : ImageReference.namesHost "localhost:5000/team/app" = true := by decide +kernel
  obtain ⟨reference, -, -, -, hparse, -, -, -, hurl, -⟩ :=
    recorded_as_probed_iff ⟨ForgeApi.defaultBase, none⟩ oneCommit allPublished {} found hosted
  exact ⟨found, hosted, reference, hparse, hurl.2 (Text.visible_of_all (by decide))⟩

/-- A blank before the name of an image is recorded, although the image was probed without it. -/
theorem recorded_with_blank :
    ¬ ∀ (i : String) (config : TrackedRepository) (reference : ImageReference)
      (component : Component),
      TrackedRepository.make "o/r" (.commit [i]) = .ok config →
      ImageReference.namesHost i = true → ImageReference.parse i = .ok reference →
      (image (.live ⟨ForgeApi.defaultBase, none⟩ oneCommit allPublished) {} "o/r" i ()).1 =
        .ok (some component) →
      component.imageUrl =
        some (reference.host ++ "/" ++ reference.path ++ ":latest-" ++ component.ref) := by
  intro h
  have hblank := h " quay.io/o/app" ⟨"o/r", .commit [" quay.io/o/app"]⟩ ⟨"quay.io", "o/app"⟩
    ⟨"o/r", "c1", "o/app", .commit, some " quay.io/o/app:latest-c1", some "sha256:1"⟩
    (by decide +kernel) (by decide +kernel) (by decide +kernel) (by decide +kernel)
  exact absurd hblank (by decide)

end Resolution

end ReleaseCandidates
