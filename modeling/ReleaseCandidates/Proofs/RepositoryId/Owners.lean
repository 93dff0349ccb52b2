import ReleaseCandidates.Component
import ReleaseCandidates.Proofs.RepositoryId.Canonical
import ReleaseCandidates.TrackedRepository

set_option autoImplicit false

/-! # The owner in the name of a component

The component for an image is named after the owner of the repository and after the image. The owner
is taken to be what stands before the first slash of the repository as it is written. That is the
owner which the identifier has if nothing else stands there (`RepositoryId.StartsWithOwner`): blanks
and slashes before the owner, or the scheme of a web address, make it another text, although all of
them are accepted.

Main statement: `Component.named_after_owner_iff`. -/

namespace ReleaseCandidates

namespace RepositoryId

/-! ## Where an accepted text starts -/

/-- No blank, no slash and no scheme of a web address stands before the owner. -/
def StartsWithOwner (value : String) : Prop :=
  (∀ c ∈ value.toList.head?, Text.isBlank c = false ∧ c ≠ '/') ∧ dropScheme? value.toList = none

/-- A text that goes on from one with a scheme has the scheme too. -/
theorem dropScheme?_eq_none_of_leading {cs ds : List Char} (hleading : cs <+: ds)
    (h : dropScheme? ds = none) : dropScheme? cs = none := by
  have hstart : ∀ start : List Char, Text.dropStart? start ds = none →
      Text.dropStart? start cs = none := by
    intro start hds
    obtain ⟨tail, rfl⟩ := hleading
    cases hcs : Text.dropStart? start cs with
    | none => rfl
    | some rest =>
      rw [Text.dropStart?_eq_some] at hcs
      rw [hcs, List.append_assoc, Text.dropStart?_eq_some.2 rfl] at hds
      cases hds
  cases hsecure : Text.dropStart? "https://".toList ds with
  | some rest =>
    rw [dropScheme?, hsecure] at h
    cases h
  | none =>
    rw [dropScheme?, hsecure] at h
    rw [dropScheme?, hstart _ hsecure]
    exact hstart _ h

theorem trimEnd_leading (cs : List Char) : Text.trimEnd cs <+: cs := by
  rw [← List.reverse_suffix, Text.trimEnd, List.reverse_reverse]
  exact List.dropWhile_suffix _

/-- Only the end is trimmed of a text that starts with no blank. -/
theorem trimChars_eq_trimEnd {cs : List Char} (h : ∀ c ∈ cs.head?, Text.isBlank c = false) :
    Text.trimChars cs = Text.trimEnd cs := by
  cases cs with
  | nil => rfl
  | cons c cs => rw [Text.trimChars, Text.trimStart_of_not_isBlank cs (h c rfl)]

/-- A text with two pieces that does not start with a slash starts with the first of them. -/
theorem exists_eq_append_of_pieces {cs owner name : List Char} {rest : List (List Char)}
    (hpieces : pieces cs = owner :: name :: rest) (hhead : ∀ c ∈ cs.head?, c ≠ '/') :
    ∃ after, cs = owner ++ '/' :: after ∧ '/' ∉ owner := by
  by_cases hmem : '/' ∈ cs
  · obtain ⟨first, after, rfl, hfirst⟩ := List.eq_append_cons_of_mem hmem
    have hne : first ≠ [] := by
      rintro rfl
      exact hhead '/' rfl rfl
    rw [pieces_append hne hfirst] at hpieces
    obtain ⟨rfl, -⟩ := List.cons.inj hpieces
    exact ⟨after, rfl, hfirst⟩
  · -- without a slash there is one piece at most
    have hlength := congrArg List.length hpieces
    rw [pieces, Text.split_of_not_mem hmem, List.length_cons, List.length_cons] at hlength
    have hle := List.length_filter_le (fun piece : List Char => decide (piece ≠ [])) [cs]
    simp only [List.length_cons, List.length_nil] at hle
    omega

/-- The owner is what stands before the first slash exactly if nothing stands before the owner. -/
theorem beforeFirst_eq_owner_iff {value : String} {id : RepositoryId} (h : parse value = .ok id) :
    Text.beforeFirst '/' value.toList = id.owner.toList ↔ StartsWithOwner value := by
  obtain ⟨owner, name, rest, hsegments, hchecked, rfl⟩ := ofSegments_eq_ok_iff.1 h
  rw [ofChecked, String.toList_ofList]
  constructor
  · intro howner
    have hne : owner ≠ [] := ne_nil_of_mem_segmentsOf (hsegments ▸ List.mem_cons_self)
    have hchars := segmentChars_of_segmentProblem
      (hchecked owner (hsegments ▸ List.mem_cons_self))
    refine ⟨fun c hc => ?_, dropScheme?_eq_none (howner ▸ colon_not_mem_segment hchars)⟩
    have hmem : c ∈ owner := by
      rw [← List.takeWhile_append_dropWhile (p := (· ≠ '/')) (l := value.toList),
        ← Text.beforeFirst, howner, List.head?_append_of_ne_nil _ hne] at hc
      exact List.mem_of_mem_head? hc
    have hvisible := visible_of_isSegmentChar (hchars c hmem)
    exact ⟨hvisible.1, hvisible.2.1⟩
  · rintro ⟨hhead, hscheme⟩
    have hleading := trimEnd_leading value.toList
    rw [trimChars_eq_trimEnd fun c hc => (hhead c hc).1,
      segmentsOf_eq_pieces (dropScheme?_eq_none_of_leading hleading hscheme)] at hsegments
    obtain ⟨blanks, hblanks⟩ := hleading
    have htrimmed : ∀ c ∈ (Text.trimEnd value.toList).head?, c ≠ '/' := by
      intro c hc
      refine (hhead c ?_).2
      rw [← hblanks]
      exact List.mem_head?_append_of_mem_head? hc
    obtain ⟨after, hafter, hslash⟩ := exists_eq_append_of_pieces hsegments htrimmed
    rw [← hblanks, hafter, List.append_assoc, Text.beforeFirst,
      List.takeWhile_append_of_pos (Text.ne_of_not_mem hslash)]
    simp

end RepositoryId

/-! ## Names of components -/

/-- What an image is called in its registry: the last piece of its name. -/
def lastPiece (image : String) : String :=
  String.ofList ((Text.split '/' image.toList).getLast (Text.split_ne_nil '/' image.toList))

theorem imageName_eq (repository image : String) :
    imageName repository image =
      String.ofList (Text.beforeFirst '/' repository.toList) ++ "/" ++ lastPiece image := by
  rw [imageName, Text.afterLast_eq_getLast, lastPiece]

/-- The name of a component tells what stands before the first slash of the repository. -/
theorem imageName_eq_iff {repository image owner : String} :
    imageName repository image = owner ++ "/" ++ lastPiece image ↔
      Text.beforeFirst '/' repository.toList = owner.toList := by
  rw [imageName_eq, ← String.toList_inj]
  simp only [String.toList_append, String.toList_ofList, List.append_assoc,
    List.append_cancel_right_eq]

namespace Component

open RepositoryId (StartsWithOwner beforeFirst_eq_owner_iff parse)

theorem exists_parse_of_make {repository : String} {strategy : Strategy}
    {config : TrackedRepository} (h : TrackedRepository.make repository strategy = .ok config) :
    ∃ id, parse repository = .ok id := by
  rw [TrackedRepository.make] at h
  cases hparse : parse repository with
  | error problem =>
    rw [hparse] at h
    cases h
  | ok id => exact ⟨id, rfl⟩

/-- **A component for an image is named after the owner exactly if the repository is written with
its owner first.** This is so for every repository that can be tracked, and for all commits and
images. Of two spellings with the same owner, the first of them starting with it, the components for
an image have one name exactly if the second starts with the owner too. -/
theorem named_after_owner_iff {repository : String} {strategy : Strategy}
    {config : TrackedRepository}
    (accepted : TrackedRepository.make repository strategy = .ok config) :
    ∃ id, parse repository = .ok id ∧
      (∀ sha image digest,
        (ofImage repository sha image (imageTag sha) digest).name =
            id.owner ++ "/" ++ lastPiece image ↔
          StartsWithOwner repository) ∧
      (StartsWithOwner repository →
        ∀ repository' id', parse repository' = .ok id' → id'.owner = id.owner →
          ∀ sha sha' image digest digest',
            (ofImage repository' sha' image (imageTag sha') digest').name =
                (ofImage repository sha image (imageTag sha) digest).name ↔
              StartsWithOwner repository') := by
  obtain ⟨id, hparse⟩ := exists_parse_of_make accepted
  have hname : ∀ {value : String} {id' : RepositoryId}, parse value = .ok id' → ∀ image,
      imageName value image = id'.owner ++ "/" ++ lastPiece image ↔ StartsWithOwner value :=
    fun h image => imageName_eq_iff.trans (beforeFirst_eq_owner_iff h)
  refine ⟨id, hparse, fun sha image digest => hname hparse image, ?_⟩
  intro hstarts repository' id' hparse' howner sha sha' image digest digest'
  show imageName repository' image = imageName repository image ↔ StartsWithOwner repository'
  rw [(hname hparse image).2 hstarts, ← howner]
  exact hname hparse' image

/-- A part of a repository, with slashes and blanks behind the name, and the address of its page. -/
theorem named_after_owner_for_part :
    TrackedRepository.make "openshift/assisted-installer//controller/ "
        (.commit ["quay.io/edge-infrastructure/assisted-installer-controller"]) =
      .ok ⟨"openshift/assisted-installer//controller/ ",
        .commit ["quay.io/edge-infrastructure/assisted-installer-controller"]⟩ ∧
    (ofImage "openshift/assisted-installer//controller/ " "c1"
        "quay.io/edge-infrastructure/assisted-installer-controller" (imageTag "c1") none).name =
      "openshift/assisted-installer-controller" ∧
    (ofImage "https://github.com/openshift/assisted-installer" "c1"
        "quay.io/edge-infrastructure/assisted-installer-controller" (imageTag "c1") none).name ≠
      "openshift/assisted-installer-controller" := by
  have accepted : TrackedRepository.make "openshift/assisted-installer//controller/ "
      (.commit ["quay.io/edge-infrastructure/assisted-installer-controller"]) =
    .ok ⟨"openshift/assisted-installer//controller/ ",
      .commit ["quay.io/edge-infrastructure/assisted-installer-controller"]⟩ := by decide +kernel
  have hpart : parse "openshift/assisted-installer//controller/ " =
      .ok ⟨"openshift", "assisted-installer", some "controller"⟩ := by decide +kernel
  have hpage : parse "https://github.com/openshift/assisted-installer" =
      .ok ⟨"openshift", "assisted-installer", none⟩ := by decide +kernel
  obtain ⟨id, hparse, hnamed, hspellings⟩ := named_after_owner_iff accepted
  obtain rfl : id = _ := Except.ok.inj (hparse.symm.trans hpart)
  have hhead : "openshift/assisted-installer//controller/ ".toList.head? = some 'o' := by
    decide +kernel
  have hstarts : StartsWithOwner "openshift/assisted-installer//controller/ " := by
    refine ⟨?_, by decide +kernel⟩
    rw [hhead]
    rintro c ⟨⟩
    decide
  have hhidden : ¬ StartsWithOwner "https://github.com/openshift/assisted-installer" :=
    fun h => absurd h.2 (by decide +kernel)
  have hname := (hnamed "c1" "quay.io/edge-infrastructure/assisted-installer-controller" none).2
    hstarts
  have hlast : "openshift" ++ "/" ++
      lastPiece "quay.io/edge-infrastructure/assisted-installer-controller" =
    "openshift/assisted-installer-controller" := by decide +kernel
  rw [hlast] at hname
  refine ⟨accepted, hname, ?_⟩
  rw [← hname]
  exact mt (hspellings hstarts _ _ hpage rfl "c1" "c1" _ none none).1 hhidden

/-- A repository written as a web address is not named after its owner. -/
theorem web_address_hides_owner :
    ¬ ∀ (repository : String) (strategy : Strategy) (config : TrackedRepository) (id : RepositoryId)
      (sha image : String) (digest : Option String),
      TrackedRepository.make repository strategy = .ok config → parse repository = .ok id →
      (ofImage repository sha image (imageTag sha) digest).name =
        id.owner ++ "/" ++ lastPiece image := by
  intro h
  have hname := h "https://github.com/openshift/assisted-installer"
    (.commit ["quay.io/edge-infrastructure/assisted-installer-controller"]) _
    ⟨"openshift", "assisted-installer", none⟩ "c1"
    "quay.io/edge-infrastructure/assisted-installer-controller" none
    (by decide +kernel :
      TrackedRepository.make _ _ = .ok ⟨"https://github.com/openshift/assisted-installer",
        .commit ["quay.io/edge-infrastructure/assisted-installer-controller"]⟩)
    (by decide +kernel)
  exact absurd hname (by decide +kernel)

end Component

end ReleaseCandidates
