import Mathlib.Data.Set.Basic
import ReleaseCandidates.Proofs.TestEnvironment.Exports

set_option autoImplicit false

/-! # The two variables of an image

An image exports its address and its digest, each under a variable of its own, and each variable has
the value that was offered for it last. So the two values need not come from one component: a later
component without a digest leaves the digest of an earlier one in place. They do come from one
component, whatever the components and their order, exactly if no two components that can meet
disagree in this way (`Component.PairsWith`).

Main statement: `TestEnvironment.pairs_match_iff`. -/

namespace ReleaseCandidates

open Binding (offered)

/-- Where a component offers an image alone, or a digest alone, another one that offers the other
value has the same value as well. -/
def Component.PairsWith (a b : Component) : Prop :=
  ((offered a.imageDigest).isSome = true → (offered b.imageUrl).isSome = true →
      offered b.imageDigest = none → a.imageUrl = b.imageUrl) ∧
    ((offered a.imageUrl).isSome = true → (offered b.imageDigest).isSome = true →
      offered b.imageUrl = none → a.imageDigest = b.imageDigest)

/-- The first values of two kinds that a list has come from one element, or one of the two comes
from an element that has none of the other kind. -/
theorem findSome?_pair {α β : Type} {f g : α → Option β} {l : List α} {x y : β}
    (hf : l.findSome? f = some x) (hg : l.findSome? g = some y) :
    (∃ a ∈ l, f a = some x ∧ g a = some y) ∨
      (∃ a ∈ l, ∃ b ∈ l, f a = some x ∧ g a = none ∧ g b = some y) ∨
      (∃ a ∈ l, ∃ b ∈ l, g a = some y ∧ f a = none ∧ f b = some x) := by
  induction l with
  | nil => cases hf
  | cons c rest ih =>
    rw [List.findSome?_cons] at hf hg
    have hfirst : c ∈ c :: rest := List.mem_cons_self
    have hrest : ∀ {a}, a ∈ rest → a ∈ c :: rest := fun h => List.mem_cons_of_mem c h
    cases hfc : f c with
    | some x' =>
      rw [hfc] at hf
      cases hf
      cases hgc : g c with
      | some y' =>
        rw [hgc] at hg
        cases hg
        exact .inl ⟨c, hfirst, hfc, hgc⟩
      | none =>
        rw [hgc] at hg
        obtain ⟨b, hb, hgb⟩ := List.exists_of_findSome?_eq_some hg
        exact .inr (.inl ⟨c, hfirst, b, hrest hb, hfc, hgc, hgb⟩)
    | none =>
      rw [hfc] at hf
      cases hgc : g c with
      | some y' =>
        rw [hgc] at hg
        cases hg
        obtain ⟨b, hb, hfb⟩ := List.exists_of_findSome?_eq_some hf
        exact .inr (.inr ⟨c, hfirst, b, hrest hb, hgc, hfc, hfb⟩)
      | none =>
        rw [hgc] at hg
        rcases ih hf hg with ⟨a, ha, h⟩ | ⟨a, ha, b, hb, h⟩ | ⟨a, ha, b, hb, h⟩
        · exact .inl ⟨a, hrest ha, h⟩
        · exact .inr (.inl ⟨a, hrest ha, b, hrest hb, h⟩)
        · exact .inr (.inr ⟨a, hrest ha, b, hrest hb, h⟩)

namespace TestEnvironment

section Entry

variable {key address version image digest : String} {components : List Component} {a b : Component}

/-- Of two components, the later one is asked for a value first. -/
theorem get?_pair (a b : Component) (name : String) :
    (ofComponents [a, b]).vars.get? name = (b.exported? name).or (a.exported? name) := by
  rw [get?_ofComponents]
  show [b, a].findSome? (·.exported? name) = _
  rw [List.findSome?_cons, List.findSome?_cons]
  cases b.exported? name <;> cases a.exported? name <;> rfl

theorem eq_some_of_exported?_address (entry : (key, .image address version) ∈ Binding.table)
    (h : a.exported? address = some image) :
    Binding.of a = some (.image address version) ∧ offered a.imageUrl = some image := by
  rw [Binding.exported?_address entry] at h
  split at h
  · exact ⟨‹_›, h⟩
  · cases h

theorem eq_some_of_exported?_version (entry : (key, .image address version) ∈ Binding.table)
    (h : a.exported? version = some digest) :
    Binding.of a = some (.image address version) ∧ offered a.imageDigest = some digest := by
  rw [Binding.exported?_version entry] at h
  split at h
  · exact ⟨‹_›, h⟩
  · cases h

/-- Components that pair with each other export an image and its digest. -/
theorem exists_pair (entry : (key, .image address version) ∈ Binding.table)
    (hpairs : ∀ a ∈ components, ∀ b ∈ components, Binding.of a = some (.image address version) →
      Binding.of b = some (.image address version) → a.PairsWith b)
    (himage : (ofComponents components).vars.get? address = some image)
    (hdigest : (ofComponents components).vars.get? version = some digest) :
    ∃ c ∈ components, c.imageUrl = some image ∧ c.imageDigest = some digest := by
  rw [get?_ofComponents] at himage hdigest
  rcases findSome?_pair himage hdigest with ⟨c, hc, hcImage, hcDigest⟩ |
      ⟨b, hb, a, ha, hbImage, hbNone, haDigest⟩ | ⟨b, hb, a, ha, hbDigest, hbNone, haImage⟩
  · obtain ⟨-, hurl⟩ := eq_some_of_exported?_address entry hcImage
    obtain ⟨-, hdig⟩ := eq_some_of_exported?_version entry hcDigest
    exact ⟨c, List.mem_reverse.1 hc, (Binding.offered_eq_some.1 hurl).1,
      (Binding.offered_eq_some.1 hdig).1⟩
  · -- the last image has no digest
    obtain ⟨hbound, hurl⟩ := eq_some_of_exported?_address entry hbImage
    obtain ⟨hbound', hdig⟩ := eq_some_of_exported?_version entry haDigest
    rw [Binding.exported?_version entry, if_pos hbound] at hbNone
    have hsame := (hpairs a (List.mem_reverse.1 ha) b (List.mem_reverse.1 hb) hbound' hbound).1
      (by rw [hdig]; rfl) (by rw [hurl]; rfl) hbNone
    exact ⟨a, List.mem_reverse.1 ha, hsame.trans (Binding.offered_eq_some.1 hurl).1,
      (Binding.offered_eq_some.1 hdig).1⟩
  · -- the last digest has no image
    obtain ⟨hbound, hdig⟩ := eq_some_of_exported?_version entry hbDigest
    obtain ⟨hbound', hurl⟩ := eq_some_of_exported?_address entry haImage
    rw [Binding.exported?_address entry, if_pos hbound] at hbNone
    have hsame := (hpairs a (List.mem_reverse.1 ha) b (List.mem_reverse.1 hb) hbound' hbound).2
      (by rw [hurl]; rfl) (by rw [hdig]; rfl) hbNone
    exact ⟨a, List.mem_reverse.1 ha, (Binding.offered_eq_some.1 hurl).1,
      hsame.trans (Binding.offered_eq_some.1 hdig).1⟩

/-- Two components that export an image and its digest pair with each other. -/
theorem pairsWith_of_exported (entry : (key, .image address version) ∈ Binding.table)
    (hbound : Binding.of a = some (.image address version))
    (hbound' : Binding.of b = some (.image address version))
    (h : ∀ image digest, (ofComponents [a, b]).vars.get? address = some image →
      (ofComponents [a, b]).vars.get? version = some digest →
      ∃ c ∈ [a, b], c.imageUrl = some image ∧ c.imageDigest = some digest) : a.PairsWith b := by
  simp only [get?_pair, Binding.exported?_address entry, Binding.exported?_version entry,
    if_pos hbound, if_pos hbound'] at h
  constructor
  · intro hdigest himage hnone
    obtain ⟨digest, hdigest⟩ := Option.isSome_iff_exists.1 hdigest
    obtain ⟨image, himage⟩ := Option.isSome_iff_exists.1 himage
    obtain ⟨c, hc, hurl, hdig⟩ := h image digest (by rw [himage, Option.some_or])
      (by rw [hnone, Option.none_or, hdigest])
    simp only [List.mem_cons, List.not_mem_nil, or_false] at hc
    rcases hc with rfl | rfl
    · rw [hurl, (Binding.offered_eq_some.1 himage).1]
    · rw [hdig, ← (Binding.offered_eq_some.1 hdigest).1, hdigest] at hnone
      cases hnone
  · intro himage hdigest hnone
    obtain ⟨image, himage⟩ := Option.isSome_iff_exists.1 himage
    obtain ⟨digest, hdigest⟩ := Option.isSome_iff_exists.1 hdigest
    obtain ⟨c, hc, hurl, hdig⟩ := h image digest (by rw [hnone, Option.none_or, himage])
      (by rw [hdigest, Option.some_or])
    simp only [List.mem_cons, List.not_mem_nil, or_false] at hc
    rcases hc with rfl | rfl
    · rw [hdig, (Binding.offered_eq_some.1 hdigest).1]
    · rw [hurl, ← (Binding.offered_eq_some.1 himage).1, himage] at hnone
      cases hnone

end Entry

/-- For components of a kind, whatever the list and its order, the image and the digest that are
exported for an entry of the table are those of one component of the list, exactly if each two
components of the kind that are bound to one entry pair with each other. -/
theorem pairs_match_iff (kind : Set Component) :
    (∀ components : List Component, (∀ c ∈ components, c ∈ kind) →
      ∀ key address version : String, (key, Binding.image address version) ∈ Binding.table →
        ∀ image digest : String,
          (ofComponents components).vars.get? address = some image →
          (ofComponents components).vars.get? version = some digest →
          ∃ c ∈ components, c.imageUrl = some image ∧ c.imageDigest = some digest) ↔
      ∀ a ∈ kind, ∀ b ∈ kind, ∀ address version : String,
        Binding.of a = some (.image address version) →
        Binding.of b = some (.image address version) → a.PairsWith b := by
  constructor
  · intro h a ha b hb address version hbound hbound'
    obtain ⟨key, entry⟩ := Binding.exists_mem_table hbound
    refine pairsWith_of_exported entry hbound hbound' (h [a, b] ?_ key address version entry)
    simp [ha, hb]
  · intro h components hkind key address version entry image digest himage hdigest
    exact exists_pair entry (fun a ha b hb => h a (hkind a ha) b (hkind b hb) address version)
      himage hdigest

/-- An image without a digest behind one with a digest: the later image is exported beside the
digest of the earlier one. -/
theorem digest_outlives_image :
    ¬ ∀ (components : List Component) (key address version image digest : String),
      (key, Binding.image address version) ∈ Binding.table →
        (ofComponents components).vars.get? address = some image →
        (ofComponents components).vars.get? version = some digest →
        ∃ c ∈ components, c.imageUrl = some image ∧ c.imageDigest = some digest := by
  intro h
  have hmixed := h
    [Component.ofImage "openshift/assisted-service" "c1" "quay.io/edge/assisted-service" "latest-c1"
        (some "sha256:d1"),
      Component.ofImage "openshift/assisted-service" "c1" "quay.io/mirror/assisted-service"
        "latest-c1" none]
    "openshift/assisted-service" "ASSISTED_SERVICE_IMAGE" "ASSISTED_SERVICE_VERSION"
    "quay.io/mirror/assisted-service:latest-c1" "sha256:d1"
    (by decide) (by decide +kernel) (by decide +kernel)
  exact absurd hmixed (by decide +kernel)

end TestEnvironment

end ReleaseCandidates
