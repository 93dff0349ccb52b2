import ReleaseCandidates.Proofs.Resolution.Answers
import ReleaseCandidates.Proofs.TestEnvironment.Exports

set_option autoImplicit false

/-! # Components that leave no trace

A component without an entry in the table is named among the skipped ones. A component with an entry
exports what it has of what the entry asks for, and if it has nothing of that, it leaves no trace:
it is neither exported nor named. Of the components that resolutions find, that happens to a release
whose entry asks for an image, and to a component with an empty ref whose entry asks for the ref.

Main statement: `TestEnvironment.noticed_iff`. -/

namespace ReleaseCandidates

namespace TestEnvironment

variable {components : List Component} {c : Component}

/-! ## Skipped components -/

theorem skipped_foldl_assign (env : TestEnvironment) (assignments : List (String × String)) :
    (assignments.foldl assign env).skipped = env.skipped := by
  induction assignments generalizing env with
  | nil => rfl
  | cons a rest ih => exact ih (env.assign a)

theorem skipped_add (env : TestEnvironment) (c : Component) :
    (env.add c).skipped = env.skipped ++ if Binding.of c = none then [c.name] else [] := by
  rw [add]
  cases Binding.of c with
  | none => rfl
  | some binding =>
    rw [if_neg (Option.some_ne_none binding), List.append_nil]
    exact skipped_foldl_assign env _

theorem mem_skipped_foldl_add {name : String} (env : TestEnvironment) :
    name ∈ (components.foldl add env).skipped ↔
      name ∈ env.skipped ∨ ∃ d ∈ components, Binding.of d = none ∧ d.name = name := by
  induction components generalizing env with
  | nil => simp
  | cons d rest ih =>
    rw [List.foldl_cons, ih, skipped_add, List.mem_append, or_assoc]
    refine or_congr_right ?_
    split
    · rename_i hunbound
      simp [hunbound, eq_comm]
    · rename_i hbound
      simp [hbound]

/-- The skipped names are those of the components without an entry. -/
theorem mem_skipped_ofComponents {name : String} :
    name ∈ (ofComponents components).skipped ↔
      ∃ d ∈ components, Binding.of d = none ∧ d.name = name := by
  rw [ofComponents, mem_skipped_foldl_add]
  simp [empty]

/-! ## Noticed components -/

/-- Adding the component gives the variable the value, whatever it had before. -/
def Assigns (c : Component) (name value : String) : Prop :=
  ∀ env : TestEnvironment, (env.add c).vars.get? name = some value

theorem assigns_iff {name value : String} :
    Assigns c name value ↔ c.exported? name = some value := by
  constructor
  · intro h
    have hempty := h empty
    rwa [get?_add, show empty.vars.get? name = none from rfl, Option.or_none] at hempty
  · intro h env
    rw [get?_add, h, Option.some_or]

/-- A component of a list is noticed if it gives some variable a value, or is named among the
skipped ones. -/
def Noticed (components : List Component) (c : Component) : Prop :=
  (∃ name value, Assigns c name value) ∨ c.name ∈ (ofComponents components).skipped

end TestEnvironment

/-! ## What entries ask for -/

namespace Binding

variable {c : Component}

theorem exists_valueFor?_ref {var : String} :
    (∃ name value, (Binding.ref var).valueFor? c name = some value) ↔ c.ref ≠ "" := by
  constructor
  · rintro ⟨name, value, hvalue⟩ hempty
    rw [valueFor?, Option.ite_none_right_eq_some, offered_eq_some] at hvalue
    obtain ⟨-, href, hnonempty⟩ := hvalue
    rw [← Option.some.inj href, hempty] at hnonempty
    cases hnonempty
  · intro hne
    refine ⟨var, c.ref, ?_⟩
    rw [valueFor?, if_pos rfl, offered_eq_some]
    exact ⟨rfl, by simpa using hne⟩

theorem exists_valueFor?_image {address version : String} :
    (∃ name value, (Binding.image address version).valueFor? c name = some value) ↔
      offered c.imageUrl ≠ none ∨ offered c.imageDigest ≠ none := by
  simp only [valueFor?, Option.or_eq_some_iff, Option.ite_none_right_eq_some]
  constructor
  · rintro ⟨name, value, ⟨-, hdigest⟩ | ⟨-, -, hurl⟩⟩
    · exact .inr (by rw [hdigest]; exact Option.some_ne_none value)
    · exact .inl (by rw [hurl]; exact Option.some_ne_none value)
  · intro h
    cases hdigest : offered c.imageDigest with
    | some digest => exact ⟨version, digest, .inl ⟨rfl, rfl⟩⟩
    | none =>
      obtain ⟨url, hurl⟩ := Option.ne_none_iff_exists'.1 (h.resolve_right fun hne => hne hdigest)
      exact ⟨address, url, .inr ⟨ite_self none, rfl, hurl⟩⟩

end Binding

/-- The component has an entry in the table and nothing of what the entry asks for: it is a release
and the entry asks for an image, or its ref is empty and the entry asks for the ref. -/
def Component.HasNothingForEntry (c : Component) : Prop :=
  match Binding.of c with
  | some (.image _ _) => c.mechanism = .release
  | some (.ref _) => c.ref = ""
  | none => False

instance (c : Component) : Decidable c.HasNothingForEntry := by
  unfold Component.HasNothingForEntry
  split <;> infer_instance

namespace TestEnvironment

variable {components : List Component} {c : Component}

theorem offered_address_ne_none (image tag : String) :
    Binding.offered (some (image ++ ":" ++ tag)) ≠ none := by
  have hne : (image ++ ":" ++ tag).isEmpty = false := by
    rw [String.isEmpty_eq_false_iff]
    intro hempty
    simpa using congrArg String.toList hempty
  rw [Binding.offered_eq_some.2 ⟨rfl, hne⟩]
  exact nofun

/-- A component that resolutions make assigns a variable if it has something for its entry. -/
theorem exists_assigns_iff (hmade : Resolution.Made c) :
    (∃ name value, Assigns c name value) ↔ Binding.of c ≠ none ∧ ¬ c.HasNothingForEntry := by
  simp only [assigns_iff, Component.exported?, Component.HasNothingForEntry]
  cases hof : Binding.of c with
  | none => simp
  | some binding =>
    cases binding with
    | ref var =>
      simp only [Option.bind_some, Binding.exists_valueFor?_ref]
      simp
    | image address version =>
      simp only [Option.bind_some, Binding.exists_valueFor?_image]
      cases hmade with
      | release repository tag => simp [Component.ofRelease, Binding.offered]
      | image repository sha image digest =>
        have hurl := offered_address_ne_none image (imageTag sha)
        simp [Component.ofImage, hurl]

/-- **When a component is noticed.** Let a list of components be given, each of which some
resolution finds. A component of the list assigns a variable or is named among the skipped ones
exactly if it has something for its entry in the table, or has no entry, or another component that
has none goes by the same name. -/
theorem noticed_iff (hfound : ∀ c ∈ components, Resolution.CanFind c) (hc : c ∈ components) :
    Noticed components c ↔
      ¬ c.HasNothingForEntry ∨ ∃ d ∈ components, Binding.of d = none ∧ d.name = c.name := by
  rw [Noticed, exists_assigns_iff (Resolution.canFind_iff.1 (hfound c hc)),
    mem_skipped_ofComponents]
  constructor
  · rintro (⟨-, hsomething⟩ | hskipped)
    · exact .inl hsomething
    · exact .inr hskipped
  · rintro (hsomething | hskipped)
    · by_cases hof : Binding.of c = none
      · exact .inr ⟨c, hc, hof, rfl⟩
      · exact .inl ⟨hof, hsomething⟩
    · exact .inr hskipped

/-- An image whose entry asks for an image. -/
def serviceImage : Component :=
  .ofImage "openshift/assisted-service" "c1" "quay.io/edge/assisted-service" (imageTag "c1") none

/-- An image with an entry, and two releases, one of them without an entry. -/
def mixed : List Component :=
  [serviceImage, .ofRelease "kubernetes-sigs/cluster-api" "v1.9.5",
    .ofRelease "example/unknown" "v0.1.0"]

theorem canFind_of_mem_mixed : ∀ c ∈ mixed, Resolution.CanFind c := by
  intro c hc
  rw [Resolution.canFind_iff]
  simp only [mixed, List.mem_cons, List.not_mem_nil, or_false] at hc
  rcases hc with rfl | rfl | rfl
  · exact .image "openshift/assisted-service" "c1" "quay.io/edge/assisted-service" none
  · exact .release "kubernetes-sigs/cluster-api" "v1.9.5"
  · exact .release "example/unknown" "v0.1.0"

theorem noticed_iff_among_mixed :
    (∀ c ∈ mixed, Resolution.CanFind c) ∧ serviceImage ∈ mixed ∧ Noticed mixed serviceImage := by
  have hc : serviceImage ∈ mixed := List.mem_cons_self
  have hsomething : ¬ serviceImage.HasNothingForEntry := by decide +kernel
  exact ⟨canFind_of_mem_mixed, hc, (noticed_iff canFind_of_mem_mixed hc).2 (.inl hsomething)⟩

/-- A release of a repository whose entry asks for an image leaves no trace. -/
theorem release_leaves_no_trace :
    ¬ ∀ components : List Component, (∀ c ∈ components, Resolution.CanFind c) →
      ∀ c ∈ components, Noticed components c := by
  intro h
  let release := Component.ofRelease "openshift/assisted-service" "v2.30.0"
  have hmade : Resolution.Made release := .release _ _
  have hnothing : release.HasNothingForEntry := by decide +kernel
  have hnoticed := h [release] (by simpa [Resolution.canFind_iff] using hmade) release
    (List.mem_singleton_self _)
  rcases hnoticed with hassigns | hskipped
  · exact ((exists_assigns_iff hmade).1 hassigns).2 hnothing
  · exact absurd hskipped (by decide +kernel)

end TestEnvironment

end ReleaseCandidates
