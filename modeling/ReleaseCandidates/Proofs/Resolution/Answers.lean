import ReleaseCandidates.Resolution

set_option autoImplicit false

/-! # What resolutions find

A resolution finds components of two kinds only, whatever the catalogue says and whatever the target
is: releases, and images with the commit they were built from (`Resolution.canFind_iff`). The first
half follows the resolution call by call (`Resolution.Gives`), the second half asks a catalogue that
has just the one component to offer. -/

namespace ReleaseCandidates

/-- The answer, if there is one, has the property. -/
def Reply.All {α : Type} (P : α → Prop) : Reply α → Prop
  | .ok a => P a
  | .failed _ | .aborted _ => True

namespace Resolution

variable {σ α β : Type}

/-! ## Computations that give only answers of a kind -/

/-- Whatever the state, what is given has the property. -/
def Gives (P : α → Prop) (x : StateM σ α) : Prop :=
  ∀ s, P (x s).1

namespace Gives

variable {P : α → Prop} {Q : β → Prop}

theorem pure {a : α} (h : P a) : Gives (σ := σ) P (Pure.pure a) :=
  fun _ => h

theorem bind {x : StateM σ α} {f : α → StateM σ β} (hx : Gives P x)
    (hf : ∀ a, P a → Gives Q (f a)) : Gives Q (x >>= f) :=
  fun s => hf (x s).1 (hx s) (x s).2

theorem any (x : StateM σ α) : Gives (fun _ => True) x :=
  fun _ => trivial

end Gives

/-! ## The kinds of components -/

/-- The components that resolutions make: releases, and images published for a commit. -/
inductive Made : Component → Prop where
  | release (repository tag : String) : Made (.ofRelease repository tag)
  | image (repository sha image : String) (digest : Option String) :
    Made (.ofImage repository sha image (imageTag sha) digest)

variable (c : Catalogue σ) (limits : ListingLimits)

theorem release_gives (repository tagStart : String) :
    Gives (Reply.All fun found => ∀ component ∈ found, Made component)
      (release c limits repository tagStart) := by
  refine (Gives.any _).bind fun answer _ => ?_
  cases answer with
  | ok releases =>
    refine .pure fun component hcomponent => ?_
    obtain ⟨r, -, rfl⟩ := Option.map_eq_some_iff.1 hcomponent
    exact .release repository r.tag
  | failed failure => exact .pure trivial
  | aborted message => exact .pure trivial

theorem firstPublished_gives (repository i : String) (commits : List String) :
    Gives (Reply.All fun found => ∀ component ∈ found, Made component)
      (firstPublished c repository i commits) := by
  induction commits with
  | nil => exact .pure nofun
  | cons sha rest ih =>
    refine (Gives.any _).bind fun answer _ => ?_
    cases answer with
    | ok found =>
      cases found with
      | none => exact ih
      | some manifest =>
        refine .pure fun component hcomponent => ?_
        obtain rfl := Option.some.inj hcomponent
        exact .image repository sha i manifest.digest
    | failed failure => exact ih
    | aborted message => exact .pure trivial

theorem image_gives (repository i : String) :
    Gives (Reply.All fun found => ∀ component ∈ found, Made component)
      (image c limits repository i) := by
  refine (Gives.any _).bind fun answer _ => ?_
  cases answer with
  | ok commits => exact firstPublished_gives c repository i commits
  | failed failure => exact .pure trivial
  | aborted message => exact .pure trivial

theorem images_gives (repository : String) (names : List String) (h : Harvest)
    (hfound : ∀ component ∈ h.found, Made component) :
    Gives (Reply.All fun found => ∀ component ∈ found, Made component)
      (images c limits repository names h) := by
  induction names generalizing h with
  | nil =>
    refine .pure ?_
    unfold Harvest.reply
    split
    · split
      · trivial
      · exact hfound
    · exact hfound
  | cons i rest ih =>
    refine (image_gives c limits repository i).bind fun answer hanswer => ?_
    cases answer with
    | ok found =>
      cases found with
      | none => exact ih h hfound
      | some component =>
        refine ih _ fun other hother => ?_
        rcases List.mem_append.1 hother with hother | hother
        · exact hfound other hother
        · rw [List.mem_singleton.1 hother]
          exact hanswer component rfl
    | failed failure => exact ih _ hfound
    | aborted message => exact .pure trivial

theorem resolve_gives (target : ScanTarget) :
    Gives (Reply.All fun found => ∀ component ∈ found, Made component)
      (resolve c limits target) := by
  cases target with
  | release repository tagStart fallback =>
    refine (release_gives c limits repository tagStart).bind fun answer hanswer => ?_
    cases answer with
    | ok found =>
      cases found with
      | none => exact images_gives c limits repository fallback _ nofun
      | some component =>
        refine .pure fun other hother => ?_
        rw [List.mem_singleton.1 hother]
        exact hanswer component rfl
    | failed failure => exact images_gives c limits repository fallback _ nofun
    | aborted message => exact .pure trivial
  | image repository i =>
    refine (image_gives c limits repository i).bind fun answer hanswer => ?_
    cases answer with
    | ok found =>
      refine .pure fun component hcomponent => hanswer component ?_
      simpa using hcomponent
    | failed failure => exact .pure trivial
    | aborted message => exact .pure trivial

/-! ## All of them are found -/

/-- Some resolution finds the component: for some catalogue and state of it, limits and target. -/
def CanFind (component : Component) : Prop :=
  ∃ (σ : Type) (c : Catalogue σ) (limits : ListingLimits) (target : ScanTarget) (s : σ)
    (found : List Component),
    (resolve c limits target s).1 = .ok found ∧ component ∈ found

/-- The catalogue in which every repository has one release and one commit, and every image was
published for every commit with the same digest. -/
def oneOfEach (tag sha : String) (digest : Option String) : Catalogue Unit where
  releases _ _ := return .ok [⟨tag, "main", false⟩]
  commits _ _ := return .ok [sha]
  manifest _ _ := return .ok (some ⟨digest⟩)

/-- Resolutions find exactly the releases and the images published for a commit. -/
theorem canFind_iff {component : Component} : CanFind component ↔ Made component := by
  constructor
  · rintro ⟨σ, c, limits, target, s, found, hfound, hmem⟩
    have hgives := resolve_gives c limits target s
    rw [hfound] at hgives
    exact hgives component hmem
  · intro hmade
    cases hmade with
    | release repository tag =>
      exact ⟨Unit, oneOfEach tag "" none, {}, .release repository "" [], (), _, rfl,
        List.mem_singleton_self _⟩
    | image repository sha i digest =>
      exact ⟨Unit, oneOfEach "" sha digest, {}, .image repository i, (), _, rfl,
        List.mem_singleton_self _⟩

end Resolution

end ReleaseCandidates
