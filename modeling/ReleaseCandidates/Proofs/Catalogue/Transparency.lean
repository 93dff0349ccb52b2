import ReleaseCandidates.Proofs.Catalogue.Sharing
import ReleaseCandidates.Scan

set_option autoImplicit false

/-! # Resolving through a cache

A cache asks less of the catalogue behind it, so what that answers may change with the cache in
front of it. It does not if the forge answers every question always the same and the registry does
not go by what the forge was asked (`Catalogue.FixedForge`). Then the two catalogues give the same
answers, question by question, and every resolution asks both the same questions
(`Resolution.resolve_alike`).

Main statement: `Catalogue.cache_fetches_once`. -/

namespace ReleaseCandidates

variable {σ σ' ρ : Type}

/-! ## Catalogues that answer alike -/

/-- From related states, two computations give the same and come to related states again. -/
def Alike {α : Type} (R : σ → σ' → Prop) (x : StateM σ α) (y : StateM σ' α) : Prop :=
  ∀ s s', R s s' → (x s).1 = (y s').1 ∧ R (x s).2 (y s').2

namespace Alike

variable {α β : Type} {R : σ → σ' → Prop}

theorem pure (a : α) : Alike R (Pure.pure a) (Pure.pure a) :=
  fun _ _ h => ⟨rfl, h⟩

theorem bind {x : StateM σ α} {y : StateM σ' α} {f : α → StateM σ β} {g : α → StateM σ' β}
    (hx : Alike R x y) (hf : ∀ a, Alike R (f a) (g a)) : Alike R (x >>= f) (y >>= g) := by
  intro s s' h
  obtain ⟨hanswer, hstate⟩ := hx s s' h
  show (f (x s).1 (x s).2).1 = (g (y s').1 (y s').2).1 ∧
    R (f (x s).1 (x s).2).2 (g (y s').1 (y s').2).2
  rw [hanswer]
  exact hf _ _ _ hstate

end Alike

/-- Two catalogues answer alike in related states. -/
structure Catalogue.AnswersAlike (R : σ → σ' → Prop) (c : Catalogue σ) (c' : Catalogue σ') :
    Prop where
  releases (repository : String) (limit : Nat) :
    Alike R (c.releases repository limit) (c'.releases repository limit)
  commits (repository : String) (limit : Nat) :
    Alike R (c.commits repository limit) (c'.commits repository limit)
  manifest (image tag : String) : Alike R (c.manifest image tag) (c'.manifest image tag)

namespace Resolution

section Alike

variable {R : σ → σ' → Prop} {c : Catalogue σ} {c' : Catalogue σ'}
  (halike : Catalogue.AnswersAlike R c c') (limits : ListingLimits)

include halike

theorem release_alike (repository tagStart : String) :
    Alike R (release c limits repository tagStart) (release c' limits repository tagStart) :=
  (halike.releases _ _).bind fun reply => by
    cases reply <;> exact .pure _

theorem firstPublished_alike (repository i : String) (commits : List String) :
    Alike R (firstPublished c repository i commits) (firstPublished c' repository i commits) := by
  induction commits with
  | nil => exact .pure _
  | cons sha rest ih =>
    refine (halike.manifest _ _).bind fun reply => ?_
    rcases reply with (_ | manifest) | _ | _
    · exact ih
    · exact .pure _
    · exact ih
    · exact .pure _

theorem image_alike (repository i : String) :
    Alike R (image c limits repository i) (image c' limits repository i) := by
  refine (halike.commits _ _).bind fun reply => ?_
  cases reply with
  | ok commits => exact firstPublished_alike halike repository i commits
  | failed failure => exact .pure _
  | aborted message => exact .pure _

theorem images_alike (repository : String) (names : List String) (h : Harvest) :
    Alike R (images c limits repository names h) (images c' limits repository names h) := by
  induction names generalizing h with
  | nil => exact .pure _
  | cons i rest ih =>
    refine (image_alike halike limits repository i).bind fun reply => ?_
    rcases reply with (_ | component) | failure | message
    · exact ih _
    · exact ih _
    · exact ih _
    · exact .pure _

theorem releaseOrImages_alike (repository tagStart : String) (fallback : List String) :
    Alike R (releaseOrImages c limits repository tagStart fallback)
      (releaseOrImages c' limits repository tagStart fallback) := by
  refine (release_alike halike limits repository tagStart).bind fun reply => ?_
  rcases reply with (_ | component) | failure | message
  · exact images_alike halike limits repository fallback _
  · exact .pure _
  · exact images_alike halike limits repository fallback _
  · exact .pure _

/-- A resolution goes by the answers of the catalogue and by nothing else. -/
theorem resolve_alike (target : ScanTarget) :
    Alike R (resolve c limits target) (resolve c' limits target) := by
  cases target with
  | release repository tagStart fallback =>
    exact releaseOrImages_alike halike limits repository tagStart fallback
  | image repository i =>
    refine (image_alike halike limits repository i).bind fun reply => ?_
    cases reply <;> exact .pure _

theorem runTasks_alike (number : Nat) (targets : List ScanTarget) :
    Alike R (Scan.runTasks c limits number targets) (Scan.runTasks c' limits number targets) := by
  induction targets generalizing number with
  | nil => exact .pure _
  | cons target rest ih =>
    exact (resolve_alike halike limits target).bind fun _ => (ih _).bind fun _ => .pure _

end Alike

end Resolution

/-! ## A forge that does not change -/

/-- The forge of a catalogue answers a question always the same, and the registry goes by a part of
the state that questions to the forge leave alone. -/
structure Catalogue.FixedForge (c : Catalogue σ) (releases : String → Nat → Reply (List Release))
    (commits : String → Nat → Reply (List String)) (registry : σ → ρ) : Prop where
  releases (repository : String) (limit : Nat) (s : σ) :
    (c.releases repository limit s).1 = releases repository limit ∧
      registry (c.releases repository limit s).2 = registry s
  commits (repository : String) (limit : Nat) (s : σ) :
    (c.commits repository limit s).1 = commits repository limit ∧
      registry (c.commits repository limit s).2 = registry s
  manifest (image tag : String) {s s' : σ} (same : registry s = registry s') :
    (c.manifest image tag s).1 = (c.manifest image tag s').1 ∧
      registry (c.manifest image tag s).2 = registry (c.manifest image tag s').2

/-- A cache in front of a forge remembers what the forge would answer, and the registry is in the
state that it would be in without the cache. -/
structure Remembers (commits : String → Nat → Reply (List String)) (registry : σ → ρ)
    (m : Remembered σ) (s : σ) : Prop where
  registry_eq : registry m.inner = registry s
  listing {key : ListingKey} {listing : List String} (known : m.listing? key = some listing) :
    commits key.1 key.2 = .ok listing

namespace Catalogue

variable {c : Catalogue σ} {releases : String → Nat → Reply (List Release)}
  {commits : String → Nat → Reply (List String)} {registry : σ → ρ}

theorem FixedForge.commits_cached (h : c.FixedForge releases commits registry) {m : Remembered σ}
    {s : σ} (hm : Remembers commits registry m s) (key : ListingKey) :
    (c.cached.commits key.1 key.2 m).1 = commits key.1 key.2 ∧
      Remembers commits registry (c.cached.commits key.1 key.2 m).2 s := by
  cases hknown : m.listing? key with
  | some listing =>
    rw [commits_cached_of_known hknown]
    exact ⟨(hm.listing hknown).symm, hm⟩
  | none =>
    rcases hcall : c.cached.commits key.1 key.2 m with ⟨reply, m'⟩
    obtain ⟨hasked, hself, hothers⟩ := commits_cached_of_unknown hknown hcall
    obtain ⟨hreply, hregistry⟩ := h.commits key.1 key.2 m.inner
    rw [hasked] at hreply hregistry
    refine ⟨hreply, hregistry.trans hm.registry_eq, ?_⟩
    intro other listing hlisting
    by_cases hother : other = key
    · rw [hother, hself] at hlisting
      rw [hother, ← hreply]
      cases reply with
      | ok fetched => rw [Option.some.inj hlisting]
      | failed failure => cases hlisting
      | aborted message => cases hlisting
    · rw [hothers other hother] at hlisting
      exact hm.listing hlisting

/-- A cache in front of a forge that does not change answers as the forge. -/
theorem FixedForge.cached_alike (h : c.FixedForge releases commits registry) :
    AnswersAlike (Remembers commits registry) c.cached c where
  releases repository limit m s hm := by
    obtain ⟨hreply, hregistry⟩ := h.releases repository limit m.inner
    obtain ⟨hreply', hregistry'⟩ := h.releases repository limit s
    refine ⟨hreply.trans hreply'.symm, ?_, hm.listing⟩
    exact hregistry.trans (hm.registry_eq.trans hregistry'.symm)
  commits repository limit m s hm := by
    obtain ⟨hreply, hm'⟩ := h.commits_cached hm (repository, limit)
    obtain ⟨hreply', hregistry'⟩ := h.commits repository limit s
    exact ⟨hreply.trans hreply'.symm, hm'.registry_eq.trans hregistry'.symm, hm'.listing⟩
  manifest image tag m s hm := by
    obtain ⟨hreply, hregistry⟩ := h.manifest image tag hm.registry_eq
    exact ⟨hreply, hregistry, hm.listing⟩

theorem remembers_start (commits : String → Nat → Reply (List String)) (registry : σ → ρ) (s : σ) :
    Remembers commits registry (.start s) s :=
  ⟨rfl, nofun⟩

/-! ## Callers that share a cache -/

/-- What callers fetch from a forge that does not change is what it always answers. -/
theorem FixedForge.fetched_eq (h : c.FixedForge releases commits registry) {start : σ}
    {events : List CacheEvent} {s : Traffic σ} (hafter : Traffic.After c start events s)
    {key : ListingKey} {caller : Nat} {reply : Reply (List String)}
    (hmem : .fetched caller reply ∈ eventsAt key events) : reply = commits key.1 key.2 := by
  induction hafter with
  | start => cases hmem
  | @step events s s' e before step ih =>
    by_cases hkey : key = e.key
    · rw [hkey, eventsAt_concat_self, List.mem_append, List.mem_singleton] at hmem
      rcases hmem with hearlier | hnow
      · rw [← hkey] at hearlier
        exact ih hearlier
      · obtain ⟨key', event⟩ := e
        obtain rfl : key = key' := hkey
        obtain rfl : CallEvent.fetched caller reply = event := hnow
        cases step with
        | fetched fetches call =>
          have unknown := (before.cell key).unknown fetches
          obtain ⟨hasked, -, -⟩ := commits_cached_of_unknown unknown call
          rw [← (h.commits key.1 key.2 s.memory.inner).1, hasked]
    · rw [eventsAt_concat_of_ne hkey] at hmem
      exact ih hmem

/-- And so is what they are given after they waited. -/
theorem FixedForge.found_eq (h : c.FixedForge releases commits registry) {start : σ}
    {events : List CacheEvent} {s : Traffic σ} (hafter : Traffic.After c start events s)
    {key : ListingKey} {caller : Nat} {reply : Reply (List String)}
    (hmem : .found caller reply ∈ eventsAt key events) : reply = commits key.1 key.2 := by
  obtain ⟨failures, success, hfetches⟩ := (hafter.cell key).fetchesOnce
  obtain ⟨⟨fetcher, listing⟩, rfl, rfl⟩ := hfetches.found reply (Cell.mem_founds_of_mem hmem)
  have hfetched : (fetcher, Reply.ok listing) ∈ Cell.fetches (eventsAt key events) := by
    rw [hfetches.fetches_eq]
    simp
  exact h.fetched_eq hafter (Cell.mem_fetches.1 hfetched)

/-- **A cache fetches a listing once and is not noticed.** Let callers ask a new cache for listings,
of any repositories and lengths, and let their calls come to an end in any order. The catalogue
behind is then asked for the listings that are fetched and for no others. For each listing, the
fetches that failed come first, each giving its caller what the catalogue answered; there is at most
one further fetch, none after one that succeeded; and what that gave is remembered and given to all
other callers. Listings have nothing to do with each other: whatever can happen to each of them
alone can happen to all of them, in any order. And in front of a forge that answers a question
always the same, all callers are given what the forge would answer, and resolving any targets gives
the same through the cache as without it. -/
theorem cache_fetches_once (c : Catalogue σ) (start : σ) :
    (∀ events s, Traffic.After c.logged (start, []) events s →
      s.memory.inner.2 = events.filterMap CacheEvent.fetched? ∧
      ∀ key, (∃ failures success,
          Cell.FetchesOnce (eventsAt key events) (s.cell key) failures success) ∧
        ∀ earlier caller listing later,
          eventsAt key events = earlier ++ .fetched caller (.ok listing) :: later →
          ∀ other, .began other ∉ later) ∧
    (∀ events, (∃ (σ : Type) (c : Catalogue σ) (start : σ) (s : Traffic σ),
        Traffic.After c start events s) ↔
      ∀ key, ∃ cell, Cell.After (eventsAt key events) cell) ∧
    ∀ {ρ : Type} releases commits (registry : σ → ρ), c.FixedForge releases commits registry →
      (∀ events s, Traffic.After c start events s → ∀ key caller reply,
        .fetched caller reply ∈ eventsAt key events ∨ .found caller reply ∈ eventsAt key events →
          reply = commits key.1 key.2) ∧
      ∀ limits number targets,
        (Scan.runTasks c.cached limits number targets (.start start)).1 =
          (Scan.runTasks c limits number targets start).1 := by
  refine ⟨fun events s hafter => ⟨hafter.log, fun key => ⟨?_, ?_⟩⟩, Traffic.possible_iff,
    fun releases commits registry hfixed => ⟨?_, ?_⟩⟩
  · exact (hafter.cell key).fetchesOnce
  · intro earlier caller listing later heq
    have hcell := hafter.cell key
    rw [heq] at hcell
    exact hcell.no_fetch_later.2
  · intro events s hafter key caller reply hgiven
    rcases hgiven with hfetched | hfound
    · exact hfixed.fetched_eq hafter hfetched
    · exact hfixed.found_eq hafter hfound
  · intro limits number targets
    exact (Resolution.runTasks_alike hfixed.cached_alike limits number targets _ _
      (remembers_start commits registry start)).1

/-! ### A fetch that fails and is repeated -/

/-- A listing. -/
def listingKey : ListingKey := ("o/a", 5)

/-- The failure of a forge that is out of order. -/
def outOfOrder : Failure := .forgeStatus "502 Bad Gateway" "o/a" ""

/-- Three calls for a listing: the fetch of the first fails, the second fetches the listing, and the
third finds it. -/
def threeCalls : List CacheEvent :=
  [⟨listingKey, .asked 1⟩, ⟨listingKey, .asked 2⟩, ⟨listingKey, .began 1⟩,
    ⟨listingKey, .fetched 1 (.failed outOfOrder)⟩, ⟨listingKey, .began 2⟩,
    ⟨listingKey, .fetched 2 (.ok ["c1"])⟩, ⟨listingKey, .asked 3⟩,
    ⟨listingKey, .found 3 (.ok ["c1"])⟩]

/-- The answers of a catalogue that fails once. -/
def failsOnce (key : ListingKey) : List (Reply (List String)) :=
  if key = listingKey then [.failed outOfOrder, .ok ["c1"]] else []

theorem after_threeCalls :
    ∃ s, Traffic.After Traffic.scripted.logged (failsOnce, []) threeCalls s := by
  have h₀ : Traffic.After Traffic.scripted.logged (failsOnce, []) [] _ := .start
  have h₁ := h₀.step (.asked listingKey 1)
  have h₂ := h₁.step (.asked listingKey 2)
  have h₃ := h₂.step (.began (by decide : 1 ∈ [2, 1]) rfl rfl :
    Traffic.Step _ _ ⟨listingKey, .began 1⟩ _)
  have h₄ := h₃.step (.fetched rfl rfl :
    Traffic.Step _ _ ⟨listingKey, .fetched 1 (.failed outOfOrder)⟩ _)
  have h₅ := h₄.step (.began (by decide : 2 ∈ [2]) rfl rfl :
    Traffic.Step _ _ ⟨listingKey, .began 2⟩ _)
  have h₆ := h₅.step (.fetched rfl rfl : Traffic.Step _ _ ⟨listingKey, .fetched 2 (.ok ["c1"])⟩ _)
  have h₇ := h₆.step (.asked listingKey 3)
  have h₈ := h₇.step (.found (by decide : 3 ∈ [3]) rfl rfl :
    Traffic.Step _ _ ⟨listingKey, .found 3 (.ok ["c1"])⟩ _)
  exact ⟨_, h₈⟩

/-- A forge with two commits, and a registry with an image for the second. -/
def steady : Catalogue Unit where
  releases _ _ := return .ok []
  commits _ _ := return .ok ["c2", "c1"]
  manifest _ tag := return .ok (if tag = imageTag "c1" then some ⟨none⟩ else none)

theorem fixedForge_steady :
    steady.FixedForge (fun _ _ => .ok []) (fun _ _ => .ok ["c2", "c1"]) fun _ => () where
  releases _ _ _ := ⟨rfl, rfl⟩
  commits _ _ _ := ⟨rfl, rfl⟩
  manifest _ _ _ _ _ := ⟨rfl, rfl⟩

theorem cache_fetches_once_after_failure :
    (∃ s, Traffic.After Traffic.scripted.logged (failsOnce, []) threeCalls s ∧
      s.memory.inner.2 = [(listingKey, .failed outOfOrder), (listingKey, .ok ["c1"])]) ∧
    (Scan.runTasks steady.cached {} 1 [.image "o/a" "r/a", .image "o/a" "r/b"]
        (.start ())).1 =
      (Scan.runTasks steady {} 1 [.image "o/a" "r/a", .image "o/a" "r/b"] ()).1 := by
  obtain ⟨s, hafter⟩ := after_threeCalls
  obtain ⟨hlog, -⟩ := (cache_fetches_once Traffic.scripted failsOnce).1 _ s hafter
  refine ⟨⟨s, hafter, hlog⟩, ?_⟩
  exact ((cache_fetches_once steady ()).2.2 _ _ _ fixedForge_steady).2 _ _ _

end Catalogue

end ReleaseCandidates
