import ReleaseCandidates.Proofs.Resolution.Probes

set_option autoImplicit false

/-! # Releases with images to fall back to

A release target is decided by its parts: what the forge answers when it is asked for the releases,
and what each image comes to when it is tried. The images are tried one after another, each in the
state that the one before has left; `Resolution.tries` says what they come to and what is asked for
each of them, and `Resolution.images_asked` that trying them all comes to no more than that.

Main statement: `Resolution.release_decided_by_parts`. -/

namespace ReleaseCandidates

variable {σ : Type}

/-! ## Replies and releases -/

/-- The failure that a reply is, if it is one. -/
def Reply.failure? {α : Type} : Reply α → Option Failure
  | .failed failure => some failure
  | .ok _ | .aborted _ => none

/-- A release that may be picked: it is stable, and its tag starts as configured. -/
def Release.IsCandidate (tagStart : String) (r : Release) : Prop :=
  r.prerelease = false ∧ tagStart.toList <+: r.tag.toList

theorem Release.qualifies_iff {tagStart : String} {r : Release} :
    r.qualifies tagStart = true ↔ r.IsCandidate tagStart := by
  simp [qualifies, IsCandidate, startsWith, List.isPrefixOf_iff_prefix]

/-- The first candidate of a listing is picked. -/
theorem newestQualifying_of_first {tagStart : String} {earlier later : List Release} {r : Release}
    (hearlier : ∀ other ∈ earlier, ¬ other.IsCandidate tagStart) (hr : r.IsCandidate tagStart) :
    newestQualifying (earlier ++ r :: later) tagStart = some r := by
  rw [newestQualifying, List.find?_eq_some_iff_append]
  refine ⟨Release.qualifies_iff.2 hr, earlier, later, rfl, ?_⟩
  intro other hother
  rw [Bool.not_eq_true', Bool.eq_false_iff, ne_eq, Release.qualifies_iff]
  exact hearlier other hother

theorem newestQualifying_eq_none {tagStart : String} {releases : List Release}
    (h : ∀ r ∈ releases, ¬ r.IsCandidate tagStart) : newestQualifying releases tagStart = none := by
  rw [newestQualifying, List.find?_eq_none]
  intro r hr hqualifies
  exact h r hr (Release.qualifies_iff.1 hqualifies)

/-! ## Questions asked before -/

/-- What was asked before makes no difference to what is asked from now on. -/
theorem Catalogue.asked_alike_after (c : Catalogue σ) (before : List Question) :
    AnswersAlike (fun a a' => a.state = a'.state ∧ a.questions = before ++ a'.questions)
      c.asked c.asked := by
  have hask {α : Type} (question : Question) (answer : StateM σ α) :
      Alike (fun a a' : Asked σ => a.state = a'.state ∧ a.questions = before ++ a'.questions)
        (Asked.ask question answer) (Asked.ask question answer) := by
    rintro ⟨s, questions⟩ ⟨s', questions'⟩ ⟨hstate, hquestions⟩
    obtain rfl : s = s' := hstate
    obtain rfl : questions = before ++ questions' := hquestions
    exact ⟨rfl, rfl, List.append_assoc _ _ _⟩
  exact ⟨fun _ _ => hask _ _, fun _ _ => hask _ _, fun _ _ => hask _ _⟩

namespace Resolution

/-! ## Trying images -/

/-- What came of trying an image, and what was asked for it. -/
structure Try where
  image : String
  reply : Reply (Option Component)
  questions : List Question
  deriving DecidableEq

/-- The component that a try has found. -/
def Try.component? (t : Try) : Option Component :=
  t.reply.value?.join

/-- The failure that a try has come to. -/
def Try.failure? (t : Try) : Option Failure :=
  t.reply.failure?

/-- The tries of images, one after another. -/
def tries (c : Catalogue σ) (limits : ListingLimits) (repository : String) :
    List String → σ → List Try
  | [], _ => []
  | i :: rest, s =>
    let run := image c.asked limits repository i ⟨s, []⟩
    ⟨i, run.1, run.2.questions⟩ :: tries c limits repository rest run.2.state

/-- A harvest with what came of tries. -/
def Harvest.addTries (h : Harvest) (ts : List Try) : Harvest where
  found := h.found ++ ts.filterMap Try.component?
  failure := h.failure.or (ts.findSome? Try.failure?)

namespace Harvest

variable (harvest : Harvest) (i : String) (asked : List Question)

theorem addTries_nil : harvest.addTries [] = harvest := by
  simp [addTries]

theorem addTries_append (ts ts' : List Try) :
    (harvest.addTries ts).addTries ts' = harvest.addTries (ts ++ ts') := by
  simp only [addTries, List.filterMap_append, List.findSome?_append, List.append_assoc,
    Option.or_assoc]

theorem addTries_nothing : harvest.addTries [⟨i, .ok none, asked⟩] = harvest := by
  have hnothing : Try.component? ⟨i, .ok none, asked⟩ = none := rfl
  simp [addTries, hnothing, Try.failure?, Reply.failure?]

theorem addTries_component (component : Component) :
    harvest.addTries [⟨i, .ok (some component), asked⟩] =
      { harvest with found := harvest.found ++ [component] } := by
  simp [addTries, Try.component?, Try.failure?, Reply.value?, Reply.failure?]

/-- The first failure stays. -/
theorem addTries_failure (failure : Failure) :
    harvest.addTries [⟨i, .failed failure, asked⟩] =
      { harvest with failure := some (harvest.failure.getD failure) } := by
  obtain ⟨found, _ | first⟩ := harvest
  · simp [addTries, Try.component?, Try.failure?, Reply.value?, Reply.failure?]
  · simp [addTries, Try.component?, Reply.value?]

end Harvest

section Images

variable (c : Catalogue σ) (limits : ListingLimits) (repository : String)

theorem map_image_tries (names : List String) (s : σ) :
    (tries c limits repository names s).map Try.image = names := by
  induction names generalizing s with
  | nil => rfl
  | cons i rest ih => rw [tries, List.map_cons, ih]

section Turn

variable {i : String} {s s' : σ} {reply : Reply (Option Component)} {asked : List Question}

/-- Trying an image adds its questions to those asked before. -/
theorem image_asked_after (h : image c.asked limits repository i ⟨s, []⟩ = (reply, ⟨s', asked⟩))
    (questions : List Question) :
    image c.asked limits repository i ⟨s, questions⟩ = (reply, ⟨s', questions ++ asked⟩) := by
  obtain ⟨hreply, hstate, hquestions⟩ := image_alike (c.asked_alike_after questions) limits
    repository i ⟨s, questions⟩ ⟨s, []⟩ ⟨rfl, (List.append_nil _).symm⟩
  rw [h] at hreply hstate hquestions
  rcases hrun : image c.asked limits repository i ⟨s, questions⟩ with ⟨reply', s'', asked'⟩
  rw [hrun] at hreply hstate hquestions
  obtain rfl : reply' = reply := hreply
  obtain rfl : s'' = s' := hstate
  obtain rfl : asked' = questions ++ asked := hquestions
  rfl

theorem tries_cons (h : image c.asked limits repository i ⟨s, []⟩ = (reply, ⟨s', asked⟩))
    (rest : List String) :
    tries c limits repository (i :: rest) s =
      ⟨i, reply, asked⟩ :: tries c limits repository rest s' := by
  rw [tries, h]

/-- One turn: the first image is tried, and what comes of it is added to the harvest. -/
theorem images_cons (h : image c.asked limits repository i ⟨s, []⟩ = (reply, ⟨s', asked⟩))
    (calm : ∀ message, reply ≠ .aborted message) (rest : List String) (harvest : Harvest)
    (questions : List Question) :
    images c.asked limits repository (i :: rest) harvest ⟨s, questions⟩ =
      images c.asked limits repository rest (harvest.addTries [⟨i, reply, asked⟩])
        ⟨s', questions ++ asked⟩ := by
  simp only [images, bind, StateT.bind, image_asked_after c limits repository h]
  rcases reply with (_ | component) | failure | message
  · rw [Harvest.addTries_nothing]
  · rw [Harvest.addTries_component]
  · rw [Harvest.addTries_failure]
  · exact absurd rfl (calm message)

/-- A try that is aborted is the last. -/
theorem images_cons_of_aborted {message : String}
    (h : image c.asked limits repository i ⟨s, []⟩ = (.aborted message, ⟨s', asked⟩))
    (rest : List String) (harvest : Harvest) (questions : List Question) :
    images c.asked limits repository (i :: rest) harvest ⟨s, questions⟩ =
      (.aborted message, ⟨s', questions ++ asked⟩) := by
  simp only [images, bind, StateT.bind, image_asked_after c limits repository h]
  rfl

end Turn

/-- Where no try is aborted, every image is tried, and what is made of them all is made of the
tries. -/
theorem images_asked (names : List String) (harvest : Harvest) (s : σ) (questions : List Question)
    (calm : ∀ t ∈ tries c limits repository names s, ∀ message, t.reply ≠ .aborted message) :
    ∃ s', images c.asked limits repository names harvest ⟨s, questions⟩ =
      ((harvest.addTries (tries c limits repository names s)).reply,
        ⟨s', questions ++ (tries c limits repository names s).flatMap Try.questions⟩) := by
  induction names generalizing harvest s questions with
  | nil =>
    refine ⟨s, ?_⟩
    rw [tries, Harvest.addTries_nil, List.flatMap_nil, List.append_nil]
    rfl
  | cons i rest ih =>
    rcases hrun : image c.asked limits repository i ⟨s, []⟩ with ⟨reply, s₁, asked⟩
    rw [tries_cons c limits repository hrun] at calm ⊢
    obtain ⟨hhere, hrest⟩ := List.forall_mem_cons.1 calm
    obtain ⟨s', heq⟩ := ih (harvest.addTries [⟨i, reply, asked⟩]) s₁ (questions ++ asked) hrest
    refine ⟨s', ?_⟩
    rw [images_cons c limits repository hrun hhere, heq, Harvest.addTries_append,
      List.flatMap_cons, List.append_assoc]
    rfl

/-- The tries end with the first that is aborted. -/
theorem images_of_aborted {names : List String} {s : σ} {before after : List Try} {t : Try}
    {message : String} (h : tries c limits repository names s = before ++ t :: after)
    (calm : ∀ t' ∈ before, ∀ message', t'.reply ≠ .aborted message')
    (haborted : t.reply = .aborted message) (harvest : Harvest) (questions : List Question) :
    ∃ s', images c.asked limits repository names harvest ⟨s, questions⟩ =
      (.aborted message, ⟨s', questions ++ (before ++ [t]).flatMap Try.questions⟩) := by
  induction names generalizing before harvest s questions with
  | nil => exact absurd h.symm (by simp [tries])
  | cons i rest ih =>
    rcases hrun : image c.asked limits repository i ⟨s, []⟩ with ⟨reply, s₁, asked⟩
    rw [tries_cons c limits repository hrun] at h
    rcases before with _ | ⟨first, before⟩
    · obtain ⟨rfl, -⟩ := List.cons.inj h
      obtain rfl : reply = .aborted message := haborted
      refine ⟨s₁, ?_⟩
      rw [images_cons_of_aborted c limits repository hrun, List.nil_append, List.flatMap_singleton]
    · obtain ⟨rfl, hrest⟩ := List.cons.inj h
      obtain ⟨hhere, hbefore⟩ := List.forall_mem_cons.1 calm
      obtain ⟨s', heq⟩ := ih hrest hbefore (harvest.addTries [⟨i, reply, asked⟩])
        (questions ++ asked)
      refine ⟨s', ?_⟩
      rw [images_cons c limits repository hrun hhere, heq, List.append_assoc, List.cons_append,
        List.flatMap_cons]

end Images

/-! ## The listing of the releases -/

section Listing

variable {c : Catalogue σ} {limits : ListingLimits} {repository : String} {s s' : σ}

/-- A listing gives its newest release that qualifies. -/
theorem release_of_listing {releases : List Release}
    (h : c.releases repository limits.releases s = (.ok releases, s')) (tagStart : String) :
    release c.asked limits repository tagStart ⟨s, []⟩ =
      (.ok ((newestQualifying releases tagStart).map fun r => Component.ofRelease repository r.tag),
        ⟨s', [.releases repository limits.releases]⟩) := by
  simp only [release, bind, StateT.bind, Catalogue.asked, Asked.ask, h]
  rfl

/-- A candidate in the listing is found, and that is all. -/
theorem releaseOrImages_of_candidate {releases : List Release} {tagStart : String} {r : Release}
    (h : c.releases repository limits.releases s = (.ok releases, s'))
    (hpicked : newestQualifying releases tagStart = some r) (fallback : List String) :
    releaseOrImages c.asked limits repository tagStart fallback ⟨s, []⟩ =
      (.ok [.ofRelease repository r.tag], ⟨s', [.releases repository limits.releases]⟩) := by
  simp only [releaseOrImages, bind, StateT.bind, release_of_listing h, hpicked, Option.map_some]
  rfl

theorem releaseOrImages_of_aborted {message : String}
    (h : c.releases repository limits.releases s = (.aborted message, s'))
    (tagStart : String) (fallback : List String) :
    releaseOrImages c.asked limits repository tagStart fallback ⟨s, []⟩ =
      (.aborted message, ⟨s', [.releases repository limits.releases]⟩) := by
  simp only [releaseOrImages, release, bind, StateT.bind, Catalogue.asked, Asked.ask, h]
  rfl

/-- Without a candidate the images are tried, and a failure of the listing is kept. -/
theorem releaseOrImages_of_none {reply : Reply (List Release)} {tagStart : String}
    (h : c.releases repository limits.releases s = (reply, s'))
    (calm : ∀ message, reply ≠ .aborted message)
    (hnone : ∀ releases, reply = .ok releases → ∀ r ∈ releases, ¬ r.IsCandidate tagStart)
    (fallback : List String) :
    releaseOrImages c.asked limits repository tagStart fallback ⟨s, []⟩ =
      images c.asked limits repository fallback ⟨[], reply.failure?⟩
        ⟨s', [.releases repository limits.releases]⟩ := by
  rcases reply with releases | failure | message
  · have hpicked := newestQualifying_eq_none (hnone releases rfl)
    simp only [releaseOrImages, bind, StateT.bind, release_of_listing h, hpicked, Option.map_none]
    rfl
  · simp only [releaseOrImages, release, bind, StateT.bind, Catalogue.asked, Asked.ask, h]
    rfl
  · exact absurd rfl (calm message)

end Listing

namespace Harvest

variable {harvest : Harvest}

/-- Once something is found, failures do not count. -/
theorem reply_of_found (h : harvest.found ≠ []) : harvest.reply = .ok harvest.found := by
  obtain ⟨found, _ | failure⟩ := harvest
  · rfl
  · exact if_neg (by simpa using h)

theorem failure_addTries (ts : List Try) :
    (harvest.addTries ts).failure =
      (harvest.failure.toList ++ ts.filterMap Try.failure?).head? := by
  rw [addTries, List.head?_append, Option.head?_toList, List.head?_filterMap]

theorem reply_of_nothing (h : harvest.found = []) (hnone : harvest.failure = none) :
    harvest.reply = .ok [] := by
  rw [reply, hnone, h]

theorem reply_of_failure {failure : Failure} (h : harvest.found = [])
    (hsome : harvest.failure = some failure) : harvest.reply = .failed failure := by
  rw [reply, hsome, h]
  rfl

end Harvest

/-- **A release target is decided by its parts.** Let the forge be asked for the releases of a
repository. If it lists a stable release whose tag starts as configured, the first such release of
the listing is the component found, and nothing else is asked. Otherwise, without images to fall
back to, the failure of the listing is passed on, or nothing is found; and with images, each of them
is tried once, in order, whatever came of the ones before. What they find is then found, in the order
of the images. If they find nothing, the first failure is passed on, the listing's being before
those of the images, and if nothing failed, nothing is found. The sudden end of a task while the
releases are listed or an image is tried is the end of the resolution. -/
theorem release_decided_by_parts (c : Catalogue σ) (limits : ListingLimits)
    (repository tagStart : String) (fallback : List String) (s : σ) :
    let listing := c.releases repository limits.releases s
    let listed : Question := .releases repository limits.releases
    let tried := tries c limits repository fallback listing.2
    let found := tried.filterMap Try.component?
    let failures := listing.1.failure?.toList ++ tried.filterMap Try.failure?
    let run := resolve c.asked limits (.release repository tagStart fallback) ⟨s, []⟩
    (resolve c limits (.release repository tagStart fallback) s).1 = run.1 ∧
    tried.map Try.image = fallback ∧
    (∀ earlier r later, listing.1 = .ok (earlier ++ r :: later) →
      (∀ other ∈ earlier, ¬ other.IsCandidate tagStart) → r.IsCandidate tagStart →
      run.2.questions = [listed] ∧
      run.1 = .ok [{
        repository := repository
        ref := r.tag
        name := repository
        mechanism := .release
        imageUrl := none
        imageDigest := none }]) ∧
    (∀ message, listing.1 = .aborted message →
      run.2.questions = [listed] ∧ run.1 = .aborted message) ∧
    ((∀ message, listing.1 ≠ .aborted message) →
      (∀ releases, listing.1 = .ok releases → ∀ r ∈ releases, ¬ r.IsCandidate tagStart) →
      (fallback = [] → run.2.questions = [listed] ∧
        (∀ failure, listing.1 = .failed failure → run.1 = .failed failure) ∧
        (∀ releases, listing.1 = .ok releases → run.1 = .ok [])) ∧
      ((∀ t ∈ tried, ∀ message, t.reply ≠ .aborted message) →
        run.2.questions = listed :: tried.flatMap Try.questions ∧
        (found ≠ [] → run.1 = .ok found) ∧
        (found = [] → ∀ first others, failures = first :: others → run.1 = .failed first) ∧
        (found = [] → failures = [] → run.1 = .ok [])) ∧
      ∀ before t after message, tried = before ++ t :: after →
        (∀ t' ∈ before, ∀ message', t'.reply ≠ .aborted message') → t.reply = .aborted message →
        run.2.questions = listed :: (before ++ [t]).flatMap Try.questions ∧
        run.1 = .aborted message) := by
  intro listing listed tried found failures run
  have hrun : run = releaseOrImages c.asked limits repository tagStart fallback ⟨s, []⟩ := rfl
  refine ⟨(resolve_alike c.asked_alike limits (.release repository tagStart fallback) ⟨s, []⟩ s
    rfl).1.symm, map_image_tries c limits repository fallback listing.2, ?_, ?_, ?_⟩
  · intro earlier r later hlisting hearlier hr
    rw [hrun, releaseOrImages_of_candidate (Prod.ext hlisting rfl)
      (newestQualifying_of_first hearlier hr) fallback]
    exact ⟨rfl, rfl⟩
  · intro message hlisting
    rw [hrun, releaseOrImages_of_aborted (Prod.ext hlisting rfl) tagStart fallback]
    exact ⟨rfl, rfl⟩
  · intro calm hnone
    -- the listing has decided nothing but the failure that the images start with
    rw [releaseOrImages_of_none rfl calm hnone] at hrun
    refine ⟨?_, ?_, ?_⟩
    · rintro rfl
      -- no image is left to try, so the harvest that they start with is all there is
      refine ⟨congrArg (fun r => r.2.questions) hrun, ?_, ?_⟩
      · intro failure hlisting
        exact (congrArg Prod.fst hrun).trans
          (Harvest.reply_of_failure rfl (congrArg Reply.failure? hlisting))
      · intro releases hlisting
        exact (congrArg Prod.fst hrun).trans
          (Harvest.reply_of_nothing rfl (congrArg Reply.failure? hlisting))
    · intro htried
      obtain ⟨s', heq⟩ := images_asked c limits repository fallback ⟨[], listing.1.failure?⟩
        listing.2 [listed] htried
      have hfailure : (Harvest.addTries ⟨[], listing.1.failure?⟩ tried).failure = failures.head? :=
        Harvest.failure_addTries tried
      rw [hrun.trans heq]
      refine ⟨rfl, ?_, ?_, ?_⟩
      · intro hfound
        exact Harvest.reply_of_found hfound
      · intro hnothing first others hfirst
        rw [hfirst] at hfailure
        exact Harvest.reply_of_failure hnothing hfailure
      · intro hnothing hnofailure
        rw [hnofailure] at hfailure
        exact Harvest.reply_of_nothing hnothing hfailure
    · intro before t after message htried hbefore haborted
      obtain ⟨s', heq⟩ := images_of_aborted c limits repository htried hbefore haborted
        ⟨[], listing.1.failure?⟩ [listed]
      rw [hrun.trans heq]
      exact ⟨rfl, rfl⟩

/-- The failure of a forge that cannot be reached. -/
def unreachable : Failure := .http .unreadableBody

/-- A forge that lists a prerelease above a release for one repository, a prerelease alone for all
others, and that fails when it is first asked for commits. -/
def unsteady : Catalogue Nat where
  releases repository _ := return .ok (
    if repository = "o/stable" then [⟨"v2-rc", "main", true⟩, ⟨"v1", "main", false⟩]
    else [⟨"v2-rc", "main", true⟩])
  commits _ _ := fun asked => (if asked = 0 then .failed unreachable else .ok ["c1"], asked + 1)
  manifest i _ := return .ok (if i = "quay.io/o/b" then some ⟨none⟩ else none)

/-- What the images come to that are tried for a repository without a release. -/
def unsteadyTries : List Try := [
  ⟨"quay.io/o/a", .failed unreachable, [.commits "o/r" 20]⟩,
  ⟨"quay.io/o/b", .ok (some ⟨"o/r", "c1", "o/b", .commit, some "quay.io/o/b:latest-c1", none⟩),
    [.commits "o/r" 20, .manifest "quay.io/o/b" "latest-c1"]⟩]

/-- A release that is older than a prerelease; and a repository without a release, for which the
first image fails and the second is found. -/
theorem release_decided_by_parts_with_failure :
    (resolve unsteady {} (.release "o/stable" "v" ["quay.io/o/b"]) 0).1 =
        .ok [⟨"o/stable", "v1", "o/stable", .release, none, none⟩] ∧
      tries unsteady {} "o/r" ["quay.io/o/a", "quay.io/o/b"] 0 = unsteadyTries ∧
      (resolve unsteady {} (.release "o/r" "v" ["quay.io/o/a", "quay.io/o/b"]) 0).1 =
        .ok [⟨"o/r", "c1", "o/b", .commit, some "quay.io/o/b:latest-c1", none⟩] := by
  have hprerelease : ∀ other ∈ [(⟨"v2-rc", "main", true⟩ : Release)], ¬ other.IsCandidate "v" := by
    simp [Release.IsCandidate]
  have hrelease : Release.IsCandidate "v" ⟨"v1", "main", false⟩ :=
    ⟨rfl, List.isPrefixOf_iff_prefix.1 (by decide)⟩
  have htries : tries unsteady {} "o/r" ["quay.io/o/a", "quay.io/o/b"] 0 = unsteadyTries := by
    decide
  obtain ⟨hsame, -, hpicked, -⟩ :=
    release_decided_by_parts unsteady {} "o/stable" "v" ["quay.io/o/b"] 0
  obtain ⟨hsame', -, -, -, htried⟩ :=
    release_decided_by_parts unsteady {} "o/r" "v" ["quay.io/o/a", "quay.io/o/b"] 0
  refine ⟨hsame.trans (hpicked _ _ _ rfl hprerelease hrelease).2, htries, hsame'.trans ?_⟩
  have hnone : ∀ releases, (unsteady.releases "o/r" 100 0).1 = .ok releases →
      ∀ r ∈ releases, ¬ r.IsCandidate "v" := by
    rintro releases hreleases
    obtain rfl : [⟨"v2-rc", "main", true⟩] = releases := Reply.ok.inj hreleases
    exact hprerelease
  have calm : ∀ t ∈ tries unsteady {} "o/r" ["quay.io/o/a", "quay.io/o/b"] 0,
      ∀ message, t.reply ≠ .aborted message := by
    simp [htries, unsteadyTries]
  have hcomponents :
      (tries unsteady {} "o/r" ["quay.io/o/a", "quay.io/o/b"] 0).filterMap Try.component? =
        [⟨"o/r", "c1", "o/b", .commit, some "quay.io/o/b:latest-c1", none⟩] := by
    rw [htries]
    rfl
  obtain ⟨-, hfound, -⟩ := (htried nofun hnone).2.1 calm
  exact (hfound (hcomponents ▸ List.cons_ne_nil _ _)).trans (congrArg Reply.ok hcomponents)

end Resolution

end ReleaseCandidates
