import ReleaseCandidates.Proofs.Catalogue.Transparency

set_option autoImplicit false

/-! # Which commit is selected, and what is asked for it

`Catalogue.asked` is a catalogue that writes down the questions put to it, and answers as before.
With it the search for a published commit is described as a whole: which commit it ends at, and that
it asks about the commits up to that one, in order, and about no others. The probes for the commits
are made one after another, so what each of them is answered is said by `Resolution.answers`.

Main statement: `Resolution.newest_published_selected`. -/

namespace ReleaseCandidates

variable {σ : Type}

/-- The component for a commit names the image with the tag for the commit. -/
theorem Component.ofImage_imageTag (repository sha image : String) (digest : Option String) :
    ofImage repository sha image (imageTag sha) digest = {
      repository := repository
      ref := sha
      name := imageName repository image
      mechanism := .commit
      imageUrl := some (image ++ ":latest-" ++ sha)
      imageDigest := digest } := by
  have hstart : ":latest-" = ":" ++ "latest-" := by decide
  simp only [ofImage, imageTag, hstart, String.append_assoc]

/-! ## A catalogue that writes down its questions -/

/-- A question to a catalogue. -/
inductive Question where
  | releases (repository : String) (limit : Nat)
  | commits (repository : String) (limit : Nat)
  | manifest (image tag : String)
  deriving DecidableEq, Repr

/-- The state of a catalogue and the questions put to it. -/
structure Asked (σ : Type) where
  state : σ
  questions : List Question

/-- Puts a question to a catalogue and writes it down. -/
def Asked.ask {α : Type} (question : Question) (answer : StateM σ α) : StateM (Asked σ) α :=
  fun a => ((answer a.state).1, ⟨(answer a.state).2, a.questions ++ [question]⟩)

/-- The catalogue with its questions written down. -/
def Catalogue.asked (c : Catalogue σ) : Catalogue (Asked σ) where
  releases repository limit := Asked.ask (.releases repository limit) (c.releases repository limit)
  commits repository limit := Asked.ask (.commits repository limit) (c.commits repository limit)
  manifest image tag := Asked.ask (.manifest image tag) (c.manifest image tag)

theorem Asked.ask_alike {α : Type} (question : Question) (answer : StateM σ α) :
    Alike (fun a s => a.state = s) (Asked.ask question answer) answer := by
  rintro a s rfl
  exact ⟨rfl, rfl⟩

/-- Writing down changes nothing. -/
theorem Catalogue.asked_alike (c : Catalogue σ) :
    AnswersAlike (fun a s => a.state = s) c.asked c where
  releases _ _ := Asked.ask_alike _ _
  commits _ _ := Asked.ask_alike _ _
  manifest _ _ := Asked.ask_alike _ _

namespace Resolution

/-! ## Probes, one after another -/

/-- What the probes of an image for commits are answered, one after another. -/
def answers (c : Catalogue σ) (i : String) : List String → σ → List (Reply (Option Manifest))
  | [], _ => []
  | sha :: rest, s =>
    (c.manifest i (imageTag sha) s).1 :: answers c i rest (c.manifest i (imageTag sha) s).2

/-- The questions that the probes of an image for commits are. -/
def probes (i : String) (commits : List String) : List Question :=
  commits.map fun sha => .manifest i (imageTag sha)

/-- Whether a probe has found nothing: the tag is absent, or the registry could not say. -/
def isMiss : Reply (Option Manifest) → Bool
  | .ok none | .failed _ => true
  | .ok (some _) | .aborted _ => false

/-- Where no probe is aborted and none has found a manifest, all of them are misses. -/
theorem isMiss_of_mem {replies : List (Reply (Option Manifest))}
    (calm : ∀ message, .aborted message ∉ replies)
    (hnone : ∀ manifest, .ok (some manifest) ∉ replies) :
    ∀ answer ∈ replies, isMiss answer = true := by
  intro answer hmem
  rcases answer with (_ | manifest) | failure | message
  · rfl
  · exact absurd hmem (hnone manifest)
  · rfl
  · exact absurd hmem (calm message)

section Search

variable (c : Catalogue σ) (repository i : String)

/-- One turn of the search: the probe for the first commit is made, and what it is answered decides
how the search goes on. -/
theorem firstPublished_cons (sha : String) (rest : List String) (s : σ)
    (questions : List Question) :
    firstPublished c.asked repository i (sha :: rest) ⟨s, questions⟩ =
      let next : Asked σ := ⟨(c.manifest i (imageTag sha) s).2, questions ++ probes i [sha]⟩
      match (c.manifest i (imageTag sha) s).1 with
      | .ok (some manifest) =>
        (.ok (some (.ofImage repository sha i (imageTag sha) manifest.digest)), next)
      | .ok none | .failed _ => firstPublished c.asked repository i rest next
      | .aborted message => (.aborted message, next) := by
  simp only [firstPublished, bind, StateT.bind, Catalogue.asked, Asked.ask]
  rcases (c.manifest i (imageTag sha) s).1 with (_ | manifest) | _ | _ <;> rfl

/-- A miss is passed over. -/
theorem firstPublished_of_miss {sha : String} {s : σ}
    (miss : isMiss (c.manifest i (imageTag sha) s).1 = true) (rest : List String)
    (questions : List Question) :
    firstPublished c.asked repository i (sha :: rest) ⟨s, questions⟩ =
      firstPublished c.asked repository i rest
        ⟨(c.manifest i (imageTag sha) s).2, questions ++ probes i [sha]⟩ := by
  rw [firstPublished_cons]
  rcases hanswer : (c.manifest i (imageTag sha) s).1 with (_ | manifest) | failure | message
  · rfl
  · rw [hanswer] at miss
    cases miss
  · rfl
  · rw [hanswer] at miss
    cases miss

/-- The search ends at the first commit whose probe has found a manifest. -/
theorem firstPublished_of_hit {commits : List String} {s : σ} {n : Nat} {manifest : Manifest}
    (hit : (answers c i commits s)[n]? = some (.ok (some manifest)))
    (misses : ∀ answer ∈ (answers c i commits s).take n, isMiss answer = true)
    (questions : List Question) :
    ∃ sha s', commits[n]? = some sha ∧
      firstPublished c.asked repository i commits ⟨s, questions⟩ =
        (.ok (some (.ofImage repository sha i (imageTag sha) manifest.digest)),
          ⟨s', questions ++ probes i (commits.take (n + 1))⟩) := by
  induction commits generalizing s n questions with
  | nil => cases hit
  | cons sha rest ih =>
    cases n with
    | zero =>
      have hfound : (c.manifest i (imageTag sha) s).1 = .ok (some manifest) :=
        Option.some.inj hit
      refine ⟨sha, (c.manifest i (imageTag sha) s).2, rfl, ?_⟩
      rw [firstPublished_cons, hfound]
      rfl
    | succ n =>
      rw [answers, List.take_succ_cons, List.forall_mem_cons] at misses
      obtain ⟨sha', s', hsha', hsearch⟩ := ih hit misses.2 (questions ++ probes i [sha])
      refine ⟨sha', s', hsha', ?_⟩
      rw [firstPublished_of_miss c repository i misses.1, hsearch, List.append_assoc]
      rfl

/-- Where no probe finds a manifest, all of them are made. -/
theorem firstPublished_of_misses {commits : List String} {s : σ}
    (misses : ∀ answer ∈ answers c i commits s, isMiss answer = true)
    (questions : List Question) :
    ∃ s', firstPublished c.asked repository i commits ⟨s, questions⟩ =
      (.ok none, ⟨s', questions ++ probes i commits⟩) := by
  induction commits generalizing s questions with
  | nil => exact ⟨s, by rw [probes, List.map_nil, List.append_nil]; rfl⟩
  | cons sha rest ih =>
    obtain ⟨hmiss, hrest⟩ := List.forall_mem_cons.1 misses
    obtain ⟨s', hsearch⟩ := ih hrest (questions ++ probes i [sha])
    refine ⟨s', ?_⟩
    rw [firstPublished_of_miss c repository i hmiss, hsearch, List.append_assoc]
    rfl

end Search

/-! ## The commit that is selected -/

/-- The search for a commit, with its questions, follows the listing. -/
theorem image_asked (c : Catalogue σ) (limits : ListingLimits) (repository i : String) (s : σ) :
    image c.asked limits repository i ⟨s, []⟩ =
      let next : Asked σ :=
        ⟨(c.commits repository limits.commits s).2, [.commits repository limits.commits]⟩
      match (c.commits repository limits.commits s).1 with
      | .ok commits => firstPublished c.asked repository i commits next
      | .failed failure => (.failed failure, next)
      | .aborted message => (.aborted message, next) := by
  simp only [image, bind, StateT.bind, Catalogue.asked, Asked.ask]
  rcases (c.commits repository limits.commits s).1 with _ | _ | _ <;> rfl

/-- **The newest commit with a published image is selected, and nothing is asked beyond it.** If the
commits cannot be listed, the failure is passed on and no probe is made. Else the commits are probed
in the order of the listing. If the probe at some position is the first that finds a manifest, the
component found is that of the commit there, with the image under the commit's tag and with the
digest of the manifest, and the probes made are those for the positions up to this one; a registry
that cannot say counts as one that has no manifest. If no probe finds a manifest, nothing is found,
and each commit of the listing has been probed once, in order. -/
theorem newest_published_selected (c : Catalogue σ) (limits : ListingLimits)
    (repository i : String) (s : σ) :
    let listing := c.commits repository limits.commits s
    let run := image c.asked limits repository i ⟨s, []⟩
    let listed : Question := .commits repository limits.commits
    (image c limits repository i s).1 = run.1 ∧
    (∀ failure, listing.1 = .failed failure →
      run.1 = .failed failure ∧ run.2.questions = [listed]) ∧
    ∀ commits, listing.1 = .ok commits →
      (∀ message, .aborted message ∉ answers c i commits listing.2) →
      (∀ n manifest, (answers c i commits listing.2)[n]? = some (.ok (some manifest)) →
        (∀ other, .ok (some other) ∉ (answers c i commits listing.2).take n) →
        ∃ sha, commits[n]? = some sha ∧
          run.1 = .ok (some {
            repository := repository
            ref := sha
            name := imageName repository i
            mechanism := .commit
            imageUrl := some (i ++ ":latest-" ++ sha)
            imageDigest := manifest.digest }) ∧
          run.2.questions =
            listed :: (commits.take (n + 1)).map fun sha => .manifest i ("latest-" ++ sha)) ∧
      ((∀ manifest, .ok (some manifest) ∉ answers c i commits listing.2) →
        run.1 = .ok none ∧
          run.2.questions = listed :: commits.map fun sha => .manifest i ("latest-" ++ sha)) := by
  intro listing run listed
  have hrun : run = image c.asked limits repository i ⟨s, []⟩ := rfl
  rw [image_asked] at hrun
  refine ⟨(image_alike c.asked_alike limits repository i ⟨s, []⟩ s rfl).1.symm, ?_, ?_⟩
  · intro failure hfailure
    rw [hrun, show (c.commits repository limits.commits s).1 = _ from hfailure]
    exact ⟨rfl, rfl⟩
  · intro commits hcommits calm
    rw [show (c.commits repository limits.commits s).1 = _ from hcommits] at hrun
    refine ⟨fun n manifest hit hfirst => ?_, fun hnone => ?_⟩
    · have hmisses := isMiss_of_mem (fun message hmem =>
        calm message (List.mem_of_mem_take hmem)) hfirst
      obtain ⟨sha, s', hsha, hsearch⟩ :=
        firstPublished_of_hit c repository i hit hmisses [listed]
      rw [Component.ofImage_imageTag] at hsearch
      rw [hrun.trans hsearch]
      exact ⟨sha, hsha, rfl, rfl⟩
    · obtain ⟨s', hsearch⟩ :=
        firstPublished_of_misses c repository i (isMiss_of_mem calm hnone) [listed]
      rw [hrun.trans hsearch]
      exact ⟨rfl, rfl⟩

/-- A forge that lists a commit twice, and a registry that cannot say whether this commit has an
image and has images for the two oldest. -/
def partlyPublished : Catalogue Unit where
  releases _ _ := return .ok []
  commits _ _ := return .ok ["c4", "c3", "c4", "c2", "c1"]
  manifest _ tag := return (
    if tag = "latest-c4" then .failed (.http .unreadableBody)
    else if tag = "latest-c2" then .ok (some ⟨some "sha256:2"⟩)
    else if tag = "latest-c1" then .ok (some ⟨none⟩)
    else .ok none)

/-- The commits of the listing. -/
def partlyPublishedCommits : List String := ["c4", "c3", "c4", "c2", "c1"]

/-- What the probes for all of them are answered. -/
def partlyPublishedAnswers : List (Reply (Option Manifest)) :=
  [.failed (.http .unreadableBody), .ok none, .failed (.http .unreadableBody),
    .ok (some ⟨some "sha256:2"⟩), .ok (some ⟨none⟩)]

theorem newest_published_selected_of_partly_published :
    answers partlyPublished "quay.io/o/app" partlyPublishedCommits () = partlyPublishedAnswers ∧
      (image partlyPublished {} "o/r" "quay.io/o/app" ()).1 =
        .ok (some ⟨"o/r", "c2", "o/app", .commit, some "quay.io/o/app:latest-c2",
          some "sha256:2"⟩) ∧
      (image partlyPublished.asked {} "o/r" "quay.io/o/app" ⟨(), []⟩).2.questions =
        [.commits "o/r" 20, .manifest "quay.io/o/app" "latest-c4",
          .manifest "quay.io/o/app" "latest-c3", .manifest "quay.io/o/app" "latest-c4",
          .manifest "quay.io/o/app" "latest-c2"] := by
  have hanswers : answers partlyPublished "quay.io/o/app" partlyPublishedCommits () =
      partlyPublishedAnswers := by decide +kernel
  have calm : ∀ message, .aborted message ∉
      answers partlyPublished "quay.io/o/app" partlyPublishedCommits () := by
    simp [hanswers, partlyPublishedAnswers]
  have hit : (answers partlyPublished "quay.io/o/app" partlyPublishedCommits ())[3]? =
      some (.ok (some ⟨some "sha256:2"⟩)) := by
    rw [hanswers]
    rfl
  have hfirst : ∀ other, .ok (some other) ∉
      (answers partlyPublished "quay.io/o/app" partlyPublishedCommits ()).take 3 := by
    simp [hanswers, partlyPublishedAnswers]
  obtain ⟨hsame, -, hlisted⟩ :=
    newest_published_selected partlyPublished {} "o/r" "quay.io/o/app" ()
  obtain ⟨sha, hsha, hfound, hquestions⟩ :=
    (hlisted partlyPublishedCommits rfl calm).1 3 _ hit hfirst
  obtain rfl : "c2" = sha := Option.some.inj hsha
  refine ⟨hanswers, ?_, hquestions.trans (by decide +kernel)⟩
  rw [hsame, hfound]
  decide +kernel

end Resolution

end ReleaseCandidates
