import ReleaseCandidates.Proofs.Tag.Steps

set_option autoImplicit false

/-! # The calls made for a tag

`TagHost.recorded` is a host that writes down the calls made to it, each with the state of the host
that it found and the answer that it got. `Tag.Ensured` says once, by one case for each way it can
go, what making sure of a tag asks of a host; `Tag.ensure_recorded` says that there is no other way.
-/

namespace ReleaseCandidates

/-! ## Calls -/

/-- A call to a host of tags, with the answer to it. -/
inductive TagCall where
  | tagRef (repository tag : String) (answer : Except Failure String)
  | createTagObject (repository tag message sha : String) (answer : Except Failure String)
  | createRef (repository refName sha : String) (answer : Except Failure Unit)

/-- The state of a host and the calls made to it, each with the state that it found. -/
structure Recorded (σ : Type) where
  state : σ
  calls : List (σ × TagCall)

variable {σ : Type}

/-- Puts a question to a host and writes down the call. -/
def Recorded.ask {α : Type} (question : StateM σ α) (call : α → TagCall) : StateM (Recorded σ) α :=
  fun r =>
    let (answer, s) := question r.state
    (answer, ⟨s, r.calls ++ [(r.state, call answer)]⟩)

/-- The host with its calls written down. -/
def TagHost.recorded (host : TagHost σ) : TagHost (Recorded σ) where
  tagRef repository tag := Recorded.ask (host.tagRef repository tag) (.tagRef repository tag)
  createTagObject repository tag message sha :=
    Recorded.ask (host.createTagObject repository tag message sha)
      (.createTagObject repository tag message sha)
  createRef repository refName sha :=
    Recorded.ask (host.createRef repository refName sha) (.createRef repository refName sha)

namespace TagHost

variable {host : TagHost σ} {repository tag message sha refName : String} {s s' : σ}

theorem tagRef_recorded {answer : Except Failure String} (calls : List (σ × TagCall))
    (h : host.tagRef repository tag s = (answer, s')) :
    host.recorded.tagRef repository tag ⟨s, calls⟩ =
      (answer, ⟨s', calls ++ [(s, .tagRef repository tag answer)]⟩) := by
  simp only [recorded, Recorded.ask, h]

theorem createTagObject_recorded {answer : Except Failure String} (calls : List (σ × TagCall))
    (h : host.createTagObject repository tag message sha s = (answer, s')) :
    host.recorded.createTagObject repository tag message sha ⟨s, calls⟩ =
      (answer, ⟨s', calls ++ [(s, .createTagObject repository tag message sha answer)]⟩) := by
  simp only [recorded, Recorded.ask, h]

theorem createRef_recorded {answer : Except Failure Unit} (calls : List (σ × TagCall))
    (h : host.createRef repository refName sha s = (answer, s')) :
    host.recorded.createRef repository refName sha ⟨s, calls⟩ =
      (answer, ⟨s', calls ++ [(s, .createRef repository refName sha answer)]⟩) := by
  simp only [recorded, Recorded.ask, h]

end TagHost

/-! ## Writing down changes nothing -/

/-- A computation on recorded calls gives the answers and the states of another one without them. -/
def Follows {α : Type} (x : StateM (Recorded σ) α) (y : StateM σ α) : Prop :=
  ∀ r, (x r).1 = (y r.state).1 ∧ (x r).2.state = (y r.state).2

namespace Follows

variable {α β : Type}

theorem pure (a : α) : Follows (σ := σ) (Pure.pure a) (Pure.pure a) :=
  fun _ => ⟨rfl, rfl⟩

theorem bind {x : StateM (Recorded σ) α} {y : StateM σ α} {f : α → StateM (Recorded σ) β}
    {g : α → StateM σ β} (hx : Follows x y) (hf : ∀ a, Follows (f a) (g a)) :
    Follows (x >>= f) (y >>= g) := by
  intro r
  obtain ⟨hanswer, hstate⟩ := hx r
  have hrest := hf (y r.state).1 (x r).2
  rw [hstate] at hrest
  show (f (x r).1 (x r).2).1 = _ ∧ (f (x r).1 (x r).2).2.state = _
  rw [hanswer]
  exact hrest

theorem ask (question : StateM σ α) (call : α → TagCall) :
    Follows (Recorded.ask question call) question :=
  fun _ => ⟨rfl, rfl⟩

end Follows

namespace Tag

/-! ## Recorded reconciliations -/

section Follows

variable (host : TagHost σ) (template repository sha version : String) (dryRun : Bool)

theorem follows_isThere :
    Follows (isThere host.recorded repository version) (isThere host repository version) :=
  (Follows.ask _ _).bind fun answer => by
    cases answer <;> exact .pure _

theorem follows_create :
    Follows (create host.recorded template repository sha version)
      (create host template repository sha version) :=
  (Follows.ask _ _).bind fun answer => by
    cases answer with
    | error failure => exact .pure _
    | ok object => exact .ask _ _

theorem follows_ensure :
    Follows (ensure host.recorded template repository sha version dryRun)
      (ensure host template repository sha version dryRun) := by
  refine (follows_isThere host repository version).bind fun there => ?_
  cases there with
  | true => exact .pure _
  | false =>
    cases dryRun with
    | true => exact .pure _
    | false =>
      refine (follows_create host template repository sha version).bind fun answer => ?_
      cases answer <;> exact .pure _

theorem follows_reconcile :
    Follows (reconcile host.recorded template repository sha version)
      (reconcile host template repository sha version) := by
  unfold reconcile
  cases RepositoryId.baseOf repository with
  | error problem => exact .pure _
  | ok base =>
    refine (follows_ensure host template base sha version false).bind fun answer => ?_
    cases answer <;> exact .pure _

theorem follows_ensureTargets (targets : List WantedTag) (report : TagReport) :
    Follows (ensureTargets host.recorded template version dryRun targets report)
      (ensureTargets host template version dryRun targets report) := by
  induction targets generalizing report with
  | nil => exact .pure _
  | cons t rest ih =>
    exact (follows_ensure host template t.repository t.sha version dryRun).bind fun _ => ih _

theorem follows_ensureVersion (version : NamedVersion) :
    Follows (ensureVersion host.recorded template dryRun version)
      (ensureVersion host template dryRun version) :=
  follows_ensureTargets host template version.name dryRun _ _

theorem follows_ensureVersions (versions : List NamedVersion) :
    Follows (ensureVersions host.recorded template dryRun versions)
      (ensureVersions host template dryRun versions) := by
  induction versions with
  | nil => exact .pure _
  | cons version rest ih =>
    exact (follows_ensureVersion host template dryRun version).bind fun _ =>
      ih.bind fun _ => .pure _

theorem follows_execute (only : Option String) (versions : List NamedVersion) :
    Follows (execute host.recorded template only dryRun versions)
      (execute host template only dryRun versions) := by
  unfold execute
  cases select only versions with
  | error failure => exact .pure _
  | ok selected => exact (follows_ensureVersions host template dryRun selected).bind fun _ => .pure _

end Follows

/-! ## Making sure of a tag -/

/-- What making sure of a tag may come to on a host in the state `s`: the answer, the calls made for
it, and the state afterwards. -/
inductive Ensured (host : TagHost σ) (template repository sha version : String) (dryRun : Bool)
    (s : σ) : Except Failure TagOutcome → List (σ × TagCall) → σ → Prop where
  | existing {found : String} {s' : σ} (tag : host.tagRef repository version s = (.ok found, s')) :
      Ensured host template repository sha version dryRun s (.ok .existing)
        [(s, .tagRef repository version (.ok found))] s'
  | wanting {missing : Failure} {s' : σ}
      (tag : host.tagRef repository version s = (.error missing, s')) (dry : dryRun = true) :
      Ensured host template repository sha version dryRun s (.ok .wanting)
        [(s, .tagRef repository version (.error missing))] s'
  | objectRefused {missing failure : Failure} {s₁ s' : σ}
      (tag : host.tagRef repository version s = (.error missing, s₁)) (real : dryRun = false)
      (object : host.createTagObject repository version (messageFor template version) sha s₁ =
        (.error failure, s')) :
      Ensured host template repository sha version dryRun s (.error failure)
        [(s, .tagRef repository version (.error missing)),
          (s₁, .createTagObject repository version (messageFor template version) sha
            (.error failure))] s'
  | refAsked {missing : Failure} {made : String} {answer : Except Failure Unit} {s₁ s₂ s' : σ}
      (tag : host.tagRef repository version s = (.error missing, s₁)) (real : dryRun = false)
      (object : host.createTagObject repository version (messageFor template version) sha s₁ =
        (.ok made, s₂))
      (ref : host.createRef repository (refName version) made s₂ = (answer, s')) :
      Ensured host template repository sha version dryRun s (answer.map fun _ => .created)
        [(s, .tagRef repository version (.error missing)),
          (s₁, .createTagObject repository version (messageFor template version) sha (.ok made)),
          (s₂, .createRef repository (refName version) made answer)] s'

/-- Making sure of a tag comes to one of these. -/
theorem ensure_recorded (host : TagHost σ) (template repository sha version : String)
    (dryRun : Bool) (r : Recorded σ) :
    ∃ answer calls s',
      ensure host.recorded template repository sha version dryRun r =
        (answer, ⟨s', r.calls ++ calls⟩) ∧
      Ensured host template repository sha version dryRun r.state answer calls s' := by
  obtain ⟨s, calls⟩ := r
  rcases htag : host.tagRef repository version s with ⟨missing | found, s₁⟩
  · have hthere := isThere_of_error (TagHost.tagRef_recorded calls htag)
    cases dryRun with
    | true => exact ⟨_, _, _, ensure_dry hthere, .wanting htag rfl⟩
    | false =>
      rcases hobject : host.createTagObject repository version (messageFor template version) sha s₁
        with ⟨failure | made, s₂⟩
      · have hcreate := create_of_error (TagHost.createTagObject_recorded
          (calls ++ [(s, .tagRef repository version (.error missing))]) hobject)
        refine ⟨_, _, _, ?_, .objectRefused htag rfl hobject⟩
        rw [ensure_real hthere hcreate, List.append_assoc]
        rfl
      · have hcreate := create_of_ok (TagHost.createTagObject_recorded
          (calls ++ [(s, .tagRef repository version (.error missing))]) hobject)
        rcases href : host.createRef repository (refName version) made s₂ with ⟨answer, s₃⟩
        refine ⟨_, _, _, ?_, .refAsked htag rfl hobject href⟩
        rw [ensure_real hthere (hcreate.trans (TagHost.createRef_recorded _ href)),
          List.append_assoc, List.append_assoc]
        rfl
  · have hthere := isThere_of_ok (TagHost.tagRef_recorded calls htag)
    exact ⟨_, _, _, ensure_of_there hthere, .existing htag⟩

end Tag

end ReleaseCandidates
