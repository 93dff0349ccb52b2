import ReleaseCandidates.Proofs.Tag.Settling

set_option autoImplicit false

/-! # Tags are made once and never moved

Over any history of requests to a host that keeps refs, no ref is asked for that is there, so none
is made twice; a ref is asked for only right after the tag object that it is to point at was made;
and a request that was carried out without a failure finds, whenever it is repeated, every tag in
its place.

The history is told by `TagHost.recorded`, which answers as the host itself does and leaves it in
the same states (`Tag.follows_run`, `Tag.state_after_recorded`).

Main statement: `Tag.made_at_most_once`. -/

namespace ReleaseCandidates

variable {σ : Type} {host : TagHost σ} {refs : σ → Set (String × String)}

/-! ## Requests -/

/-- What can be asked of the reconciliation of tags. -/
inductive TagRequest where
  | execute (only : Option String) (dryRun : Bool) (versions : List NamedVersion)
  | oneVersion (dryRun : Bool) (version : NamedVersion)
  | oneComponent (repository sha version : String)

/-- An answer to a request for tags. -/
inductive TagAnswer where
  | execute (answer : Except Failure (List TagReport))
  | oneVersion (report : TagReport)
  | oneComponent (answer : Except Failure Bool)
  deriving DecidableEq

/-- Whether nothing failed. -/
def TagAnswer.isSuccess : TagAnswer → Bool
  | .execute (.ok reports) => reports.all (·.isSuccess)
  | .oneVersion report => report.isSuccess
  | .oneComponent (.ok _) => true
  | .execute (.error _) | .oneComponent (.error _) => false

namespace TagRequest

/-- Puts a request to a host. -/
def run (host : TagHost σ) (template : String) : TagRequest → StateM σ TagAnswer
  | .execute only dryRun versions => do
    return .execute (← Tag.execute host template only dryRun versions)
  | .oneVersion dryRun version => do
    return .oneVersion (← Tag.ensureVersion host template dryRun version)
  | .oneComponent repository sha version => do
    return .oneComponent (← Tag.reconcile host template repository sha version)

/-- Whether tags may be made for a request. -/
def isReal : TagRequest → Bool
  | .execute _ dryRun _ | .oneVersion dryRun _ => !dryRun
  | .oneComponent .. => true

/-- The tags that a request is about, in the order in which they are looked at. -/
def wanted : TagRequest → List (String × String)
  | .execute only _ versions =>
    match Tag.select only versions with
    | .ok selected => selected.flatMap (·.wantedTags)
    | .error _ => []
  | .oneVersion _ version => version.wantedTags
  | .oneComponent repository _ version =>
    match RepositoryId.baseOf repository with
    | .ok base => [(base, version)]
    | .error _ => []

/-- Whether all that a request names can be read: its version is listed, and its components name
repositories. -/
def IsSound : TagRequest → Prop
  | .execute only _ versions =>
    ∃ selected, Tag.select only versions = .ok selected ∧
      ∀ version ∈ selected, (TagPlan.ofVersion version).invalid = []
  | .oneVersion _ version => (TagPlan.ofVersion version).invalid = []
  | .oneComponent repository _ _ => ∃ base, RepositoryId.baseOf repository = .ok base

/-- The answer to a request that finds every tag in its place. -/
def allExisting : TagRequest → TagAnswer
  | .execute only _ versions =>
    .execute ((Tag.select only versions).map fun selected => selected.map (·.allTagged))
  | .oneVersion _ version => .oneVersion version.allTagged
  | .oneComponent .. => .oneComponent (.ok true)

end TagRequest

namespace Tag

/-- The state of a host after requests, one after the other. -/
def after (host : TagHost σ) (template : String) (requests : List TagRequest) (s : σ) : σ :=
  requests.foldl (fun s request => (request.run host template s).2) s

/-- The tags that may be made for requests. -/
def wantedBy (requests : List TagRequest) : Set (String × String) :=
  {tag | ∃ request ∈ requests, request.isReal = true ∧ tag ∈ request.wanted}

/-! ## Carrying requests out -/

section Requests

theorem run_execute (host : TagHost σ) (template : String) (only : Option String) (dryRun : Bool)
    (versions : List NamedVersion) (s : σ) :
    (TagRequest.execute only dryRun versions).run host template s =
      (.execute (execute host template only dryRun versions s).1,
        (execute host template only dryRun versions s).2) :=
  rfl

theorem run_oneVersion (host : TagHost σ) (template : String) (dryRun : Bool)
    (version : NamedVersion) (s : σ) :
    (TagRequest.oneVersion dryRun version).run host template s =
      (.oneVersion (ensureVersion host template dryRun version s).1,
        (ensureVersion host template dryRun version s).2) :=
  rfl

theorem run_oneComponent (host : TagHost σ) (template repository sha version : String) (s : σ) :
    (TagRequest.oneComponent repository sha version).run host template s =
      (.oneComponent (reconcile host template repository sha version s).1,
        (reconcile host template repository sha version s).2) :=
  rfl

/-- Writing the calls of a request down changes neither its answer nor the state of the host. -/
theorem follows_run (host : TagHost σ) (template : String) (request : TagRequest) :
    Follows (request.run host.recorded template) (request.run host template) := by
  cases request with
  | execute only dryRun versions =>
    exact (follows_execute host template dryRun only versions).bind fun _ => .pure _
  | oneVersion dryRun version =>
    exact (follows_ensureVersion host template dryRun version).bind fun _ => .pure _
  | oneComponent repository sha version =>
    exact (follows_reconcile host template repository sha version).bind fun _ => .pure _

theorem state_after_recorded (host : TagHost σ) (template : String) (requests : List TagRequest)
    (r : Recorded σ) :
    (after host.recorded template requests r).state = after host template requests r.state := by
  induction requests generalizing r with
  | nil => rfl
  | cons request rest ih =>
    exact (ih _).trans (congrArg (after host template rest) (follows_run host template request r).2)

variable {template : String} {request : TagRequest}

/-- A request adds orderly calls, for the tags that may be made for it. -/
theorem run_extends (keeps : host.KeepsRefs refs) {wanted : Set (String × String)}
    (template : String) (hwanted : request.isReal = true → ∀ tag ∈ request.wanted, tag ∈ wanted)
    (r : Recorded σ) : Extends refs wanted r (request.run host.recorded template r).2 := by
  cases request with
  | execute only dryRun versions =>
    rw [run_execute]
    cases h : select only versions with
    | error failure =>
      rw [execute_of_error _ _ _ h]
      exact .refl refs wanted r
    | ok selected =>
      rw [execute_of_ok _ _ _ h]
      simp only [TagRequest.isReal, Bool.not_eq_true', TagRequest.wanted, h] at hwanted
      exact ensureVersions_extends keeps template hwanted r
  | oneVersion dryRun version =>
    simp only [TagRequest.isReal, Bool.not_eq_true'] at hwanted
    exact ensureVersion_extends keeps template hwanted r
  | oneComponent repository sha version =>
    rw [run_oneComponent]
    cases h : RepositoryId.baseOf repository with
    | error problem =>
      rw [reconcile_of_error _ _ _ _ h]
      exact .refl refs wanted r
    | ok base =>
      rw [reconcile_of_ok _ _ _ _ h]
      simp only [TagRequest.wanted, h, List.mem_singleton, forall_eq] at hwanted
      exact ensure_extends keeps template sha (fun _ => hwanted rfl) r

/-- A request that succeeds can be read and leaves its tags settled. -/
theorem run_settles (keeps : host.KeepsRefs refs) (real : request.isReal = true) {r : Recorded σ}
    (h : (request.run host.recorded template r).1.isSuccess = true) :
    request.IsSound ∧
      Settled refs request.wanted (request.run host.recorded template r).2.state := by
  cases request with
  | execute only dryRun versions =>
    obtain rfl : dryRun = false := by simpa [TagRequest.isReal] using real
    rw [run_execute] at h ⊢
    cases hselect : select only versions with
    | error failure =>
      rw [execute_of_error _ _ _ hselect] at h
      cases h
    | ok selected =>
      rw [execute_of_ok _ _ _ hselect] at h ⊢
      obtain ⟨hinvalid, hsettled⟩ := ensureVersions_settles keeps h
      refine ⟨⟨selected, hselect, hinvalid⟩, ?_⟩
      rwa [TagRequest.wanted, hselect]
  | oneVersion dryRun version =>
    obtain rfl : dryRun = false := by simpa [TagRequest.isReal] using real
    exact ensureVersion_settles keeps h
  | oneComponent repository sha version =>
    rw [run_oneComponent] at h ⊢
    cases hbase : RepositoryId.baseOf repository with
    | error problem =>
      rw [reconcile_of_error _ _ _ _ hbase] at h
      cases h
    | ok base =>
      rw [reconcile_of_ok _ _ _ _ hbase] at h ⊢
      cases hensure : (ensure host.recorded template base sha version false r).1 with
      | error failure =>
        rw [hensure] at h
        cases h
      | ok outcome =>
        refine ⟨⟨base, hbase⟩, ?_⟩
        rw [TagRequest.wanted, hbase]
        exact ensure_settles keeps hensure

/-- A request that can be read and whose tags are settled finds every one of them. -/
theorem run_finds (keeps : host.KeepsRefs refs) (template : String) (sound : request.IsSound)
    {r : Recorded σ} (h : Settled refs request.wanted r.state) :
    ∃ r', request.run host.recorded template r = (request.allExisting, r') ∧
      Finds refs request.wanted r r' := by
  cases request with
  | execute only dryRun versions =>
    obtain ⟨selected, hselect, hinvalid⟩ := sound
    simp only [TagRequest.wanted, hselect] at h ⊢
    obtain ⟨r', heq, hfinds⟩ := ensureVersions_finds keeps template dryRun hinvalid h
    refine ⟨r', ?_, hfinds⟩
    rw [run_execute, execute_of_ok _ _ _ hselect, heq, TagRequest.allExisting, hselect]
    rfl
  | oneVersion dryRun version =>
    obtain ⟨r', heq, hfinds⟩ := ensureVersion_finds keeps template dryRun sound h
    refine ⟨r', ?_, hfinds⟩
    rw [run_oneVersion, heq]
    rfl
  | oneComponent repository sha version =>
    obtain ⟨base, hbase⟩ := sound
    simp only [TagRequest.wanted, hbase] at h ⊢
    obtain ⟨r', heq, hfinds⟩ := ensure_finds keeps template sha false h
    refine ⟨r', ?_, hfinds⟩
    rw [run_oneComponent, reconcile_of_ok _ _ _ _ hbase, heq]
    rfl

theorem after_extends (keeps : host.KeepsRefs refs) (template : String)
    (requests : List TagRequest) (r : Recorded σ) :
    Extends refs (wantedBy requests) r (after host.recorded template requests r) := by
  induction requests generalizing r with
  | nil => exact .refl refs _ r
  | cons request rest ih =>
    have hwanted : request.isReal = true → ∀ tag ∈ request.wanted,
        tag ∈ wantedBy (request :: rest) :=
      fun real tag htag => ⟨request, List.mem_cons_self, real, htag⟩
    have hrest : wantedBy rest ⊆ wantedBy (request :: rest) := by
      rintro tag ⟨other, hother, hwanted⟩
      exact ⟨other, List.mem_cons_of_mem _ hother, hwanted⟩
    exact (run_extends keeps template hwanted r).trans ((ih _).mono hrest)

end Requests

/-- Over any history of requests to a host that keeps refs, a ref is asked for only where it is not
there, no ref is made twice, and every ref that is asked for is that of a tag wanted by a request
that is no dry run and points at the object that the call just before it made for the same
repository and version. A request that is carried out without a failure, and is no dry run, finds all
its tags and does nothing else when it is repeated, whatever was asked for in the meantime. -/
theorem made_at_most_once (keeps : host.KeepsRefs refs) (template : String)
    (requests : List TagRequest) (start : σ) :
    let r := after host.recorded template requests ⟨start, []⟩
    AsksForMissing refs r.calls ∧ (madeRefs r.calls).Nodup ∧
      AsksAfterObject (wantedBy requests) r.calls ∧
      ∀ (request : TagRequest) (later : List TagRequest), request.isReal = true →
        (request.run host.recorded template r).1.isSuccess = true →
        let before := after host.recorded template later (request.run host.recorded template r).2
        ∃ finds s, request.run host.recorded template before =
            (request.allExisting, ⟨s, before.calls ++ finds⟩) ∧
          finds.map (fun call => call.2.found?) = request.wanted.map some := by
  intro r
  obtain ⟨calls, hcalls, horderly⟩ := after_extends keeps template requests ⟨start, []⟩
  rw [List.nil_append] at hcalls
  refine ⟨hcalls ▸ horderly.asksForMissing, hcalls ▸ horderly.made_once,
    hcalls ▸ horderly.asksAfterObject, ?_⟩
  intro request later real hsuccess before
  obtain ⟨sound, hsettled⟩ := run_settles keeps real hsuccess
  obtain ⟨⟨s, _⟩, heq, -, finds, rfl, hfound⟩ := run_finds keeps template sound
    (hsettled.of_extends (after_extends keeps template later _))
  exact ⟨finds, s, heq, hfound⟩

/-! ### A host that refuses writes -/

/-- Refs with their repositories, and whether each of the writes to come is refused. -/
structure Shelf where
  refs : List (String × String)
  refusals : List Bool

/-- A host that keeps its refs in a list and makes none a second time. -/
def shelf : TagHost Shelf where
  tagRef repository tag := fun s =>
    if (repository, refName tag) ∈ s.refs then (.ok ("object of " ++ tag), s)
    else (.error (.forgeStatus "404 Not Found" tag ""), s)
  createTagObject _ tag _ _ := fun s =>
    if s.refusals.headD false = true then
      (.error (.forgeStatus "502 Bad Gateway" tag ""), { s with refusals := s.refusals.tail })
    else (.ok ("object of " ++ tag), { s with refusals := s.refusals.tail })
  createRef repository ref _ := fun s =>
    if s.refusals.headD false = true ∨ (repository, ref) ∈ s.refs then
      (.error (.forgeStatus "422 Unprocessable Entity" ref ""),
        { s with refusals := s.refusals.tail })
    else (.ok (), ⟨(repository, ref) :: s.refs, s.refusals.tail⟩)

theorem shelf_keepsRefs : shelf.KeepsRefs fun s => {ref | ref ∈ s.refs} where
  found h := by
    simp only [shelf] at h
    split at h
    · assumption
    · cases h
  missing h := by
    simp only [shelf] at h
    split at h
    · cases h
    · assumption
  tagRef h := by
    simp only [shelf] at h
    split at h <;> cases h <;> rfl
  createTagObject h := by
    simp only [shelf] at h
    split at h <;> cases h <;> rfl
  createRef_ok h := by
    simp only [shelf] at h
    split at h
    · cases h
    · cases h
      ext ref
      simp
  createRef_error h := by
    simp only [shelf] at h
    split at h <;> cases h
    rfl

/-- A version that draws on two repositories, on one of them twice. -/
def twoRepositories : NamedVersion :=
  ⟨"1.0", [⟨"o/a", "c1", none⟩, ⟨"o/a/part", "c1", none⟩, ⟨"o/b", "c2", none⟩]⟩

/-- A dry run, and a run in which the first ref is refused and the second is made. The version is
then carried out without a failure, and a part asks for one of its tags before it is repeated. -/
theorem made_at_most_once_after_refusal :
    let history : List TagRequest :=
      [.execute none true [twoRepositories], .execute (some "1.0") false [twoRepositories]]
    let request : TagRequest := .oneVersion false twoRepositories
    let r := after shelf.recorded "" history ⟨⟨[], [false, true]⟩, []⟩
    let before := after shelf.recorded "" [.oneComponent "o/a/part" "c3" "1.0"]
      (request.run shelf.recorded "" r).2
    madeRefs r.calls = [("o/b", "refs/tags/1.0")] ∧ AsksAfterObject (wantedBy history) r.calls ∧
      ∃ finds s, request.run shelf.recorded "" before =
          (.oneVersion ⟨"1.0", ["o/a", "o/b"], [], [], []⟩, ⟨s, before.calls ++ finds⟩) ∧
        finds.map (fun call => call.2.found?) = [some ("o/a", "1.0"), some ("o/b", "1.0")] := by
  intro history request r before
  obtain ⟨-, -, hafter, hrepeat⟩ :=
    made_at_most_once shelf_keepsRefs "" history ⟨[], [false, true]⟩
  exact ⟨by decide +kernel, hafter, hrepeat request _ rfl (by decide +kernel)⟩

end Tag

end ReleaseCandidates
