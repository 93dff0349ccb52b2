import ReleaseCandidates.Tag.Reconcile

set_option autoImplicit false

/-! # The steps of a reconciliation

What each part of a reconciliation comes to, by what the host answers to the question that it
starts with and by what the parts that it is made of come to. -/

namespace ReleaseCandidates.Tag

variable {σ : Type} {host : TagHost σ} {s s' : σ}

/-! ## One tag -/

section Tag

variable {template repository sha version : String} {dryRun : Bool}

theorem isThere_of_ok {found : String} (h : host.tagRef repository version s = (.ok found, s')) :
    isThere host repository version s = (true, s') := by
  simp only [isThere, bind, StateT.bind, h]
  rfl

theorem isThere_of_error {missing : Failure}
    (h : host.tagRef repository version s = (.error missing, s')) :
    isThere host repository version s = (false, s') := by
  simp only [isThere, bind, StateT.bind, h]
  rfl

theorem create_of_error {failure : Failure}
    (h : host.createTagObject repository version (messageFor template version) sha s =
      (.error failure, s')) :
    create host template repository sha version s = (.error failure, s') := by
  simp only [create, bind, StateT.bind, h]
  rfl

theorem create_of_ok {made : String}
    (h : host.createTagObject repository version (messageFor template version) sha s =
      (.ok made, s')) :
    create host template repository sha version s =
      host.createRef repository (refName version) made s' := by
  simp only [create, bind, StateT.bind, h]

theorem ensure_of_there (h : isThere host repository version s = (true, s')) :
    ensure host template repository sha version dryRun s = (.ok .existing, s') := by
  simp only [ensure, bind, StateT.bind, h, if_true]
  rfl

theorem ensure_dry (h : isThere host repository version s = (false, s')) :
    ensure host template repository sha version true s = (.ok .wanting, s') := by
  simp only [ensure, bind, StateT.bind, h, if_true, Bool.false_eq_true, if_false]
  rfl

theorem ensure_real {answer : Except Failure Unit} {s₁ : σ}
    (h : isThere host repository version s = (false, s₁))
    (hcreate : create host template repository sha version s₁ = (answer, s')) :
    ensure host template repository sha version false s =
      (answer.map fun _ => .created, s') := by
  simp only [ensure, bind, StateT.bind, h, hcreate, Bool.false_eq_true, if_false]
  cases answer <;> rfl

end Tag

/-! ## Targets, versions and requests -/

theorem ensureTargets_cons (host : TagHost σ) (template version : String) (dryRun : Bool)
    (t : WantedTag) (rest : List WantedTag) (report : TagReport) (s : σ) :
    ensureTargets host template version dryRun (t :: rest) report s =
      ensureTargets host template version dryRun rest
        (report.add t.repository (ensure host template t.repository t.sha version dryRun s).1)
        (ensure host template t.repository t.sha version dryRun s).2 :=
  rfl

theorem ensureVersions_cons (host : TagHost σ) (template : String) (dryRun : Bool)
    (version : NamedVersion) (rest : List NamedVersion) (s : σ) :
    ensureVersions host template dryRun (version :: rest) s =
      ((ensureVersion host template dryRun version s).1 ::
          (ensureVersions host template dryRun rest
            (ensureVersion host template dryRun version s).2).1,
        (ensureVersions host template dryRun rest
          (ensureVersion host template dryRun version s).2).2) :=
  rfl

theorem execute_of_error (host : TagHost σ) (template : String) {only : Option String}
    (dryRun : Bool) {versions : List NamedVersion} {failure : Failure}
    (h : select only versions = .error failure) (s : σ) :
    execute host template only dryRun versions s = (.error failure, s) := by
  rw [execute, h]
  rfl

theorem execute_of_ok (host : TagHost σ) (template : String) {only : Option String} (dryRun : Bool)
    {versions selected : List NamedVersion} (h : select only versions = .ok selected) (s : σ) :
    execute host template only dryRun versions s =
      (.ok (ensureVersions host template dryRun selected s).1,
        (ensureVersions host template dryRun selected s).2) := by
  rw [execute, h]
  rfl

theorem reconcile_of_error (host : TagHost σ) (template sha version : String)
    {repository : String} {problem : RepositoryId.Problem}
    (h : RepositoryId.baseOf repository = .error problem) (s : σ) :
    reconcile host template repository sha version s =
      (.error (.identifier repository problem), s) := by
  rw [reconcile, h]
  rfl

theorem reconcile_of_ok (host : TagHost σ) (template sha version : String)
    {repository base : String} (h : RepositoryId.baseOf repository = .ok base) (s : σ) :
    reconcile host template repository sha version s =
      ((ensure host template base sha version false s).1.map fun _ => true,
        (ensure host template base sha version false s).2) := by
  rw [reconcile, h]
  simp only [bind, StateT.bind]
  rcases ensure host template base sha version false s with ⟨_ | _, s'⟩ <;> rfl

end ReleaseCandidates.Tag
