import ReleaseCandidates.Proofs.Tag.Commits

set_option autoImplicit false

/-! # Asking for one version

A run for one version takes the first record of that name, a run for all versions takes every
record. Records may share a name, and then the two runs agree on the tags of that name only as far
as the first record wants the tags of the later ones too or these are there already.

Main statement: `Tag.only_agrees_iff`. -/

namespace ReleaseCandidates.Tag

variable {σ : Type} {host : TagHost σ} {objects tags : σ → String → String → Option String}

/-! ## The first record of a name -/

section First

variable {versions : List NamedVersion} {first : NamedVersion} {name : String}

theorem select_of_find? (h : versions.find? (fun v => v.name == name) = some first) :
    select (some name) versions = .ok [first] := by
  rw [select, h]

theorem commitFor?_of_ne {version : NamedVersion} (h : version.name ≠ name) (repository : String) :
    version.commitFor? repository name = none := by
  rw [NamedVersion.commitFor?, if_neg h]

/-- The first record of a name decides for all records, unless it has no say and a later one has. -/
theorem commitFor?_eq_iff (h : versions.find? (fun v => v.name == name) = some first)
    (repository : String) :
    first.commitFor? repository name = versions.findSome? (·.commitFor? repository name) ↔
      ∀ version ∈ versions, version.name = name →
        (version.commitFor? repository name).isSome = true →
          (first.commitFor? repository name).isSome = true := by
  cases hfirst : first.commitFor? repository name with
  | some sha =>
    -- records before it have other names, so it is asked first in both runs
    obtain ⟨-, before, after, rfl, hbefore⟩ := List.find?_eq_some_iff_append.1 h
    have hnone : before.findSome? (·.commitFor? repository name) = none := by
      rw [List.findSome?_eq_none_iff]
      intro version hversion
      exact commitFor?_of_ne (by simpa using hbefore version hversion) repository
    rw [List.findSome?_append, hnone, Option.none_or, List.findSome?_cons, hfirst]
    exact iff_of_true rfl fun _ _ _ _ => rfl
  | none =>
    rw [eq_comm, List.findSome?_eq_none_iff]
    constructor
    · intro hnone version hversion _ hsome
      rw [hnone version hversion] at hsome
      cases hsome
    · intro hall version hversion
      by_cases hname : version.name = name
      · rw [← Option.not_isSome_iff_eq_none]
        intro hsome
        exact absurd (hall version hversion hname hsome) (by simp)
      · exact commitFor?_of_ne hname repository

end First

/-! ## Both runs -/

theorem or_eq_or_iff {α : Type} (a b c : Option α) : a.or b = a.or c ↔ a.isSome = true ∨ b = c := by
  cases a <;> simp

theorem tags_execute (keeps : host.KeepsTags objects tags) (template : String)
    (only : Option String) (dryRun : Bool) {versions selected : List NamedVersion}
    (h : select only versions = .ok selected) (s : σ) (repository tag : String) :
    tags (execute host template only dryRun versions s).2 repository tag =
      (tags s repository tag).or
        (if dryRun = false then selected.findSome? (·.commitFor? repository tag) else none) := by
  rw [execute_of_ok host template dryRun h, tags_ensureVersions keeps]

/-- On a host that keeps tags and refuses no change, a run for one version that is listed takes the
first record of this name; and it leaves the same tags of this name, on the same repositories and
for the same commits, as a run for all versions does from the same state, exactly if it is a dry run
or every tag that some record of the name wants is there already or is wanted by the first record
too. -/
theorem only_agrees_iff (keeps : host.KeepsTags objects tags) (template : String) (dryRun : Bool)
    {versions : List NamedVersion} {name : String}
    (listed : ∃ version ∈ versions, version.name = name) (s : σ) :
    ∃ first, select (some name) versions = .ok [first] ∧
      ((∀ repository,
          tags (execute host template (some name) dryRun versions s).2 repository name =
            tags (execute host template none dryRun versions s).2 repository name) ↔
        (dryRun = false → ∀ version ∈ versions, version.name = name →
          ∀ t ∈ (TagPlan.ofVersion version).targets,
            (tags s t.repository name).isSome = true ∨
              ∃ t' ∈ (TagPlan.ofVersion first).targets, t'.repository = t.repository)) := by
  obtain ⟨first, hfind⟩ : ∃ first, versions.find? (fun v => v.name == name) = some first := by
    obtain ⟨version, hversion, hname⟩ := listed
    rw [← Option.isSome_iff_exists, List.find?_isSome]
    exact ⟨version, hversion, beq_iff_eq.2 hname⟩
  have hfirst : first.name = name := by simpa using List.find?_some hfind
  refine ⟨first, select_of_find? hfind, ?_⟩
  have hone : ∀ repository, [first].findSome? (·.commitFor? repository name) =
      first.commitFor? repository name := by
    intro repository
    rw [List.findSome?_cons]
    cases first.commitFor? repository name <;> rfl
  simp only [tags_execute keeps template (some name) dryRun (select_of_find? hfind),
    tags_execute keeps template none dryRun rfl, or_eq_or_iff, hone]
  cases dryRun with
  | true => simp
  | false =>
    simp only [if_true, commitFor?_eq_iff hfind, forall_const]
    constructor
    · intro h version hversion hname t ht
      refine (h t.repository).imp_right fun hall => ?_
      have hwants : (version.commitFor? t.repository name).isSome = true := by
        rw [← hname, NamedVersion.isSome_commitFor?]
        exact ⟨t, ht, rfl⟩
      have hsome := hall version hversion hname hwants
      rwa [← hfirst, NamedVersion.isSome_commitFor?] at hsome
    · intro h repository
      by_cases hthere : (tags s repository name).isSome = true
      · exact .inl hthere
      · refine .inr fun version hversion hname hwants => ?_
        rw [← hname, NamedVersion.isSome_commitFor?] at hwants
        obtain ⟨t, ht, rfl⟩ := hwants
        rw [← hfirst, NamedVersion.isSome_commitFor?]
        exact (h version hversion hname t ht).resolve_left hthere

/-! ### A host that refuses nothing -/

/-- Tag objects and refs with their repositories, and the commits that they stand for. -/
structure Ledger where
  objects : List ((String × String) × String)
  refs : List ((String × String) × String)

/-- A host that keeps objects and refs in lists and refuses a ref only if it is there already or has
no object. -/
def ledger : TagHost Ledger where
  tagRef repository tag := fun s =>
    match s.refs.lookup (repository, refName tag) with
    | some sha => (.ok sha, s)
    | none => (.error (.forgeStatus "404 Not Found" tag ""), s)
  createTagObject repository tag _ sha := fun s =>
    let object := toString s.objects.length ++ " " ++ tag
    (.ok object, { s with objects := ((repository, object), sha) :: s.objects })
  createRef repository ref object := fun s =>
    match s.refs.lookup (repository, ref), s.objects.lookup (repository, object) with
    | none, some sha => (.ok (), { s with refs := ((repository, ref), sha) :: s.refs })
    | _, _ => (.error (.forgeStatus "422 Unprocessable Entity" ref ""), s)

namespace Ledger

/-- The commit that a tag object stands for. -/
def objectAt (s : Ledger) (repository object : String) : Option String :=
  s.objects.lookup (repository, object)

/-- The commit that a tag stands for. -/
def tagAt (s : Ledger) (repository tag : String) : Option String :=
  s.refs.lookup (repository, refName tag)

end Ledger

theorem refName_injective {tag tag' : String} (h : refName tag = refName tag') : tag = tag' := by
  rw [refName, refName, ← String.toList_inj, String.toList_append, String.toList_append] at h
  exact String.toList_inj.1 (List.append_cancel_left h)

theorem ledger_keepsTags : ledger.KeepsTags Ledger.objectAt Ledger.tagAt where
  tagRef_isOk s repository tag := by
    simp only [ledger, Ledger.tagAt]
    cases s.refs.lookup (repository, refName tag) <;> rfl
  tagRef s repository tag := by
    simp only [ledger]
    cases s.refs.lookup (repository, refName tag) <;> rfl
  createTagObject s repository tag message sha := by
    refine ⟨_, _, rfl, ?_, rfl⟩
    simp [Ledger.objectAt]
  createRef {s repository tag object sha} there missing := by
    rw [Ledger.objectAt] at there
    rw [Ledger.tagAt] at missing
    refine ⟨_, by simp only [ledger, missing, there]; rfl, fun repository' tag' => ?_⟩
    rw [Ledger.tagAt, List.lookup_cons]
    by_cases hsame : repository = repository' ∧ tag = tag'
    · obtain ⟨rfl, rfl⟩ := hsame
      simp
    · have hother : ((repository', refName tag') == (repository, refName tag)) = false := by
        rw [beq_eq_false_iff_ne]
        intro heq
        exact hsame ⟨(Prod.mk.inj heq).1.symm, (refName_injective (Prod.mk.inj heq).2).symm⟩
      rw [hother, if_neg hsame, Ledger.tagAt]

/-- Two records of one name that want a tag in the same repository, the second for another commit:
asking for the name makes the tag that the whole run makes. -/
theorem only_agrees_for_same_repository :
    let versions : List NamedVersion :=
      [⟨"v1", [⟨"o/a", "c1", none⟩]⟩, ⟨"v2", [⟨"o/b", "c2", none⟩]⟩,
        ⟨"v1", [⟨"o/a/part", "c3", none⟩]⟩]
    (∃ version ∈ versions, version.name = "v1") ∧
      (∀ repository,
        (execute ledger defaultMessage (some "v1") false versions ⟨[], []⟩).2.tagAt repository "v1" =
          (execute ledger defaultMessage none false versions ⟨[], []⟩).2.tagAt repository "v1") ∧
      (execute ledger defaultMessage (some "v1") false versions ⟨[], []⟩).2.tagAt "o/a" "v1" =
        some "c1" := by
  intro versions
  have listed : ∃ version ∈ versions, version.name = "v1" := by decide
  obtain ⟨first, hselect, hagrees⟩ :=
    only_agrees_iff ledger_keepsTags defaultMessage false listed ⟨[], []⟩
  have hfirst : first = ⟨"v1", [⟨"o/a", "c1", none⟩]⟩ := by
    cases hselect
    rfl
  refine ⟨listed, hagrees.2 fun _ => ?_, by decide +kernel⟩
  rw [hfirst]
  decide +kernel

/-- Two records of one name, each for a repository of its own: asking for the name makes one of the
two tags that the whole run makes. -/
theorem only_misses_second_record :
    ¬ ∀ (σ : Type) (host : TagHost σ) (objects tags : σ → String → String → Option String),
      host.KeepsTags objects tags → ∀ (template : String) (dryRun : Bool)
        (versions : List NamedVersion) (name : String) (s : σ),
        (∃ version ∈ versions, version.name = name) → ∀ repository,
          tags (execute host template (some name) dryRun versions s).2 repository name =
            tags (execute host template none dryRun versions s).2 repository name := by
  intro h
  have hmissed := h Ledger ledger Ledger.objectAt Ledger.tagAt ledger_keepsTags defaultMessage false
    [⟨"v1", [⟨"o/a", "c1", none⟩]⟩, ⟨"v1", [⟨"o/b", "c1", none⟩]⟩] "v1" ⟨[], []⟩ (by decide) "o/b"
  exact absurd hmissed (by decide +kernel)

end ReleaseCandidates.Tag
