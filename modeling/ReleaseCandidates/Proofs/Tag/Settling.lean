import ReleaseCandidates.Proofs.Tag.Orderly

set_option autoImplicit false

/-! # Settled tags

Making sure of tags can do no more than extend the record of calls by orderly ones (`Tag.Extends`),
which take no ref away. Tags that were made sure of without a failure are settled (`Tag.Settled`),
and whoever makes sure of settled tags finds every one of them and does nothing else (`Tag.Finds`).
The three are carried from one tag to the targets of a version and from there to versions. -/

namespace ReleaseCandidates

variable {σ : Type} {host : TagHost σ} {refs : σ → Set (String × String)}

/-! ## The tags of a version -/

/-- The tags that a version needs, each the repository with the name of the version. -/
def NamedVersion.wantedTags (version : NamedVersion) : List (String × String) :=
  (TagPlan.ofVersion version).targets.map fun t => (t.repository, version.name)

/-- The report on a version that has all its tags already. -/
def NamedVersion.allTagged (version : NamedVersion) : TagReport :=
  { TagReport.empty version.name with
    ensured := (TagPlan.ofVersion version).targets.map (·.repository) }

namespace Tag

/-! ## Extending, finding, settling -/

/-- From one record of calls to a later one, orderly calls for wanted tags were added. -/
def Extends (refs : σ → Set (String × String)) (wanted : Set (String × String))
    (r r' : Recorded σ) : Prop :=
  ∃ calls, r'.calls = r.calls ++ calls ∧ Orderly refs wanted r.state calls r'.state

/-- From one record of calls to a later one, no more was done than to find tags. -/
def Finds (refs : σ → Set (String × String)) (tags : List (String × String))
    (r r' : Recorded σ) : Prop :=
  refs r'.state = refs r.state ∧
    ∃ calls, r'.calls = r.calls ++ calls ∧ calls.map (fun call => call.2.found?) = tags.map some

/-- The refs of tags are there. -/
def Settled (refs : σ → Set (String × String)) (tags : List (String × String)) (s : σ) : Prop :=
  ∀ tag ∈ tags, (tag.1, refName tag.2) ∈ refs s

section Relations

variable {wanted : Set (String × String)} {tags tags' : List (String × String)}
  {r r' r'' : Recorded σ}

theorem Extends.refl (refs : σ → Set (String × String)) (wanted : Set (String × String))
    (r : Recorded σ) : Extends refs wanted r r :=
  ⟨[], (List.append_nil _).symm, .refl refs wanted r.state⟩

theorem Extends.trans (hfirst : Extends refs wanted r r') (hsecond : Extends refs wanted r' r'') :
    Extends refs wanted r r'' := by
  obtain ⟨calls, hcalls, horderly⟩ := hfirst
  obtain ⟨more, hmore, horderly'⟩ := hsecond
  refine ⟨calls ++ more, ?_, horderly.append horderly'⟩
  rw [hmore, hcalls, List.append_assoc]

theorem Extends.mono {wanted' : Set (String × String)} (hsubset : wanted ⊆ wanted')
    (h : Extends refs wanted r r') : Extends refs wanted' r r' := by
  obtain ⟨calls, hcalls, horderly⟩ := h
  exact ⟨calls, hcalls, horderly.mono hsubset⟩

theorem Finds.refl (refs : σ → Set (String × String)) (r : Recorded σ) : Finds refs [] r r :=
  ⟨rfl, [], (List.append_nil _).symm, rfl⟩

theorem Finds.trans (hfirst : Finds refs tags r r') (hsecond : Finds refs tags' r' r'') :
    Finds refs (tags ++ tags') r r'' := by
  obtain ⟨hrefs, calls, hcalls, hfound⟩ := hfirst
  obtain ⟨hrefs', more, hmore, hfound'⟩ := hsecond
  refine ⟨hrefs'.trans hrefs, calls ++ more, ?_, ?_⟩
  · rw [hmore, hcalls, List.append_assoc]
  · rw [List.map_append, hfound, hfound', List.map_append]

/-- Nothing undoes that tags are settled. -/
theorem Settled.of_extends (h : Settled refs tags r.state) (hext : Extends refs wanted r r') :
    Settled refs tags r'.state := by
  obtain ⟨calls, -, horderly⟩ := hext
  exact fun tag htag => horderly.subset (h tag htag)

theorem Settled.of_finds (h : Settled refs tags r.state) (hfinds : Finds refs tags' r r') :
    Settled refs tags r'.state := by
  rw [Settled, hfinds.1]
  exact h

theorem settled_singleton {repository version : String} {s : σ} :
    Settled refs [(repository, version)] s ↔ (repository, refName version) ∈ refs s := by
  simp only [Settled, List.forall_mem_singleton]

theorem settled_append {s : σ} :
    Settled refs (tags ++ tags') s ↔ Settled refs tags s ∧ Settled refs tags' s := by
  simp only [Settled, List.mem_append, or_imp, forall_and]

theorem settled_cons {tag : String × String} {s : σ} :
    Settled refs (tag :: tags) s ↔ Settled refs [tag] s ∧ Settled refs tags s := by
  rw [← List.singleton_append, settled_append]

end Relations

/-! ## One tag -/

section Ensure

variable {repository version : String} {r : Recorded σ}

/-- Making sure of a tag adds orderly calls. -/
theorem ensure_extends (keeps : host.KeepsRefs refs) {wanted : Set (String × String)}
    {dryRun : Bool} (template sha : String)
    (hwanted : dryRun = false → (repository, version) ∈ wanted) (r : Recorded σ) :
    Extends refs wanted r (ensure host.recorded template repository sha version dryRun r).2 := by
  obtain ⟨answer, calls, s', heq, hensured⟩ :=
    ensure_recorded host template repository sha version dryRun r
  rw [heq]
  exact ⟨calls, rfl, hensured.orderly keeps hwanted⟩

/-- A tag that could be made sure of is there. -/
theorem ensure_settles (keeps : host.KeepsRefs refs) {template sha : String} {outcome : TagOutcome}
    (h : (ensure host.recorded template repository sha version false r).1 = .ok outcome) :
    Settled refs [(repository, version)]
      (ensure host.recorded template repository sha version false r).2.state := by
  obtain ⟨answer, calls, s', heq, hensured⟩ :=
    ensure_recorded host template repository sha version false r
  rw [heq] at h ⊢
  rw [settled_singleton]
  cases hensured with
  | existing tag =>
    rw [keeps.tagRef tag]
    exact keeps.found tag
  | wanting _ dry => cases dry
  | objectRefused => cases h
  | @refAsked _ _ answer _ _ _ _ _ _ ref =>
    cases answer with
    | error _ => cases h
    | ok _ =>
      rw [keeps.createRef_ok ref]
      exact Set.mem_insert _ _

/-- A tag that is there is found, and that is all. -/
theorem ensure_finds (keeps : host.KeepsRefs refs) (template sha : String) (dryRun : Bool)
    (h : Settled refs [(repository, version)] r.state) :
    ∃ r', ensure host.recorded template repository sha version dryRun r = (.ok .existing, r') ∧
      Finds refs [(repository, version)] r r' := by
  obtain ⟨answer, calls, s', heq, hensured⟩ :=
    ensure_recorded host template repository sha version dryRun r
  cases hensured with
  | existing tag => exact ⟨_, heq, keeps.tagRef tag, _, rfl, rfl⟩
  | wanting tag | objectRefused tag | refAsked tag =>
    exact absurd (settled_singleton.1 h) (keeps.missing tag)

end Ensure

/-! ## The targets of a version -/

section EnsureTargets

variable {template version : String} {dryRun : Bool} {targets : List WantedTag}

theorem ensureTargets_extends (keeps : host.KeepsRefs refs) {wanted : Set (String × String)}
    (template : String) (hwanted : dryRun = false → ∀ t ∈ targets, (t.repository, version) ∈ wanted)
    (report : TagReport) (r : Recorded σ) :
    Extends refs wanted r
      (ensureTargets host.recorded template version dryRun targets report r).2 := by
  induction targets generalizing report r with
  | nil => exact .refl refs wanted r
  | cons t rest ih =>
    rw [ensureTargets_cons]
    have hfirst := ensure_extends keeps template t.sha
      (fun real => hwanted real t List.mem_cons_self) r
    exact hfirst.trans (ih (fun real t' ht' => hwanted real t' (List.mem_cons_of_mem _ ht')) _ _)

/-- What failed stays in a report. -/
theorem failed_of_add {report : TagReport} {repository : String}
    {outcome : Except Failure TagOutcome} (h : (report.add repository outcome).failed = []) :
    report.failed = [] ∧ ∃ done, outcome = .ok done := by
  cases outcome with
  | error failure => exact absurd h (by simp [TagReport.add])
  | ok done => cases done <;> exact ⟨h, _, rfl⟩

/-- The tags of targets are there once none of the targets failed. -/
theorem ensureTargets_settles (keeps : host.KeepsRefs refs) {report : TagReport} {r : Recorded σ}
    (h : (ensureTargets host.recorded template version false targets report r).1.failed = []) :
    report.failed = [] ∧
      Settled refs (targets.map fun t => (t.repository, version))
        (ensureTargets host.recorded template version false targets report r).2.state := by
  induction targets generalizing report r with
  | nil => exact ⟨h, by simp [Settled]⟩
  | cons t rest ih =>
    rw [ensureTargets_cons] at h ⊢
    obtain ⟨hadd, hrest⟩ := ih h
    obtain ⟨hfailed, done, hdone⟩ := failed_of_add hadd
    refine ⟨hfailed, settled_cons.2 ⟨?_, hrest⟩⟩
    -- the targets that come after leave the tag of the first where it is
    exact (ensure_settles keeps hdone).of_extends (ensureTargets_extends keeps template
      (fun _ t _ => Set.mem_univ (t.repository, version)) _ _)

/-- Settled targets are all reported as there already. -/
theorem ensureTargets_finds (keeps : host.KeepsRefs refs) (template : String) (dryRun : Bool)
    {r : Recorded σ} (report : TagReport)
    (h : Settled refs (targets.map fun t => (t.repository, version)) r.state) :
    ∃ r', ensureTargets host.recorded template version dryRun targets report r =
        ({ report with ensured := report.ensured ++ targets.map (·.repository) }, r') ∧
      Finds refs (targets.map fun t => (t.repository, version)) r r' := by
  induction targets generalizing report r with
  | nil =>
    refine ⟨r, ?_, .refl refs r⟩
    rw [List.map_nil, List.append_nil]
    rfl
  | cons t rest ih =>
    obtain ⟨hfirst, hrest⟩ := settled_cons.1 h
    obtain ⟨r₁, hensure, hfinds⟩ := ensure_finds keeps template t.sha dryRun hfirst
    obtain ⟨r', heq, hfinds'⟩ := ih (report.add t.repository (.ok .existing)) (hrest.of_finds hfinds)
    refine ⟨r', ?_, hfinds.trans hfinds'⟩
    rw [ensureTargets_cons, hensure, heq]
    simp [TagReport.add]

end EnsureTargets

/-! ## One version -/

section EnsureVersion

theorem ensureVersion_extends (keeps : host.KeepsRefs refs) {wanted : Set (String × String)}
    {dryRun : Bool} (template : String) {version : NamedVersion}
    (hwanted : dryRun = false → ∀ tag ∈ version.wantedTags, tag ∈ wanted) (r : Recorded σ) :
    Extends refs wanted r (ensureVersion host.recorded template dryRun version r).2 :=
  ensureTargets_extends keeps template
    (fun real _ ht => hwanted real _ (List.mem_map_of_mem ht)) _ r

/-- A version without a failure names readable repositories, and all its tags are there. -/
theorem ensureVersion_settles (keeps : host.KeepsRefs refs) {template : String}
    {version : NamedVersion} {r : Recorded σ}
    (h : (ensureVersion host.recorded template false version r).1.isSuccess = true) :
    (TagPlan.ofVersion version).invalid = [] ∧
      Settled refs version.wantedTags
        (ensureVersion host.recorded template false version r).2.state := by
  obtain ⟨hinvalid, hsettled⟩ := ensureTargets_settles keeps (List.isEmpty_iff.1 h)
  exact ⟨by simpa [TagReport.addInvalid, TagReport.empty] using hinvalid, hsettled⟩

/-- Only a version whose repositories can all be read has nothing but found tags to report. -/
theorem ensureVersion_finds (keeps : host.KeepsRefs refs) (template : String) (dryRun : Bool)
    {version : NamedVersion} {r : Recorded σ} (hinvalid : (TagPlan.ofVersion version).invalid = [])
    (h : Settled refs version.wantedTags r.state) :
    ∃ r', ensureVersion host.recorded template dryRun version r = (version.allTagged, r') ∧
      Finds refs version.wantedTags r r' := by
  obtain ⟨r', heq, hfinds⟩ := ensureTargets_finds keeps template dryRun
    ((TagReport.empty version.name).addInvalid (TagPlan.ofVersion version).invalid) h
  refine ⟨r', ?_, hfinds⟩
  rw [ensureVersion, heq, hinvalid]
  simp [NamedVersion.allTagged, TagReport.addInvalid, TagReport.empty]

end EnsureVersion

/-! ## Versions -/

section EnsureVersions

variable {versions : List NamedVersion}

theorem ensureVersions_extends (keeps : host.KeepsRefs refs) {wanted : Set (String × String)}
    {dryRun : Bool} (template : String)
    (hwanted : dryRun = false → ∀ tag ∈ versions.flatMap (·.wantedTags), tag ∈ wanted)
    (r : Recorded σ) :
    Extends refs wanted r (ensureVersions host.recorded template dryRun versions r).2 := by
  induction versions generalizing r with
  | nil => exact .refl refs wanted r
  | cons version rest ih =>
    rw [ensureVersions_cons]
    simp only [List.flatMap_cons, List.mem_append, or_imp, forall_and] at hwanted
    exact (ensureVersion_extends keeps template hwanted.1 r).trans (ih hwanted.2 _)

theorem ensureVersions_settles (keeps : host.KeepsRefs refs) {template : String} {r : Recorded σ}
    (h : (ensureVersions host.recorded template false versions r).1.all (·.isSuccess) = true) :
    (∀ version ∈ versions, (TagPlan.ofVersion version).invalid = []) ∧
      Settled refs (versions.flatMap (·.wantedTags))
        (ensureVersions host.recorded template false versions r).2.state := by
  induction versions generalizing r with
  | nil => simp [Settled]
  | cons version rest ih =>
    rw [ensureVersions_cons, List.all_cons, Bool.and_eq_true] at h
    obtain ⟨hinvalid, hfirst⟩ := ensureVersion_settles keeps h.1
    obtain ⟨hinvalid', hrest⟩ := ih h.2
    rw [ensureVersions_cons]
    refine ⟨List.forall_mem_cons.2 ⟨hinvalid, hinvalid'⟩, settled_append.2 ⟨?_, hrest⟩⟩
    exact hfirst.of_extends (ensureVersions_extends keeps template
      (fun _ tag _ => Set.mem_univ tag) _)

theorem ensureVersions_finds (keeps : host.KeepsRefs refs) (template : String) (dryRun : Bool)
    {r : Recorded σ} (hinvalid : ∀ version ∈ versions, (TagPlan.ofVersion version).invalid = [])
    (h : Settled refs (versions.flatMap (·.wantedTags)) r.state) :
    ∃ r', ensureVersions host.recorded template dryRun versions r =
        (versions.map (·.allTagged), r') ∧
      Finds refs (versions.flatMap (·.wantedTags)) r r' := by
  induction versions generalizing r with
  | nil => exact ⟨r, rfl, .refl refs r⟩
  | cons version rest ih =>
    obtain ⟨hhere, hthere⟩ := List.forall_mem_cons.1 hinvalid
    obtain ⟨hfirst, hrest⟩ := settled_append.1 h
    obtain ⟨r₁, heq, hfinds⟩ := ensureVersion_finds keeps template dryRun hhere hfirst
    obtain ⟨r', heq', hfinds'⟩ := ih hthere (hrest.of_finds hfinds)
    refine ⟨r', ?_, hfinds.trans hfinds'⟩
    rw [ensureVersions_cons, heq, heq']
    rfl

end EnsureVersions

end Tag

end ReleaseCandidates
