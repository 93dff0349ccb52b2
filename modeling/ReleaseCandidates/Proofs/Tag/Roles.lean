import ReleaseCandidates.Proofs.Tag.Grouping

set_option autoImplicit false

/-! # What each component is to a plan

A component of a version is one of four things: the first of its base repository, a repetition of
the ref that is kept for that, a conflict with it, or none of these because its repository cannot be
read. Which of them it is can be told from the components before it (`VersionPart.HasRole`), and a
plan is no more than the roles of the components, sorted by their kind (`TagPlan.exists_roles`).

Main statement: `TagPlan.groups_components`. -/

namespace ReleaseCandidates

/-! ## Roles -/

/-- What a component is to the plan of its version. -/
inductive PartRole where
  /-- The first component of a base repository; its ref is kept. -/
  | first (target : WantedTag)
  /-- A later component with the ref that is kept. -/
  | repetition
  /-- A later component with another ref. -/
  | conflict (clash : RefClash)
  /-- A component whose repository cannot be read. -/
  | unreadable (entry : String × Failure)
  deriving DecidableEq

namespace PartRole

/-- The target that a component gives rise to. -/
def target? : PartRole → Option WantedTag
  | .first target => some target
  | _ => none

/-- The conflict that a component gives rise to. -/
def clash? : PartRole → Option RefClash
  | .conflict clash => some clash
  | _ => none

/-- The entry for a component that cannot be read. -/
def entry? : PartRole → Option (String × Failure)
  | .unreadable entry => some entry
  | _ => none

end PartRole

/-- The plan that components of certain roles give rise to. -/
def TagPlan.ofRoles (roles : List PartRole) : TagPlan where
  targets := roles.filterMap PartRole.target?
  conflicts := roles.filterMap PartRole.clash?
  invalid := roles.filterMap PartRole.entry?

/-- The ref that is kept for a base repository: that of the first of some components which has it. -/
def keptRef? (parts : List VersionPart) (base : String) : Option String :=
  (parts.find? fun part => part.base? == some base).map (·.ref)

/-- The role of a component after others. -/
inductive VersionPart.HasRole (earlier : List VersionPart) (part : VersionPart) : PartRole → Prop where
  | first {base : String} (readable : part.base? = some base)
      (new : ∀ other ∈ earlier, other.base? ≠ some base) :
      HasRole earlier part (.first ⟨base, part.ref⟩)
  | repetition {base : String} (readable : part.base? = some base)
      (kept : keptRef? earlier base = some part.ref) : HasRole earlier part .repetition
  | conflict {base kept : String} (readable : part.base? = some base)
      (known : keptRef? earlier base = some kept) (differs : kept ≠ part.ref) :
      HasRole earlier part (.conflict ⟨base, kept, part.ref⟩)
  | unreadable {problem : RepositoryId.Problem}
      (problem_eq : RepositoryId.baseOf part.repository = .error problem) :
      HasRole earlier part (.unreadable (part.repository, .identifier part.repository problem))

/-- The conflict of a component with the first one of its base repository, if their refs differ. -/
def NamedVersion.clash? (version : NamedVersion) (part : VersionPart) : Option RefClash :=
  part.base?.bind fun base =>
    (version.firstRef? base).bind fun kept =>
      if kept = part.ref then none else some ⟨base, kept, part.ref⟩

section Kept

variable {parts : List VersionPart} {part : VersionPart} {base : String}

theorem keptRef?_eq_none_iff :
    keptRef? parts base = none ↔ ∀ other ∈ parts, other.base? ≠ some base := by
  simp [keptRef?]

/-- What is kept stays kept. -/
theorem keptRef?_append (parts later : List VersionPart) (base : String) :
    keptRef? (parts ++ later) base = (keptRef? parts base).or (keptRef? later base) := by
  simp only [keptRef?, List.find?_append, Option.map_or]

theorem keptRef?_cons_self (h : part.base? = some base) (later : List VersionPart) :
    keptRef? (part :: later) base = some part.ref := by
  simp [keptRef?, h]

theorem VersionPart.base?_eq_some_iff :
    part.base? = some base ↔ RepositoryId.baseOf part.repository = .ok base := by
  rw [base?]
  cases RepositoryId.baseOf part.repository <;> simp [Except.toOption]

end Kept

namespace VersionPart

/-- The role of a component after others, worked out. -/
def roleAfter (earlier : List VersionPart) (part : VersionPart) : PartRole :=
  match RepositoryId.baseOf part.repository with
  | .error problem => .unreadable (part.repository, .identifier part.repository problem)
  | .ok base =>
    match keptRef? earlier base with
    | none => .first ⟨base, part.ref⟩
    | some kept => if kept = part.ref then .repetition else .conflict ⟨base, kept, part.ref⟩

section RoleAfter

variable {earlier : List VersionPart} {part : VersionPart} {base kept : String}

theorem roleAfter_of_unreadable {problem : RepositoryId.Problem}
    (h : RepositoryId.baseOf part.repository = .error problem) :
    part.roleAfter earlier =
      .unreadable (part.repository, .identifier part.repository problem) := by
  rw [roleAfter, h]

theorem roleAfter_of_new (h : part.base? = some base) (hnew : keptRef? earlier base = none) :
    part.roleAfter earlier = .first ⟨base, part.ref⟩ := by
  rw [roleAfter, base?_eq_some_iff.1 h]
  simp only [hnew]

theorem roleAfter_of_kept (h : part.base? = some base) (hkept : keptRef? earlier base = some kept) :
    part.roleAfter earlier =
      if kept = part.ref then .repetition else .conflict ⟨base, kept, part.ref⟩ := by
  rw [roleAfter, base?_eq_some_iff.1 h]
  simp only [hkept]

/-- A component has the role that is worked out for it, and no other. -/
theorem hasRole_iff {role : PartRole} :
    part.HasRole earlier role ↔ role = part.roleAfter earlier := by
  constructor
  · intro h
    induction h with
    | first readable new => rw [roleAfter_of_new readable (keptRef?_eq_none_iff.2 new)]
    | repetition readable kept => rw [roleAfter_of_kept readable kept, if_pos rfl]
    | conflict readable known differs => rw [roleAfter_of_kept readable known, if_neg differs]
    | unreadable problem_eq => rw [roleAfter_of_unreadable problem_eq]
  · rintro rfl
    rcases hbase : RepositoryId.baseOf part.repository with problem | base
    · rw [roleAfter_of_unreadable hbase]
      exact .unreadable hbase
    · have readable := base?_eq_some_iff.2 hbase
      rcases hkept : keptRef? earlier base with _ | kept
      · rw [roleAfter_of_new readable hkept]
        exact .first readable (keptRef?_eq_none_iff.1 hkept)
      · rw [roleAfter_of_kept readable hkept]
        split
        · rename_i hsame
          exact .repetition readable (hsame ▸ hkept)
        · rename_i hdiffers
          exact .conflict readable hkept hdiffers

end RoleAfter

end VersionPart

namespace TagPlan

/-! ## Plans as sorted roles -/

theorem ofRoles_concat (roles : List PartRole) (role : PartRole) :
    ofRoles (roles ++ [role]) =
      { targets := (ofRoles roles).targets ++ role.target?.toList
        conflicts := (ofRoles roles).conflicts ++ role.clash?.toList
        invalid := (ofRoles roles).invalid ++ role.entry?.toList } := by
  simp only [ofRoles, List.filterMap_append]
  cases role <;> rfl

/-- The plan for components. -/
theorem targetFor?_parts (parts : List VersionPart) (base : String) :
    (parts.foldl add empty).targetFor? base = (keptRef? parts base).map fun ref => ⟨base, ref⟩ := by
  rw [targetFor?_foldl, keptRef?, Option.map_map]
  rfl

/-- Adding a component adds its role. -/
theorem add_eq (parts : List VersionPart) (part : VersionPart) {roles : List PartRole}
    (h : parts.foldl add empty = ofRoles roles) :
    (parts.foldl add empty).add part = ofRoles (roles ++ [part.roleAfter parts]) := by
  rw [ofRoles_concat, ← h]
  rcases hbase : RepositoryId.baseOf part.repository with problem | base
  · rw [VersionPart.roleAfter_of_unreadable hbase, add, hbase]
    simp [PartRole.target?, PartRole.clash?, PartRole.entry?]
  · have readable := VersionPart.base?_eq_some_iff.2 hbase
    have htarget := targetFor?_parts parts base
    rw [add_of_base? readable, addRef]
    rcases hkept : keptRef? parts base with _ | kept
    · rw [hkept] at htarget
      rw [VersionPart.roleAfter_of_new readable hkept, htarget]
      simp [PartRole.target?, PartRole.clash?, PartRole.entry?]
    · rw [hkept] at htarget
      rw [VersionPart.roleAfter_of_kept readable hkept, htarget]
      dsimp only [Option.map_some]
      split
      · simp [PartRole.target?, PartRole.clash?, PartRole.entry?]
      · simp [PartRole.target?, PartRole.clash?, PartRole.entry?]

/-- A plan is the roles of the components, one for each of them, sorted. -/
theorem exists_roles (parts : List VersionPart) :
    ∃ roles, parts.foldl add empty = ofRoles roles ∧ roles.length = parts.length ∧
      ∀ earlier part later, parts = earlier ++ part :: later →
        roles[earlier.length]? = some (part.roleAfter earlier) := by
  induction parts using List.reverseRecOn with
  | nil => exact ⟨[], rfl, rfl, by simp⟩
  | append_singleton parts last ih =>
    obtain ⟨roles, hplan, hlength, hroles⟩ := ih
    refine ⟨roles ++ [last.roleAfter parts], ?_, by simp [hlength], ?_⟩
    · rw [List.foldl_concat, add_eq parts last hplan]
    · intro earlier part later hparts
      rcases List.eq_nil_or_concat later with rfl | ⟨later, last', rfl⟩
      · obtain ⟨rfl, hlast⟩ := List.append_inj' hparts rfl
        obtain rfl : last = part := List.head_eq_of_cons_eq hlast
        rw [← hlength, List.getElem?_concat_length]
      · rw [List.concat_eq_append, ← List.cons_append, ← List.append_assoc] at hparts
        obtain ⟨hinit, -⟩ := List.append_inj' hparts rfl
        have hlt : earlier.length < roles.length := by
          rw [hlength, hinit, List.length_append, List.length_cons]
          omega
        rw [List.getElem?_append_left hlt]
        exact hroles earlier part later hinit

/-! ## Conflicts -/

section Conflicts

variable {version : NamedVersion} {earlier later : List VersionPart} {part : VersionPart}

/-- The ref that is kept after some components is the one that is kept in the end. -/
theorem clash?_roleAfter (h : version.components = earlier ++ part :: later) :
    (part.roleAfter earlier).clash? = version.clash? part := by
  have hfirst (base : String) : version.firstRef? base = keptRef? (earlier ++ part :: later) base :=
    congrArg (fun parts => keptRef? parts base) h
  rcases hbase : RepositoryId.baseOf part.repository with problem | base
  · have hnone : part.base? = none := by
      rw [VersionPart.base?, hbase]
      rfl
    rw [VersionPart.roleAfter_of_unreadable hbase, NamedVersion.clash?, hnone]
    rfl
  · have readable := VersionPart.base?_eq_some_iff.2 hbase
    rw [NamedVersion.clash?, readable, Option.bind_some, hfirst, keptRef?_append]
    rcases hkept : keptRef? earlier base with _ | kept
    · rw [VersionPart.roleAfter_of_new readable hkept, Option.none_or,
        keptRef?_cons_self readable, Option.bind_some, if_pos rfl]
      rfl
    · rw [VersionPart.roleAfter_of_kept readable hkept, Option.some_or, Option.bind_some]
      split <;> rfl

theorem conflicts_parts {parts : List VersionPart} (h : version.components = parts ++ later) :
    (parts.foldl add empty).conflicts = parts.filterMap version.clash? := by
  induction parts using List.reverseRecOn generalizing later with
  | nil => rfl
  | append_singleton parts last ih =>
    rw [List.append_assoc, List.singleton_append] at h
    obtain ⟨roles, hplan, -⟩ := exists_roles parts
    rw [List.foldl_concat, add_eq parts last hplan, ofRoles_concat, clash?_roleAfter h,
      List.filterMap_append, ← ih h, hplan]
    cases hclash : version.clash? last <;> simp [hclash]

/-- The conflicts are those with the first component of the same base repository. -/
theorem conflicts_ofVersion (version : NamedVersion) :
    (ofVersion version).conflicts = version.components.filterMap version.clash? :=
  conflicts_parts (List.append_nil _).symm

end Conflicts

/-! ## The whole plan -/

/-- A target is the one for its repository. -/
theorem targetFor?_of_mem {plan : TagPlan} {t : WantedTag} (hnodup : plan.repositories.Nodup)
    (h : t ∈ plan.targets) : plan.targetFor? t.repository = some t := by
  rcases hfound : plan.targetFor? t.repository with _ | other
  · exact absurd rfl (targetFor?_eq_none hfound t h)
  · have hother : other.repository = t.repository := by
      simpa using List.find?_some hfound
    rw [List.inj_on_of_nodup_map hnodup (List.mem_of_find?_eq_some hfound) h hother]

/-- A target has the ref of the first component of its repository. -/
theorem firstRef?_of_mem_targets {version : NamedVersion} {t : WantedTag}
    (h : t ∈ (ofVersion version).targets) : version.firstRef? t.repository = some t.sha := by
  have htarget := targetFor?_ofVersion version t.repository
  rw [targetFor?_of_mem (nodup_repositories_ofVersion version) h] at htarget
  obtain ⟨ref, href, hsame⟩ := Option.map_eq_some_iff.1 htarget.symm
  rw [href, ← hsame]

/-- **A plan groups the components of a version by their base repositories.** The repositories of
its targets are the base repositories of the components that can be read, each once and in the order
in which they turn up first, and each target has the ref of the first component of its repository.
The conflicts are the components whose ref is not the one that is kept for their base repository, and
the invalid entries are those whose repository cannot be read, both in the order of the components.
Every component has exactly one role: it is the first of its base repository, repeats the ref that is
kept for that, is in conflict with it, or cannot be read; and the plan is these roles, sorted. -/
theorem groups_components (version : NamedVersion) :
    let plan := ofVersion version
    plan.repositories.Nodup ∧ plan.repositories = version.bases.eraseDups ∧
    (∀ t ∈ plan.targets, version.firstRef? t.repository = some t.sha) ∧
    plan.conflicts = version.components.filterMap version.clash? ∧
    plan.invalid = version.components.filterMap VersionPart.invalid? ∧
    ∃ roles, plan = ofRoles roles ∧ roles.length = version.components.length ∧
      ∀ earlier part later, version.components = earlier ++ part :: later →
        ∀ role, part.HasRole earlier role ↔ roles[earlier.length]? = some role := by
  obtain ⟨roles, hplan, hlength, hroles⟩ := exists_roles version.components
  refine ⟨nodup_repositories_ofVersion version, repositories_ofVersion version, ?_,
    conflicts_ofVersion version, invalid_ofVersion version, roles, hplan, hlength, ?_⟩
  · intro t ht
    exact firstRef?_of_mem_targets ht
  · intro earlier part later hparts role
    rw [VersionPart.hasRole_iff, hroles earlier part later hparts, Option.some_inj, eq_comm]

/-- A version with components of every role: two base repositories, one of them written in two ways,
and a component that cannot be read. -/
def everyRole : NamedVersion :=
  ⟨"1.0", [⟨"https://forge/o/a", "c1", none⟩, ⟨"broken", "c4", none⟩, ⟨"o/b", "c2", none⟩,
    ⟨"o/a/part", "c1", none⟩, ⟨"o/b.git", "c3", none⟩]⟩

/-- The last component is in conflict with the third, and the fourth only repeats the first. -/
theorem groups_components_of_every_role :
    ⟨"o/b", "c2"⟩ ∈ (ofVersion everyRole).targets ∧ everyRole.firstRef? "o/b" = some "c2" ∧
      (ofVersion everyRole).conflicts = [⟨"o/b", "c2", "c3"⟩] ∧
      everyRole.components = everyRole.components.take 3 ++
        ⟨"o/a/part", "c1", none⟩ :: everyRole.components.drop 4 ∧
      ∀ role, VersionPart.HasRole (everyRole.components.take 3) ⟨"o/a/part", "c1", none⟩ role ↔
        role = .repetition := by
  obtain ⟨-, -, htargets, hconflicts, -, roles, -, -, hroles⟩ := groups_components everyRole
  have htarget : ⟨"o/b", "c2"⟩ ∈ (ofVersion everyRole).targets := by decide
  have hreadable : (⟨"o/a/part", "c1", none⟩ : VersionPart).base? = some "o/a" := by decide
  have hrepeats : VersionPart.HasRole (everyRole.components.take 3) ⟨"o/a/part", "c1", none⟩
      .repetition := .repetition hreadable (by decide)
  refine ⟨htarget, htargets _ htarget, hconflicts.trans (by decide), rfl, ?_⟩
  intro role
  rw [hroles _ _ _ rfl, (hroles _ _ _ rfl _).1 hrepeats, Option.some_inj, eq_comm]

end TagPlan

end ReleaseCandidates
