import Mathlib.Data.List.Induction
import Mathlib.Data.List.Nodup
import ReleaseCandidates.Tag.Plan

set_option autoImplicit false

/-! # Components grouped by their base repositories

A plan is made by going through the components of a version once. What it holds can be told from
the components without going through them: the base repositories in the order in which they turn up
first, each with the ref of the component that it turned up with, and the components whose
repository cannot be read. -/

namespace ReleaseCandidates

namespace VersionPart

/-- The base repository of a component, if its repository can be read. -/
def base? (part : VersionPart) : Option String :=
  (RepositoryId.baseOf part.repository).toOption

/-- The entry for a component whose repository cannot be read. -/
def invalid? (part : VersionPart) : Option (String × Failure) :=
  match RepositoryId.baseOf part.repository with
  | .ok _ => none
  | .error problem => some (part.repository, .identifier part.repository problem)

end VersionPart

namespace NamedVersion

/-- The base repositories of the components that can be read, one for each component. -/
def bases (version : NamedVersion) : List String :=
  version.components.filterMap VersionPart.base?

/-- The ref of the first component with a base repository. -/
def firstRef? (version : NamedVersion) (base : String) : Option String :=
  (version.components.find? fun part => part.base? == some base).map (·.ref)

/-- The components whose repository cannot be read, each with the failure. -/
def invalid (version : NamedVersion) : List (String × Failure) :=
  version.components.filterMap VersionPart.invalid?

end NamedVersion

/-! ## First occurrences -/

theorem eraseDups_concat (l : List String) (a : String) :
    (l ++ [a]).eraseDups = if a ∈ l then l.eraseDups else l.eraseDups ++ [a] := by
  rw [List.eraseDups_append]
  by_cases h : a ∈ l
  · simp [List.removeAll, h]
  · simp [List.removeAll, h, List.eraseDups_cons]

theorem nodup_eraseDups (l : List String) : l.eraseDups.Nodup := by
  induction l using List.reverseRecOn with
  | nil => exact List.nodup_nil
  | append_singleton l a ih =>
    rw [eraseDups_concat]
    split
    · exact ih
    · rename_i hnew
      rw [← List.mem_eraseDups] at hnew
      rw [← List.concat_eq_append]
      exact ih.concat hnew

namespace TagPlan

variable {plan : TagPlan} {part : VersionPart} {base ref : String}

/-- The repositories of the targets. -/
def repositories (plan : TagPlan) : List String :=
  plan.targets.map (·.repository)

theorem isSome_targetFor?_iff (plan : TagPlan) (base : String) :
    (plan.targetFor? base).isSome = true ↔ base ∈ plan.repositories := by
  simp [targetFor?, repositories]

theorem targetFor?_eq_none (h : plan.targetFor? base = none) :
    ∀ t ∈ plan.targets, t.repository ≠ base := by
  intro t ht
  simpa using List.find?_eq_none.1 h t ht

/-! ## One component -/

theorem add_of_base? (h : part.base? = some base) : plan.add part = plan.addRef base part.ref := by
  unfold VersionPart.base? at h
  unfold add
  cases hbase : RepositoryId.baseOf part.repository with
  | ok found =>
    rw [hbase] at h
    obtain rfl : found = base := Option.some.inj h
    rfl
  | error problem =>
    rw [hbase] at h
    cases h

theorem add_of_no_base? (h : part.base? = none) :
    plan.add part = { plan with invalid := plan.invalid ++ part.invalid?.toList } := by
  unfold VersionPart.base? at h
  unfold add VersionPart.invalid?
  cases hbase : RepositoryId.baseOf part.repository with
  | ok found =>
    rw [hbase] at h
    cases h
  | error problem => rfl

theorem invalid?_of_base? (h : part.base? = some base) : part.invalid? = none := by
  unfold VersionPart.base? at h
  unfold VersionPart.invalid?
  cases hbase : RepositoryId.baseOf part.repository with
  | ok found => rfl
  | error problem =>
    rw [hbase] at h
    cases h

theorem invalid_addRef (plan : TagPlan) (base ref : String) :
    (plan.addRef base ref).invalid = plan.invalid := by
  unfold addRef
  split
  · rfl
  · split <;> rfl

theorem invalid_add (plan : TagPlan) (part : VersionPart) :
    (plan.add part).invalid = plan.invalid ++ part.invalid?.toList := by
  cases h : part.base? with
  | some base =>
    rw [add_of_base? h, invalid_addRef, invalid?_of_base? h]
    exact (List.append_nil _).symm
  | none => rw [add_of_no_base? h]

/-- The first ref for a base repository stays. -/
theorem targetFor?_addRef (plan : TagPlan) (base ref other : String) :
    (plan.addRef base ref).targetFor? other =
      (plan.targetFor? other).or (if base = other then some ⟨base, ref⟩ else none) := by
  unfold addRef
  split
  · rename_i hnone
    simp only [targetFor?, List.find?_append, List.find?_singleton, beq_iff_eq]
  · rename_i existing hsome
    have hkept : plan.targetFor? other =
        (plan.targetFor? other).or (if base = other then some ⟨base, ref⟩ else none) := by
      by_cases hother : base = other
      · rw [← hother, hsome, Option.some_or]
      · rw [if_neg hother, Option.or_none]
    split
    · exact hkept
    · exact hkept

theorem targetFor?_add (plan : TagPlan) (part : VersionPart) (base : String) :
    (plan.add part).targetFor? base =
      (plan.targetFor? base).or
        (if part.base? = some base then some ⟨base, part.ref⟩ else none) := by
  cases h : part.base? with
  | some found =>
    rw [add_of_base? h, targetFor?_addRef]
    by_cases hbase : found = base
    · rw [if_pos hbase, if_pos (congrArg some hbase), hbase]
    · rw [if_neg hbase, if_neg fun hsome => hbase (Option.some.inj hsome)]
  | none =>
    rw [add_of_no_base? h, if_neg (Option.some_ne_none base).symm, Option.or_none]
    rfl

theorem repositories_addRef (plan : TagPlan) (base ref : String) :
    (plan.addRef base ref).repositories =
      if base ∈ plan.repositories then plan.repositories else plan.repositories ++ [base] := by
  have hmem := isSome_targetFor?_iff plan base
  unfold addRef
  cases h : plan.targetFor? base with
  | none =>
    rw [h] at hmem
    rw [if_neg fun hbase => by cases hmem.2 hbase]
    simp only [repositories, List.map_append, List.map_cons, List.map_nil]
  | some existing =>
    rw [h] at hmem
    rw [if_pos (hmem.1 rfl)]
    dsimp only
    split <;> rfl

/-- A base repository is put behind the others when it turns up first. -/
theorem repositories_add {bases : List String} (h : plan.repositories = bases.eraseDups) :
    (plan.add part).repositories = (bases ++ part.base?.toList).eraseDups := by
  cases hpart : part.base? with
  | none =>
    rw [add_of_no_base? hpart, Option.toList_none, List.append_nil]
    exact h
  | some base =>
    rw [add_of_base? hpart, repositories_addRef, h, Option.toList_some, eraseDups_concat]
    simp only [List.mem_eraseDups]

/-! ## All components -/

theorem targetFor?_foldl (plan : TagPlan) (parts : List VersionPart) (base : String) :
    (parts.foldl add plan).targetFor? base =
      (plan.targetFor? base).or
        ((parts.find? fun part => part.base? == some base).map fun part => ⟨base, part.ref⟩) := by
  induction parts generalizing plan with
  | nil => exact Option.or_none.symm
  | cons part rest ih =>
    rw [List.foldl_cons, ih, targetFor?_add, Option.or_assoc, List.find?_cons]
    by_cases hpart : part.base? = some base
    · rw [if_pos hpart, hpart, beq_self_eq_true]
      rfl
    · rw [if_neg hpart, Option.none_or, beq_eq_false_iff_ne.2 hpart]

theorem repositories_foldl (plan : TagPlan) {bases : List String}
    (h : plan.repositories = bases.eraseDups) (parts : List VersionPart) :
    (parts.foldl add plan).repositories =
      (bases ++ parts.filterMap VersionPart.base?).eraseDups := by
  induction parts generalizing plan bases with
  | nil => rw [List.filterMap_nil, List.append_nil, List.foldl_nil, h]
  | cons part rest ih =>
    rw [List.foldl_cons, ih _ (repositories_add h), List.append_assoc]
    cases hpart : part.base? with
    | none => rw [List.filterMap_cons_none hpart]; rfl
    | some base => rw [List.filterMap_cons_some hpart]; rfl

theorem invalid_foldl (plan : TagPlan) (parts : List VersionPart) :
    (parts.foldl add plan).invalid = plan.invalid ++ parts.filterMap VersionPart.invalid? := by
  induction parts generalizing plan with
  | nil => exact (List.append_nil _).symm
  | cons part rest ih =>
    rw [List.foldl_cons, ih, invalid_add, List.append_assoc]
    cases h : part.invalid? with
    | none => rw [List.filterMap_cons_none h]; rfl
    | some entry => rw [List.filterMap_cons_some h]; rfl

variable (version : NamedVersion)

/-- The target for a base repository has the ref of its first component. -/
theorem targetFor?_ofVersion (base : String) :
    (ofVersion version).targetFor? base = (version.firstRef? base).map fun ref => ⟨base, ref⟩ := by
  rw [ofVersion, targetFor?_foldl, NamedVersion.firstRef?, Option.map_map]
  rfl

/-- There is one target for each base repository. -/
theorem repositories_ofVersion : (ofVersion version).repositories = version.bases.eraseDups := by
  have hempty : empty.repositories = ([] : List String).eraseDups := rfl
  exact repositories_foldl empty hempty version.components

theorem nodup_repositories_ofVersion : (ofVersion version).repositories.Nodup := by
  rw [repositories_ofVersion]
  exact nodup_eraseDups version.bases

/-- The components that cannot be read are left as they are. -/
theorem invalid_ofVersion : (ofVersion version).invalid = version.invalid :=
  invalid_foldl empty version.components

end TagPlan

end ReleaseCandidates
