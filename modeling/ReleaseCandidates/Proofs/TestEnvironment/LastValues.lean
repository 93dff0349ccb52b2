import Mathlib.Data.String.Basic
import ReleaseCandidates.Proofs.TestEnvironment.Silence

set_option autoImplicit false

/-! # What an environment says

An environment is told by what its components offer, each under its own entry of the table
(`Component.Offers`). A variable has the value that was offered for it last, a component without an
entry is named, and a variable is noted once for each change in the values that were offered for it
one after the other (`TestEnvironment.changes`).

The variables are kept sorted, so each of them occurs once, and what is looked up for a name is all
that the environment has of it.

Main statement: `TestEnvironment.holds_last_values`. -/

namespace ReleaseCandidates

/-! ## Tables with distinct names -/

/-- Where names are distinct, what is looked up for a name is what stands beside it. -/
theorem lookup_eq_some_iff_mem {α : Type} {entries : List (String × α)} {name : String} {value : α}
    (h : (entries.map Prod.fst).Nodup) :
    entries.lookup name = some value ↔ (name, value) ∈ entries := by
  rw [List.lookup_eq_some_iff]
  constructor
  · rintro ⟨before, after, rfl, -⟩
    exact List.mem_append_right before List.mem_cons_self
  · intro hmem
    obtain ⟨before, after, rfl⟩ := List.append_of_mem hmem
    refine ⟨before, after, rfl, fun entry hentry => ?_⟩
    rw [List.map_append, List.map_cons, List.nodup_append] at h
    obtain ⟨-, -, hapart⟩ := h
    exact bne_iff_ne.2 (hapart entry.1 (List.mem_map_of_mem hentry) name List.mem_cons_self).symm

/-! ## Sorted variables -/

namespace Variables

variable {vars : Variables} {name value : String}

/-- The variables stand in the order of their names, each once. -/
def Sorted (vars : Variables) : Prop :=
  vars.Pairwise fun earlier later => earlier.1 < later.1

theorem eq_or_mem_of_mem_set {entry : String × String} (h : entry ∈ set name value vars) :
    entry = (name, value) ∨ entry ∈ vars := by
  induction vars with
  | nil => exact .inl (List.mem_singleton.1 h)
  | cons first rest ih =>
    obtain ⟨n, v⟩ := first
    rw [set] at h
    split at h
    · rename_i hsame
      subst hsame
      exact (List.mem_cons.1 h).imp_right (List.mem_cons_of_mem _)
    split at h
    · exact List.mem_cons.1 h
    · rcases List.mem_cons.1 h with rfl | hrest
      · exact .inr List.mem_cons_self
      · exact (ih hrest).imp_right (List.mem_cons_of_mem _)

theorem Sorted.set (h : vars.Sorted) (name value : String) : (vars.set name value).Sorted := by
  induction vars with
  | nil => exact List.pairwise_singleton _ _
  | cons first rest ih =>
    obtain ⟨n, v⟩ := first
    obtain ⟨hfirst, hrest⟩ := List.pairwise_cons.1 h
    rw [Variables.set]
    split
    · rename_i hsame
      subst hsame
      exact List.pairwise_cons.2 ⟨hfirst, hrest⟩
    rename_i hne
    split
    · rename_i hbefore
      refine List.pairwise_cons.2 ⟨fun entry hentry => ?_, h⟩
      rcases List.mem_cons.1 hentry with rfl | hentry
      · exact hbefore
      · exact hbefore.trans (hfirst entry hentry)
    · rename_i hbehind
      refine List.pairwise_cons.2 ⟨fun entry hentry => ?_, ih hrest⟩
      rcases eq_or_mem_of_mem_set hentry with rfl | hentry
      · exact lt_of_le_of_ne (not_lt.1 hbehind) (Ne.symm hne)
      · exact hfirst entry hentry

theorem Sorted.nodup_names (h : vars.Sorted) : (vars.map Prod.fst).Nodup := by
  rw [List.nodup_iff_pairwise_ne, List.pairwise_map]
  exact h.imp ne_of_lt

end Variables

/-! ## What a component offers -/

namespace Binding

theorem nodup_names : (table.map Prod.fst).Nodup := by
  decide

theorem lookup_eq_some_iff {key : String} {binding : Binding} :
    lookup key = some binding ↔ (key, binding) ∈ table :=
  lookup_eq_some_iff_mem nodup_names

theorem lookup_eq_none_iff {key : String} :
    lookup key = none ↔ ∀ binding, (key, binding) ∉ table := by
  rw [Option.eq_none_iff_forall_ne_some]
  exact forall_congr' fun binding => not_congr lookup_eq_some_iff

theorem assignment_of_offered_eq_none {name : String} {value : Option String}
    (h : offered value = none) : assignment name value = [] := by
  cases value with
  | none => rfl
  | some v =>
    rw [offered, Option.filter_some] at h
    rw [assignment, if_pos (by simpa using h)]

theorem assignment_of_offered_eq_some {name v : String} {value : Option String}
    (h : offered value = some v) : assignment name value = [(name, v)] := by
  obtain ⟨rfl, hnonempty⟩ := offered_eq_some.1 h
  rw [assignment, if_neg (ne_true_of_eq_false hnonempty)]

end Binding

namespace Component

variable {c : Component} {binding : Binding} {name value : String}

/-- A component is bound to an entry of the table: the one of its name or, if there is none, the
one of its base repository. -/
inductive BoundTo (c : Component) (binding : Binding) : Prop where
  | byName (entry : (c.name, binding) ∈ Binding.table)
  | byBase {base : String} (unnamed : ∀ other, (c.name, other) ∉ Binding.table)
      (based : RepositoryId.baseOf c.repository = .ok base)
      (entry : (base, binding) ∈ Binding.table)

theorem boundTo_iff : c.BoundTo binding ↔ Binding.of c = some binding := by
  rw [Binding.of, Option.orElse_eq_or, Option.or_eq_some_iff]
  constructor
  · intro h
    cases h with
    | byName entry => exact .inl (Binding.lookup_eq_some_iff.2 entry)
    | byBase unnamed based entry =>
      refine .inr ⟨Binding.lookup_eq_none_iff.2 unnamed, ?_⟩
      rw [based]
      exact Binding.lookup_eq_some_iff.2 entry
  · rintro (hname | ⟨hunnamed, hbase⟩)
    · exact .byName (Binding.lookup_eq_some_iff.1 hname)
    · obtain ⟨base, hbased, hentry⟩ := Option.bind_eq_some_iff.1 hbase
      cases hparsed : RepositoryId.baseOf c.repository with
      | error problem =>
        rw [hparsed] at hbased
        cases hbased
      | ok parsed =>
        rw [hparsed] at hbased
        obtain rfl := Option.some.inj hbased
        exact .byBase (Binding.lookup_eq_none_iff.1 hunnamed) hparsed
          (Binding.lookup_eq_some_iff.1 hentry)

/-- A component has no entry in the table. -/
def Unbound (c : Component) : Prop :=
  ∀ binding, ¬ c.BoundTo binding

theorem unbound_iff : c.Unbound ↔ Binding.of c = none := by
  rw [Option.eq_none_iff_forall_ne_some]
  exact forall_congr' fun binding => not_congr boundTo_iff

instance (c : Component) : Decidable c.Unbound :=
  decidable_of_iff _ unbound_iff.symm

/-- A component offers a value for a variable: its entry has the variable for what has the value
in the component, and the value is not empty. -/
inductive Offers (c : Component) : String → String → Prop where
  | ref {var : String} (bound : c.BoundTo (.ref var)) (nonempty : c.ref ≠ "") : Offers c var c.ref
  | address {address version url : String} (bound : c.BoundTo (.image address version))
      (held : c.imageUrl = some url) (nonempty : url ≠ "") : Offers c address url
  | version {address version digest : String} (bound : c.BoundTo (.image address version))
      (held : c.imageDigest = some digest) (nonempty : digest ≠ "") : Offers c version digest

theorem offered_eq_some_iff {held : Option String} :
    Binding.offered held = some value ↔ held = some value ∧ value ≠ "" := by
  rw [Binding.offered_eq_some, String.isEmpty_eq_false_iff]

/-- The value that is worked out for a variable is the one that is offered. -/
theorem exported?_eq_some_iff : c.exported? name = some value ↔ c.Offers name value := by
  constructor
  · intro h
    obtain ⟨binding, hbound, hvalue⟩ := Option.bind_eq_some_iff.1 h
    rw [← boundTo_iff] at hbound
    cases binding with
    | ref var =>
      obtain ⟨rfl, hoffered⟩ := Option.ite_none_right_eq_some.1 hvalue
      obtain ⟨hheld, hne⟩ := offered_eq_some_iff.1 hoffered
      obtain rfl := Option.some.inj hheld
      exact .ref hbound hne
    | image address version =>
      rw [Binding.valueFor?, Option.or_eq_some_iff] at hvalue
      rcases hvalue with hdigest | ⟨-, hurl⟩
      · obtain ⟨rfl, hoffered⟩ := Option.ite_none_right_eq_some.1 hdigest
        obtain ⟨hheld, hne⟩ := offered_eq_some_iff.1 hoffered
        exact .version hbound hheld hne
      · obtain ⟨rfl, hoffered⟩ := Option.ite_none_right_eq_some.1 hurl
        obtain ⟨hheld, hne⟩ := offered_eq_some_iff.1 hoffered
        exact .address hbound hheld hne
  · intro h
    cases h with
    | ref bound nonempty =>
      rw [exported?, boundTo_iff.1 bound, Option.bind_some, Binding.valueFor?, if_pos rfl]
      exact offered_eq_some_iff.2 ⟨rfl, nonempty⟩
    | address bound held nonempty =>
      obtain ⟨key, entry⟩ := Binding.exists_mem_table (boundTo_iff.1 bound)
      rw [Binding.exported?_address entry, if_pos (boundTo_iff.1 bound)]
      exact offered_eq_some_iff.2 ⟨held, nonempty⟩
    | version bound held nonempty =>
      obtain ⟨key, entry⟩ := Binding.exists_mem_table (boundTo_iff.1 bound)
      rw [Binding.exported?_version entry, if_pos (boundTo_iff.1 bound)]
      exact offered_eq_some_iff.2 ⟨held, nonempty⟩

end Component

namespace TestEnvironment

variable {components : List Component} {name value : String}

/-! ## The variables -/

theorem sorted_foldl_assign {env : TestEnvironment} (h : env.vars.Sorted)
    (assignments : List (String × String)) : (assignments.foldl assign env).vars.Sorted := by
  induction assignments generalizing env with
  | nil => exact h
  | cons assignment rest ih => exact ih (h.set assignment.1 assignment.2)

theorem sorted_foldl_add {env : TestEnvironment} (h : env.vars.Sorted)
    (components : List Component) : (components.foldl add env).vars.Sorted := by
  induction components generalizing env with
  | nil => exact h
  | cons c rest ih =>
    refine ih ?_
    rw [add]
    cases Binding.of c with
    | none => exact h
    | some binding => exact sorted_foldl_assign h _

theorem sorted_ofComponents (components : List Component) :
    (ofComponents components).vars.Sorted := by
  have hempty : empty.vars.Sorted := List.Pairwise.nil
  exact sorted_foldl_add hempty components

/-- The value is the one that a list of components offers last for a variable. -/
def LastOffered (components : List Component) (name value : String) : Prop :=
  ∃ before c after, components = before ++ c :: after ∧ c.Offers name value ∧
    ∀ later ∈ after, ∀ other, ¬ later.Offers name other

theorem get?_eq_some_iff :
    (ofComponents components).vars.get? name = some value ↔ LastOffered components name value := by
  have hsilent (c : Component) : c.exported? name = none ↔ ∀ other, ¬ c.Offers name other := by
    rw [Option.eq_none_iff_forall_ne_some]
    exact forall_congr' fun other => not_congr Component.exported?_eq_some_iff
  rw [get?_ofComponents, List.findSome?_eq_some_iff]
  constructor
  · rintro ⟨after, c, before, hsplit, hvalue, hafter⟩
    refine ⟨before.reverse, c, after.reverse, ?_, Component.exported?_eq_some_iff.1 hvalue, ?_⟩
    · rw [← List.reverse_reverse components, hsplit, List.reverse_append, List.reverse_cons,
        List.append_assoc, List.singleton_append]
    · intro later hlater
      exact (hsilent later).1 (hafter later (List.mem_reverse.1 hlater))
  · rintro ⟨before, c, after, rfl, hoffers, hafter⟩
    refine ⟨after.reverse, c, before.reverse, ?_, Component.exported?_eq_some_iff.2 hoffers, ?_⟩
    · rw [List.reverse_append, List.reverse_cons, List.append_assoc, List.singleton_append]
    · intro later hlater
      exact (hsilent later).2 (hafter later (List.mem_reverse.1 hlater))

theorem mem_vars_iff :
    (name, value) ∈ (ofComponents components).vars ↔ LastOffered components name value := by
  rw [← get?_eq_some_iff, ← lookup_eq_some_iff_mem (sorted_ofComponents components).nodup_names]
  rfl

/-! ## The names of skipped components -/

theorem skipped_foldl_add (components : List Component) (env : TestEnvironment) :
    (components.foldl add env).skipped =
      env.skipped ++ (components.filter fun c => c.Unbound).map Component.name := by
  induction components generalizing env with
  | nil => exact (List.append_nil _).symm
  | cons c rest ih =>
    rw [List.foldl_cons, ih, skipped_add, List.append_assoc]
    by_cases hunbound : c.Unbound
    · rw [if_pos (Component.unbound_iff.1 hunbound),
        List.filter_cons_of_pos (by simpa using hunbound)]
      rfl
    · rw [if_neg (mt Component.unbound_iff.2 hunbound), List.nil_append,
        List.filter_cons_of_neg (by simpa using hunbound)]

/-! ## Changed values -/

/-- How often the values in a list change from one to the next. -/
def changes : List String → Nat
  | first :: second :: rest => (if first = second then 0 else 1) + changes (second :: rest)
  | _ => 0

theorem changes_toList (current : Option String) : changes current.toList = 0 := by
  cases current <;> rfl

/-- Changes are counted piece by piece, each piece starting from the value that is current then. -/
theorem changes_add_changes (current offered : Option String) (rest : List String) :
    changes (current.toList ++ offered.toList) + changes ((offered.or current).toList ++ rest) =
      changes (current.toList ++ (offered.toList ++ rest)) := by
  cases current <;> cases offered <;> simp [changes]

/-- The values that components offer for a variable (`Component.exported?_eq_some_iff`), one after the
other. -/
def offers (components : List Component) (name : String) : List String :=
  components.filterMap (·.exported? name)

theorem overwritten_assign (env : TestEnvironment) (var value : String) :
    (env.assign (var, value)).overwritten = env.overwritten ++
      List.replicate (changes ((env.vars.get? var).toList ++ [value])) var := by
  simp only [assign]
  cases env.vars.get? var with
  | none => simp [changes]
  | some previous => by_cases hsame : previous = value <;> simp [changes, hsame]

theorem count_overwritten_assignment (env : TestEnvironment) (var : String) (value : Option String)
    (name : String) :
    ((Binding.assignment var value).foldl assign env).overwritten.count name =
      env.overwritten.count name + changes ((env.vars.get? name).toList ++
        (if name = var then Binding.offered value else none).toList) := by
  have hnothing : changes ((env.vars.get? name).toList ++ (none : Option String).toList) = 0 := by
    rw [Option.toList_none, List.append_nil, changes_toList]
  cases hoffered : Binding.offered value with
  | none =>
    rw [ite_self, hnothing, Binding.assignment_of_offered_eq_none hoffered]
    rfl
  | some v =>
    rw [Binding.assignment_of_offered_eq_some hoffered, List.foldl_cons, List.foldl_nil,
      overwritten_assign, List.count_append, List.count_replicate]
    by_cases hsame : name = var
    · subst hsame
      rw [if_pos (beq_self_eq_true name), if_pos rfl]
      rfl
    · rw [if_neg (by simpa using Ne.symm hsame), if_neg hsame, hnothing]

/-- A component adds to the notes on a variable what it changes of its value. -/
theorem count_overwritten_assignments (env : TestEnvironment) {binding : Binding}
    (hvars : binding.vars.Nodup) (c : Component) (name : String) :
    ((binding.assignments c).foldl assign env).overwritten.count name =
      env.overwritten.count name +
        changes ((env.vars.get? name).toList ++ (binding.valueFor? c name).toList) := by
  cases binding with
  | ref var => exact count_overwritten_assignment env var (some c.ref) name
  | image address version =>
    have hne : address ≠ version := by simpa [Binding.vars] using hvars
    rw [Binding.assignments_image, List.foldl_append, count_overwritten_assignment,
      count_overwritten_assignment, get?_assignment, Nat.add_assoc, changes_add_changes,
      Binding.valueFor?]
    -- the two variables are different, so the component offers one value for a name at most
    by_cases hversion : name = version
    · subst hversion
      rw [if_neg (Ne.symm hne), Option.or_none]
      rfl
    · rw [if_neg hversion, Option.none_or, Option.toList_none, List.append_nil]

theorem count_overwritten_add (env : TestEnvironment) (c : Component) (name : String) :
    (env.add c).overwritten.count name = env.overwritten.count name +
      changes ((env.vars.get? name).toList ++ (c.exported? name).toList) := by
  rw [add, Component.exported?]
  cases hbound : Binding.of c with
  | none =>
    rw [Option.bind_none, Option.toList_none, List.append_nil, changes_toList]
    rfl
  | some binding =>
    obtain ⟨key, entry⟩ := Binding.exists_mem_table hbound
    exact count_overwritten_assignments env (Binding.nodup_vars _ entry) c name

theorem count_overwritten_foldl_add (components : List Component) (env : TestEnvironment)
    (name : String) :
    (components.foldl add env).overwritten.count name = env.overwritten.count name +
      changes ((env.vars.get? name).toList ++ offers components name) := by
  induction components generalizing env with
  | nil =>
    rw [offers, List.filterMap_nil, List.append_nil, changes_toList]
    rfl
  | cons c rest ih =>
    have hoffers : offers (c :: rest) name = (c.exported? name).toList ++ offers rest name := by
      rw [offers, List.filterMap_cons]
      cases c.exported? name <;> rfl
    rw [List.foldl_cons, ih, count_overwritten_add, get?_add, hoffers, Nat.add_assoc,
      changes_add_changes]

theorem count_overwritten (components : List Component) (name : String) :
    (ofComponents components).overwritten.count name = changes (offers components name) := by
  rw [ofComponents, count_overwritten_foldl_add]
  exact Nat.zero_add _

/-! ## All of an environment -/

/-- **What an environment says.** Let any list of components be given. The variables of its
environment are sorted, and they are those for which some component offers a value, each with the
value that was offered for it last. The skipped names are those of the components without an entry
in the table, in order and with repetitions. And a variable is noted as overwritten once for each
change in the values that were offered for it. -/
theorem holds_last_values (components : List Component) :
    (ofComponents components).vars.Sorted ∧
      (∀ name value, (name, value) ∈ (ofComponents components).vars ↔
        LastOffered components name value) ∧
      (ofComponents components).skipped =
        (components.filter fun c => c.Unbound).map Component.name ∧
      ∀ name, (ofComponents components).overwritten.count name =
        changes (offers components name) :=
  ⟨sorted_ofComponents components, fun _ _ => mem_vars_iff, skipped_foldl_add components empty,
    count_overwritten components⟩

end TestEnvironment

end ReleaseCandidates
