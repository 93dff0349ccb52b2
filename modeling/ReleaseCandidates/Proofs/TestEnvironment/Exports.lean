import ReleaseCandidates.TestEnvironment

set_option autoImplicit false

/-! # What components export

A component offers a variable one value at most (`Component.exported?`), and a list of components
gives it the value that was offered for it last (`TestEnvironment.get?_ofComponents`). The table
binds no variable twice, so what is offered for a variable of an entry comes from components that
are bound to this entry. -/

namespace ReleaseCandidates

/-! ## One component -/

namespace Binding

/-- A value that is there and not empty. -/
def offered (value : Option String) : Option String :=
  value.filter fun v => !v.isEmpty

theorem offered_eq_some {value : Option String} {v : String} :
    offered value = some v ↔ value = some v ∧ v.isEmpty = false := by
  rw [offered, Option.filter_eq_some_iff, Bool.not_eq_true']

/-- The assignment of a value to a variable, if the value is there and not empty. -/
def assignment (name : String) (value : Option String) : List (String × String) :=
  match value with
  | some v => if v.isEmpty then [] else [(name, v)]
  | none => []

theorem assignments_ref (name : String) (c : Component) :
    (Binding.ref name).assignments c = assignment name (some c.ref) :=
  rfl

theorem assignments_image (address version : String) (c : Component) :
    (Binding.image address version).assignments c =
      assignment address c.imageUrl ++ assignment version c.imageDigest :=
  rfl

/-- The value that a component offers for a variable under a binding. -/
def valueFor? : Binding → Component → String → Option String
  | .ref var, c, name => if name = var then offered (some c.ref) else none
  | .image address version, c, name =>
    (if name = version then offered c.imageDigest else none).or
      (if name = address then offered c.imageUrl else none)

end Binding

/-- The value that a component offers for a variable. -/
def Component.exported? (c : Component) (name : String) : Option String :=
  (Binding.of c).bind fun binding => binding.valueFor? c name

namespace TestEnvironment

theorem get?_assign (env : TestEnvironment) (name value other : String) :
    (env.assign (name, value)).vars.get? other =
      if other = name then some value else env.vars.get? other := by
  by_cases h : other = name
  · rw [if_pos h, h]
    exact Variables.get?_set_self name value env.vars
  · rw [if_neg h]
    exact Variables.get?_set_of_ne h value env.vars

theorem get?_assignment (env : TestEnvironment) (name : String) (value : Option String)
    (other : String) :
    ((Binding.assignment name value).foldl assign env).vars.get? other =
      (if other = name then Binding.offered value else none).or (env.vars.get? other) := by
  cases value with
  | none => simp [Binding.assignment, Binding.offered]
  | some v =>
    by_cases hempty : v.isEmpty = true
    · simp [Binding.assignment, Binding.offered, Option.filter_some, hempty]
    · have hoffered : Binding.offered (some v) = some v :=
        Binding.offered_eq_some.2 ⟨rfl, eq_false_of_ne_true hempty⟩
      rw [Binding.assignment, if_neg hempty, List.foldl_cons, List.foldl_nil, get?_assign, hoffered]
      split <;> rfl

theorem get?_assignments (env : TestEnvironment) (binding : Binding) (c : Component)
    (name : String) :
    ((binding.assignments c).foldl assign env).vars.get? name =
      (binding.valueFor? c name).or (env.vars.get? name) := by
  cases binding with
  | ref var => rw [Binding.assignments_ref, get?_assignment, Binding.valueFor?]
  | image address version =>
    rw [Binding.assignments_image, List.foldl_append, get?_assignment, get?_assignment,
      Binding.valueFor?, Option.or_assoc]

theorem get?_add (env : TestEnvironment) (c : Component) (name : String) :
    (env.add c).vars.get? name = (c.exported? name).or (env.vars.get? name) := by
  rw [add, Component.exported?]
  cases Binding.of c with
  | none => rfl
  | some binding => exact get?_assignments env binding c name

theorem get?_foldl_add (components : List Component) (env : TestEnvironment) (name : String) :
    (components.foldl add env).vars.get? name =
      (components.reverse.findSome? (·.exported? name)).or (env.vars.get? name) := by
  induction components generalizing env with
  | nil => rfl
  | cons c rest ih =>
    rw [List.foldl_cons, ih, get?_add, List.reverse_cons, List.findSome?_append, Option.or_assoc,
      List.findSome?_cons]
    cases c.exported? name <;> rfl

/-- A variable has the value that was offered for it last. -/
theorem get?_ofComponents (components : List Component) (name : String) :
    (ofComponents components).vars.get? name =
      components.reverse.findSome? (·.exported? name) := by
  rw [ofComponents, get?_foldl_add]
  exact Option.or_none

end TestEnvironment

/-! ## The variables of the table -/

namespace Binding

/-- The variables of a binding. -/
def vars : Binding → List String
  | .ref name => [name]
  | .image address version => [address, version]

theorem valueFor?_eq_none {binding : Binding} {name : String} (h : name ∉ binding.vars)
    (c : Component) : binding.valueFor? c name = none := by
  cases binding with
  | ref var => simp_all [vars, valueFor?]
  | image address version => simp_all [vars, valueFor?]

theorem exists_mem_table {c : Component} {binding : Binding} (h : of c = some binding) :
    ∃ key, (key, binding) ∈ table := by
  have hlookup : ∀ {key : String}, lookup key = some binding → ∃ key, (key, binding) ∈ table := by
    intro key hkey
    obtain ⟨before, after, heq, -⟩ := List.lookup_eq_some_iff.1 hkey
    exact ⟨key, heq ▸ List.mem_append_right before List.mem_cons_self⟩
  rw [of, Option.orElse_eq_or, Option.or_eq_some_iff] at h
  rcases h with hname | ⟨-, hbase⟩
  · exact hlookup hname
  · obtain ⟨base, -, hkey⟩ := Option.bind_eq_some_iff.1 hbase
    exact hlookup hkey

/-- No variable is bound twice in the table. -/
theorem eq_of_mem_vars : ∀ entry ∈ table, ∀ entry' ∈ table, ∀ name ∈ entry.2.vars,
    name ∈ entry'.2.vars → entry.2 = entry'.2 := by
  decide

theorem nodup_vars : ∀ entry ∈ table, entry.2.vars.Nodup := by
  decide

section Entry

variable {key : String}

/-- Only components that are bound to an entry of the table offer values for its variables. -/
theorem exported?_of_mem_vars {binding : Binding} (entry : (key, binding) ∈ table) {name : String}
    (hname : name ∈ binding.vars) (c : Component) :
    c.exported? name = if of c = some binding then binding.valueFor? c name else none := by
  rw [Component.exported?]
  split
  · rename_i hbound
    rw [hbound, Option.bind_some]
  · rename_i hbound
    cases hof : of c with
    | none => rfl
    | some other =>
      rw [Option.bind_some]
      refine valueFor?_eq_none (fun hmem => hbound ?_) c
      obtain ⟨key', entry'⟩ := exists_mem_table hof
      exact hof.trans (congrArg some (eq_of_mem_vars _ entry' _ entry name hmem hname))

variable {address version : String}

theorem exported?_address (entry : (key, .image address version) ∈ table) (c : Component) :
    c.exported? address =
      if of c = some (.image address version) then offered c.imageUrl else none := by
  have hne : address ≠ version := by simpa [vars] using nodup_vars _ entry
  rw [exported?_of_mem_vars entry List.mem_cons_self, valueFor?, if_neg hne, if_pos rfl,
    Option.none_or]

theorem exported?_version (entry : (key, .image address version) ∈ table) (c : Component) :
    c.exported? version =
      if of c = some (.image address version) then offered c.imageDigest else none := by
  have hne : version ≠ address := by simpa [vars, eq_comm] using nodup_vars _ entry
  rw [exported?_of_mem_vars entry (List.mem_cons_of_mem _ List.mem_cons_self), valueFor?,
    if_pos rfl, if_neg hne, Option.or_none]

end Entry

end Binding

end ReleaseCandidates
