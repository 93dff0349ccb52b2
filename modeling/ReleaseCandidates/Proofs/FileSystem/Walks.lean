import ReleaseCandidates.FileSystem

set_option autoImplicit false

/-! # Walks along a path

A walk goes from name to name, through directories only; a link sends it on elsewhere. What one name
can do is said here once, by the constructors of `LeadsTo`. A walk succeeds exactly if it is made of
such steps (`walkWith_eq_ok_iff`), so a fact about walks takes one case for each of them. -/

namespace ReleaseCandidates.FileSystem

variable {fs : FileSystem} {l here k : Location} {through : Bool} {name : String}
  {rest steps : List String}
  {jump : Location → String → List String → Except OsError Location}

/-! ## Places for files -/

/-- Nothing stands at the location but, maybe, a file. -/
def HoldsFileAtMost (fs : FileSystem) (l : Location) : Prop :=
  ∀ e, fs.entryAt l = some e → ∃ content, e = .file content

namespace HoldsFileAtMost

theorem ne_of_directory (h : fs.HoldsFileAtMost l) (hk : fs.entryAt k = some .directory) :
    k ≠ l := by
  rintro rfl
  obtain ⟨content, hc⟩ := h _ hk
  cases hc

theorem ne_of_link {target : String} (h : fs.HoldsFileAtMost l)
    (hk : fs.entryAt k = some (.link target)) : k ≠ l := by
  rintro rfl
  obtain ⟨content, hc⟩ := h _ hk
  cases hc

theorem ne_nil (h : fs.HoldsFileAtMost l) : l ≠ [] :=
  (h.ne_of_directory rfl).symm

theorem of_none (h : fs.entryAt l = none) : fs.HoldsFileAtMost l := by
  intro e he
  rw [h] at he
  cases he

theorem of_file {content : FileContent} (h : fs.entryAt l = some (.file content)) :
    fs.HoldsFileAtMost l := by
  intro e he
  rw [h] at he
  exact ⟨content, (Option.some.inj he).symm⟩

end HoldsFileAtMost

/-! ## Steps -/

/-- A name that stands for an entry of a directory. -/
structure IsProper (name : String) : Prop where
  not_idle : ¬ (name = "" ∨ name = ".")
  not_up : name ≠ ".."
  fits : ¬ name.utf8ByteSize > maxNameLength

/-- How names lead from one location to another. They go through directories, and end at one, or
where a file stands or could be made, or at a link that is not looked through. -/
inductive LeadsTo (fs : FileSystem) (through : Bool)
    (jump : Location → String → List String → Except OsError Location) :
    Location → List String → Location → Prop where
  | stay (here : Location) : LeadsTo fs through jump here [] here
  | idle {here k : Location} {name : String} {rest : List String}
      (hhere : fs.entryAt here = some .directory) (hname : name = "" ∨ name = ".")
      (hrest : LeadsTo fs through jump here rest k) : LeadsTo fs through jump here (name :: rest) k
  | up {here k : Location} {rest : List String} (hhere : fs.entryAt here = some .directory)
      (hrest : LeadsTo fs through jump here.dropLast rest k) :
      LeadsTo fs through jump here (".." :: rest) k
  | enter {here k : Location} {name : String} {rest : List String}
      (hhere : fs.entryAt here = some .directory) (hname : IsProper name)
      (hnext : fs.entryAt (here ++ [name]) = some .directory)
      (hrest : LeadsTo fs through jump (here ++ [name]) rest k) :
      LeadsTo fs through jump here (name :: rest) k
  | arrive {here : Location} {name : String} (hhere : fs.entryAt here = some .directory)
      (hname : IsProper name) (hlast : fs.HoldsFileAtMost (here ++ [name])) :
      LeadsTo fs through jump here [name] (here ++ [name])
  | link {here : Location} {name target : String} (hhere : fs.entryAt here = some .directory)
      (hname : IsProper name) (hlast : fs.entryAt (here ++ [name]) = some (.link target))
      (hstop : through = false) : LeadsTo fs through jump here [name] (here ++ [name])
  | follow {here k : Location} {name target : String} {rest : List String}
      (hhere : fs.entryAt here = some .directory) (hname : IsProper name)
      (hnext : fs.entryAt (here ++ [name]) = some (.link target))
      (hgoes : rest ≠ [] ∨ through = true) (hjump : jump here target rest = .ok k) :
      LeadsTo fs through jump here (name :: rest) k

/-- Nobody goes on from what is no directory. -/
theorem directory_of_walkWith (hw : walkWith jump fs through here (name :: rest) = .ok k) :
    fs.entryAt here = some .directory := by
  simp only [walkWith] at hw
  split at hw
  · cases hw
  · cases hw
  · cases hw
  · assumption

theorem leadsTo_of_walkWith (hw : walkWith jump fs through here steps = .ok k) :
    LeadsTo fs through jump here steps k := by
  induction steps generalizing here with
  | nil =>
    obtain rfl : here = k := Except.ok.inj hw
    exact .stay here
  | cons name rest ih =>
    have hhere := directory_of_walkWith hw
    simp only [walkWith, hhere] at hw
    by_cases hidle : name = "" ∨ name = "."
    · rw [if_pos hidle] at hw
      exact .idle hhere hidle (ih hw)
    rw [if_neg hidle] at hw
    by_cases hup : name = ".."
    · rw [if_pos hup] at hw
      subst hup
      exact .up hhere (ih hw)
    rw [if_neg hup] at hw
    by_cases hlong : name.utf8ByteSize > maxNameLength
    · rw [if_pos hlong] at hw
      cases hw
    rw [if_neg hlong] at hw
    have hname : IsProper name := ⟨hidle, hup, hlong⟩
    cases hnext : fs.entryAt (here ++ [name]) with
    | none =>
      rw [hnext] at hw
      cases rest with
      | nil =>
        obtain rfl := Except.ok.inj hw
        exact .arrive hhere hname (.of_none hnext)
      | cons next rest => cases hw
    | some entry =>
      rw [hnext] at hw
      cases entry with
      | file content =>
        cases rest with
        | nil =>
          obtain rfl := Except.ok.inj hw
          exact .arrive hhere hname (.of_file hnext)
        | cons next rest =>
          have hdirectory := directory_of_walkWith hw
          rw [hnext] at hdirectory
          cases hdirectory
      | directory => exact .enter hhere hname hnext (ih hw)
      | link target =>
        dsimp only at hw
        split at hw
        · rename_i hstop
          obtain ⟨hrest, hthrough⟩ := Bool.and_eq_true_iff.1 hstop
          obtain rfl := List.isEmpty_iff.1 hrest
          obtain rfl := Except.ok.inj hw
          exact .link hhere hname hnext (by simpa using hthrough)
        · rename_i hgoes
          refine .follow hhere hname hnext ?_ hw
          cases rest with
          | nil => exact .inr (by simpa using hgoes)
          | cons next rest => exact .inl (List.cons_ne_nil next rest)

theorem LeadsTo.walkWith (h : LeadsTo fs through jump here steps k) :
    FileSystem.walkWith jump fs through here steps = .ok k := by
  induction h with
  | stay here => rfl
  | idle hhere hname _ ih =>
    simp only [FileSystem.walkWith, hhere, if_pos hname]
    exact ih
  | up hhere _ ih =>
    have hidle : ¬ (".." = "" ∨ ".." = ".") := by decide
    simp only [FileSystem.walkWith, hhere, if_neg hidle]
    exact ih
  | enter hhere hname hnext _ ih =>
    simp only [FileSystem.walkWith, hhere, if_neg hname.not_idle, if_neg hname.not_up,
      if_neg hname.fits, hnext]
    exact ih
  | @arrive here name hhere hname hlast =>
    simp only [FileSystem.walkWith, hhere, if_neg hname.not_idle, if_neg hname.not_up,
      if_neg hname.fits]
    cases hentry : fs.entryAt (here ++ [name]) with
    | none => rfl
    | some e =>
      obtain ⟨content, rfl⟩ := hlast e hentry
      rfl
  | link hhere hname hlast hstop =>
    simp only [FileSystem.walkWith, hhere, if_neg hname.not_idle, if_neg hname.not_up,
      if_neg hname.fits, hlast, hstop]
    rfl
  | @follow here k name target rest hhere hname hnext hgoes hjump =>
    have hgo : (rest.isEmpty && !through) = false := by
      rcases hgoes with hrest | hthrough
      · simp [hrest]
      · simp [hthrough]
    simp only [FileSystem.walkWith, hhere, if_neg hname.not_idle, if_neg hname.not_up,
      if_neg hname.fits, hnext, hgo]
    exact hjump

theorem walkWith_eq_ok_iff :
    walkWith jump fs through here steps = .ok k ↔ LeadsTo fs through jump here steps k :=
  ⟨leadsTo_of_walkWith, LeadsTo.walkWith⟩

/-! ## What a walk finds -/

theorem lookAt_eq_ok_iff {path : String} {entry : FileEntry} :
    fs.lookAt through path = .ok entry ↔
      ∃ k, fs.walk through path = .ok k ∧ fs.entryAt k = some entry := by
  unfold lookAt
  constructor
  · intro h
    split at h
    · cases h
    · rename_i k hw
      split at h
      · cases h
      · rename_i found hfound
        exact ⟨k, hw, hfound.trans (congrArg some (Except.ok.inj h))⟩
  · rintro ⟨k, hw, hentry⟩
    simp only [hw, hentry]

theorem isDirectory_iff {path : String} :
    fs.isDirectory path = true ↔
      ∃ k, fs.walk true path = .ok k ∧ fs.entryAt k = some .directory := by
  rw [← lookAt_eq_ok_iff, isDirectory, follow]
  constructor
  · intro h
    split at h
    · assumption
    · cases h
  · intro h
    rw [h]

end ReleaseCandidates.FileSystem
