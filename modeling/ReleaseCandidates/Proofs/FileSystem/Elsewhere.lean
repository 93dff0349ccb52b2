import Mathlib.Logic.Relation
import ReleaseCandidates.FileSystem.Arrange
import ReleaseCandidates.Proofs.FileSystem.Replaced

set_option autoImplicit false

/-! # What is done elsewhere leaves a file alone

Tests write reports, and make directories and links for them. Each such operation changes one
location that held no directory and no link, and no walk goes through such a location. So a file at
another location stays what its path names, and can be replaced as before.

Removing is of this kind for files alone: a path may lead through a link, and `a/../log` leads
through `a` even if that directory is empty.

Main statement: `Stands.of_steps`. -/

namespace ReleaseCandidates.FileSystem

variable {fs fs' : FileSystem} {l t here : Location} {path : String} {content : FileContent}

/-! ## Where links end -/

/-- There are directories all the way from the root to a location. -/
def Grounded (fs : FileSystem) (l : Location) : Prop :=
  ∀ k, k <+: l → fs.entryAt k = some .directory

theorem grounded_nil (fs : FileSystem) : fs.Grounded [] := by
  intro k hk
  obtain rfl := List.prefix_nil.1 hk
  rfl

namespace Grounded

theorem append {name : String} (h : fs.Grounded here)
    (hname : fs.entryAt (here ++ [name]) = some .directory) : fs.Grounded (here ++ [name]) := by
  intro k hk
  rcases List.prefix_concat_iff.1 hk with rfl | hk
  · exact hname
  · exact h k hk

theorem dropLast (h : fs.Grounded here) : fs.Grounded here.dropLast :=
  fun k hk => h k (hk.trans (List.dropLast_prefix here))

theorem origin (h : fs.Grounded here) (path : String) :
    fs.Grounded (FileSystem.origin here path) := by
  unfold FileSystem.origin
  split
  · exact grounded_nil fs
  · exact h

/-- A walk that looks through links at its end, too, does not end at a link. -/
theorem not_link_of_leadsTo {k : Location} {steps : List String}
    {jump : Location → String → List String → Except OsError Location}
    (hjump : ∀ here target rest, fs.Grounded here → jump here target rest = .ok k →
      ∀ target, fs.entryAt k ≠ some (.link target))
    (h : fs.Grounded here) (hw : fs.LeadsTo true jump here steps k) :
    ∀ target, fs.entryAt k ≠ some (.link target) := by
  induction hw with
  | stay here =>
    intro target
    rw [h here List.prefix_rfl]
    simp
  | idle _ _ _ ih => exact ih hjump h
  | up _ _ ih => exact ih hjump h.dropLast
  | enter _ _ hnext _ ih => exact ih hjump (h.append hnext)
  | arrive _ _ hlast => exact fun _ hlink => hlast.ne_of_link hlink rfl
  | link _ _ _ hstop => cases hstop
  | follow _ _ _ _ hj => exact hjump _ _ _ h hj

theorem not_link_of_walkFrom {k : Location} {links : Nat} {steps : List String}
    (h : fs.Grounded here) (hw : fs.walkFrom true links here steps = .ok k) :
    ∀ target, fs.entryAt k ≠ some (.link target) := by
  induction links generalizing here steps with
  | zero =>
    refine h.not_link_of_leadsTo ?_ (leadsTo_of_walkWith hw)
    intro here target rest _ hj
    cases hj
  | succ links ih =>
    refine h.not_link_of_leadsTo ?_ (leadsTo_of_walkWith hw)
    intro here target rest hhere hj
    exact ih (hhere.origin target) hj

theorem not_link_of_walk {k : Location} (h : fs.Grounded fs.workingDirectory)
    (hw : fs.walk true path = .ok k) : ∀ target, fs.entryAt k ≠ some (.link target) := by
  unfold walk at hw
  split at hw
  · cases hw
  · exact (h.origin path).not_link_of_walkFrom hw

theorem of_changedAt (h : fs.Grounded fs.workingDirectory) (hchanged : fs.ChangedAt t fs') :
    fs'.Grounded fs'.workingDirectory := by
  rw [hchanged.workingDirectory]
  exact fun k hk => hchanged.directory (h k hk)

end Grounded

/-! ## One change -/

/-- A path that names nothing leads to a location where nothing stands. -/
theorem entryAt_of_notFound (h : fs.inspect path = .error .notFound)
    (hw : fs.walk false path = .ok t) : fs.entryAt t = none := by
  rw [inspect, lookAt, hw] at h
  cases hentry : fs.entryAt t with
  | none => rfl
  | some entry => simp [hentry] at h

theorem makeDirectory_eq_some (h : fs.makeDirectory path = some fs') :
    fs' = fs ∨ ∃ t, fs.entryAt t = none ∧ fs' = fs.put t .directory := by
  unfold makeDirectory at h
  split at h
  · exact .inl (Option.some.inj h).symm
  · split at h
    · rename_i t hfound hw
      exact .inr ⟨t, entryAt_of_notFound hfound hw, (Option.some.inj h).symm⟩
    · cases h

theorem makeLink_eq_some {target : String} (h : fs.makeLink path target = some fs') :
    ∃ t, fs.entryAt t = none ∧ fs' = fs.put t (.link target) := by
  unfold makeLink at h
  split at h
  · rename_i t hfound hw
    split at h
    · cases h
    · exact ⟨t, entryAt_of_notFound hfound hw, (Option.some.inj h).symm⟩
  · cases h

theorem write_eq_some (hgrounded : fs.Grounded fs.workingDirectory)
    (h : fs.write path content = some fs') :
    ∃ t, fs.walk true path = .ok t ∧ fs.HoldsFileAtMost t ∧ fs' = fs.put t (.file content) := by
  unfold write at h
  split at h
  · cases h
  · rename_i t hw
    split at h
    · cases h
    · rename_i hnot
      refine ⟨t, hw, fun entry hentry => ?_, (Option.some.inj h).symm⟩
      cases entry with
      | file old => exact ⟨old, rfl⟩
      | directory => exact absurd hentry hnot
      | link target => exact absurd hentry (hgrounded.not_link_of_walk hw target)

theorem remove_file_eq_some (hfile : fs.inspect path = .ok (.file content))
    (h : fs.remove path = some fs') :
    ∃ t, fs.walk false path = .ok t ∧ fs.HoldsFileAtMost t ∧ fs' = fs.erase t := by
  obtain ⟨t, hw, hentry⟩ := lookAt_eq_ok_iff.1 hfile
  simp only [remove, hfile, hw] at h
  exact ⟨t, hw, .of_file hentry, (Option.some.inj h).symm⟩

theorem lookup_filter_of_ne {k : Location} (h : k ≠ l) (es : List (Location × FileEntry)) :
    (es.filter fun entry => entry.1 != l).lookup k = es.lookup k := by
  induction es with
  | nil => rfl
  | cons first rest ih =>
    obtain ⟨place, entry⟩ := first
    by_cases hplace : place = l
    · have hk : (k == place) = false := by simpa [hplace] using h
      rw [List.filter_cons_of_neg (by simpa using hplace), ih, List.lookup_cons, hk]
    · rw [List.filter_cons_of_pos (by simpa using hplace), List.lookup_cons, List.lookup_cons, ih]

/-- Erasing an entry leaves every other location alone. -/
theorem entryAt_erase_of_ne {k : Location} (h : k ≠ l) (fs : FileSystem) :
    (fs.erase l).entryAt k = fs.entryAt k := by
  unfold entryAt erase
  rw [lookup_filter_of_ne h]

theorem changedAt_erase (h : fs.HoldsFileAtMost l) : fs.ChangedAt l (fs.erase l) where
  file := h
  elsewhere := fun _ hk => entryAt_erase_of_ne hk fs
  workingDirectory := rfl

/-! ## A file that stays -/

/-- A file with the content stands at the location that its path is for, and it can be replaced. -/
structure Stands (fs : FileSystem) (path : String) (l : Location) (content : FileContent) :
    Prop where
  replaces : fs.Replaces path l
  entry : fs.entryAt l = some (.file content)
  grounded : fs.Grounded fs.workingDirectory

/-- One operation on the files that does not touch the file at a location. -/
inductive Beside (l : Location) (fs fs' : FileSystem) : Prop where
  | directory {path : String} (made : fs.makeDirectory path = some fs')
  | link {path target : String} (made : fs.makeLink path target = some fs')
  | file {path : String} {content : FileContent} (written : fs.write path content = some fs')
      (elsewhere : fs.walk true path ≠ .ok l)
  | removal {path : String} {content : FileContent}
      (was : fs.inspect path = .ok (.file content)) (removed : fs.remove path = some fs')
      (elsewhere : fs.walk false path ≠ .ok l)

namespace Stands

theorem inspect_eq (h : fs.Stands path l content) : fs.inspect path = .ok (.file content) := by
  rw [h.replaces.inspect_eq, h.entry]
  rfl

theorem canReplace (h : fs.Stands path l content) : fs.CanReplace path :=
  canReplace_iff.2 ⟨l, h.replaces⟩

theorem of_changedAt (h : fs.Stands path l content) (hchanged : fs.ChangedAt t fs') (hne : l ≠ t) :
    fs'.Stands path l content where
  replaces :=
    { inDirectory := hchanged.isDirectory h.replaces.inDirectory
      notLink := by
        intro target hlink
        obtain ⟨hwalk, -, -⟩ := renameTarget_eq_ok h.replaces.reached
        obtain ⟨k, hk, hentry⟩ := lookAt_eq_ok_iff.1 hlink
        obtain rfl : l = k := Except.ok.inj ((hchanged.walk (.inl hne) hwalk).symm.trans hk)
        rw [hchanged.elsewhere l hne, h.entry] at hentry
        cases hentry
      reached := hchanged.renameTarget (.inl hne) h.replaces.reached }
  entry := by rw [hchanged.elsewhere l hne, h.entry]
  grounded := h.grounded.of_changedAt hchanged

/-- The file does not stand where nothing does. -/
theorem ne_of_none (h : fs.Stands path l content) (ht : fs.entryAt t = none) : l ≠ t := by
  rintro rfl
  rw [h.entry] at ht
  cases ht

/-- A file stays where it is through one operation beside it. -/
theorem of_beside (h : fs.Stands path l content) (hstep : Beside l fs fs') :
    fs'.Stands path l content := by
  cases hstep with
  | directory made =>
    rcases makeDirectory_eq_some made with rfl | ⟨t, hnone, rfl⟩
    · exact h
    · exact h.of_changedAt (changedAt_put (.of_none hnone) _) (h.ne_of_none hnone)
  | link made =>
    obtain ⟨t, hnone, rfl⟩ := makeLink_eq_some made
    exact h.of_changedAt (changedAt_put (.of_none hnone) _) (h.ne_of_none hnone)
  | file written elsewhere =>
    obtain ⟨t, hw, hfile, rfl⟩ := write_eq_some h.grounded written
    refine h.of_changedAt (changedAt_put hfile _) ?_
    rintro rfl
    exact elsewhere hw
  | removal was removed elsewhere =>
    obtain ⟨t, hw, hfile, rfl⟩ := remove_file_eq_some was removed
    refine h.of_changedAt (changedAt_erase hfile) ?_
    rintro rfl
    exact elsewhere hw

/-- **What is done elsewhere leaves a file alone.** Through any number of operations beside it a
file that can be replaced stays where it is: its path names it with its content, and it can be
replaced. -/
theorem of_steps (h : fs.Stands path l content) (hsteps : Relation.ReflTransGen (Beside l) fs fs') :
    fs'.Stands path l content := by
  induction hsteps with
  | refl => exact h
  | tail _ hstep ih => exact ih.of_beside hstep

end Stands

/-! ## A report below directories of its own -/

theorem steps_of_foldlM_makeDirectory (l : Location) {paths : List String}
    (h : paths.foldlM makeDirectory fs = some fs') : Relation.ReflTransGen (Beside l) fs fs' := by
  induction paths generalizing fs with
  | nil =>
    obtain rfl : fs = fs' := Option.some.inj h
    exact .refl
  | cons path rest ih =>
    rw [List.foldlM_cons, Option.bind_eq_bind, Option.bind_eq_some_iff] at h
    obtain ⟨made, hmade, hrest⟩ := h
    exact (ih hrest).head (.directory hmade)

theorem steps_of_makeDirectories (l : Location) (h : fs.makeDirectories path = some fs') :
    Relation.ReflTransGen (Beside l) fs fs' :=
  steps_of_foldlM_makeDirectory l h

/-- A file stays where it is if another is written, together with the directories above it. -/
theorem Stands.of_writeBelow {report : String} {words : FileContent}
    (h : fs.Stands path l content) (hwritten : fs.writeBelow report words = some fs')
    (helsewhere : fs'.walk true report ≠ .ok l) : fs'.Stands path l content := by
  unfold writeBelow at hwritten
  split at hwritten
  · obtain ⟨made, hmade, hwritten⟩ := Option.bind_eq_some_iff.1 hwritten
    have hmiddle := h.of_steps (steps_of_makeDirectories l hmade)
    refine hmiddle.of_beside (.file hwritten fun hw => helsewhere ?_)
    -- the report is still found where it was written
    obtain ⟨t, ht, hfile, rfl⟩ := write_eq_some hmiddle.grounded hwritten
    obtain rfl : t = l := Except.ok.inj (ht.symm.trans hw)
    exact (changedAt_put hfile _).walk (.inr (holdsFileAtMost_put hfile _)) ht
  · cases hwritten

end ReleaseCandidates.FileSystem
