import ReleaseCandidates.FileSystem.Stepwise
import ReleaseCandidates.Proofs.FileSystem.Replaced

set_option autoImplicit false

/-! # A file is replaced or nothing is changed

Between the old file and the new one there is a temporary file, and each of the steps may be
refused. Up to the renaming nothing but this file is added to the file system, at a location where
there was nothing before (`KeepsTo`, `FailsClean`); so what is left once it is removed is the file
system from before (`erase_put`). The renaming itself takes the file away from its location, so it
too leaves nothing of it.

Where no step is refused by the system, the steps succeed just when `replaceFile` does, and give the
same file system (`replaceBySteps_eq_ok_iff`).

Main statement: `replaced_or_untouched`. -/

namespace ReleaseCandidates.FileSystem

variable {fs fs' : FileSystem} {c : Conduct} {temp l : Location} {path content : String}

/-! ## Entries that are put and erased -/

theorem setEntry_setEntry (l : Location) (e e' : FileEntry) (es : List (Location × FileEntry)) :
    setEntry l e' (setEntry l e es) = setEntry l e' es := by
  induction es with
  | nil => simp [setEntry]
  | cons first rest ih =>
    obtain ⟨k, old⟩ := first
    by_cases hk : l = k
    · simp [setEntry, hk]
    · simp [setEntry, hk, ih]

/-- Of two entries put at one location the second stays. -/
theorem put_put (fs : FileSystem) (l : Location) (e e' : FileEntry) :
    (fs.put l e).put l e' = fs.put l e' := by
  rw [put, put, put, setEntry_setEntry]

theorem filter_setEntry {es : List (Location × FileEntry)} (h : es.lookup l = none)
    (e : FileEntry) : ((setEntry l e es).filter fun entry => entry.1 != l) = es := by
  induction es with
  | nil => simp [setEntry]
  | cons first rest ih =>
    obtain ⟨k, old⟩ := first
    by_cases hk : l = k
    · simp [hk] at h
    · have hrest : rest.lookup l = none := by
        simpa [List.lookup_cons, beq_eq_false_iff_ne.2 hk] using h
      rw [setEntry, if_neg hk, List.filter_cons_of_pos (by simpa using Ne.symm hk), ih hrest]

/-- Nothing is left of an entry that was put where nothing was. -/
theorem erase_put (h : fs.entryAt l = none) (e : FileEntry) : (fs.put l e).erase l = fs := by
  have hfree : fs.entries.lookup l = none := by
    rw [entryAt] at h
    split at h
    · cases h
    · exact h
  rw [erase, put, filter_setEntry hfree]

/-! ## The temporary file -/

/-- There is nothing at the location that is drawn. -/
theorem entryAt_of_drawLocation {directory : Location} {exhausted : OsError}
    {draws : List (String × Option OsError)}
    (h : fs.drawLocation directory exhausted draws = .ok temp) : fs.entryAt temp = none := by
  induction draws with
  | nil => cases h
  | cons draw draws ih =>
    obtain ⟨name, refusal⟩ := draw
    simp only [drawLocation] at h
    split at h
    · exact ih h
    · cases h
    · rename_i hfree
      cases h
      exact hfree

theorem entryAt_of_temporary (h : fs.temporary c path = .ok temp) : fs.entryAt temp = none := by
  rw [temporary] at h
  split at h
  · cases h
  · exact entryAt_of_drawLocation h

/-! ## What steps leave behind -/

/-- A step that finds nothing more than a temporary file leaves nothing more, refused or not. -/
def KeepsTo (fs : FileSystem) (temp : Location) (step : Step) : Prop :=
  ∀ before, ∃ after, (step (fs.put temp (.file before))).2 = fs.put temp (.file after)

/-- A step that finds nothing more than a temporary file leaves nothing more if it is refused. -/
def FailsClean (fs : FileSystem) (temp : Location) (step : Step) : Prop :=
  ∀ before problem fs', step (fs.put temp (.file before)) = (.error problem, fs') →
    ∃ after, fs' = fs.put temp (.file after)

theorem keepsTo_fill (fs : FileSystem) (c : Conduct) (temp : Location) (content : String) :
    KeepsTo fs temp (fill c temp content) := by
  intro before
  rw [fill]
  split
  · rename_i left error _
    exact ⟨left, put_put fs temp _ _⟩
  · exact ⟨.text content, put_put fs temp _ _⟩

theorem keepsTo_flush (fs : FileSystem) (c : Conduct) (temp : Location) :
    KeepsTo fs temp (flush c) := by
  intro before
  rw [flush]
  split <;> exact ⟨before, rfl⟩

theorem failsClean_renameOver (fs : FileSystem) (c : Conduct) (temp : Location) (path : String) :
    FailsClean fs temp (renameOver c temp path) := by
  intro before problem fs' h
  rw [renameOver] at h
  split at h
  · cases h
    exact ⟨before, rfl⟩
  · split at h
    · cases h
      exact ⟨before, rfl⟩
    · cases h

theorem FailsClean.andThen {first second : Step} (hfirst : KeepsTo fs temp first)
    (hsecond : FailsClean fs temp second) : FailsClean fs temp (first.andThen second) := by
  intro before problem fs' h
  obtain ⟨after, hafter⟩ := hfirst before
  rw [Step.andThen] at h
  split at h
  · rename_i problem' left hleft
    rw [hleft] at hafter
    cases h
    exact ⟨after, hafter⟩
  · rename_i left hleft
    rw [hleft] at hafter
    obtain rfl : left = fs.put temp (.file after) := hafter
    exact hsecond after problem fs' h

theorem failsClean_replaceThrough (fs : FileSystem) (c : Conduct) (temp : Location)
    (path content : String) : FailsClean fs temp (replaceThrough c temp path content) :=
  .andThen (keepsTo_fill fs c temp content)
    (.andThen (keepsTo_flush fs c temp) (failsClean_renameOver fs c temp path))

/-- Where a step fails clean, removing the temporary file restores the file system. -/
theorem FailsClean.orRemove {step : Step} (hclean : FailsClean fs temp step)
    (hfree : fs.entryAt temp = none) {before : FileContent} {problem : WriteProblem}
    (h : step.orRemove temp (fs.put temp (.file before)) = (.error problem, fs')) : fs' = fs := by
  rw [Step.orRemove] at h
  split at h
  · rename_i problem' left hleft
    obtain ⟨after, rfl⟩ := hclean before problem' left hleft
    cases h
    exact erase_put hfree _
  · cases h

/-! ## Steps that succeed -/

theorem andThen_eq_ok_iff {first second : Step} :
    first.andThen second fs = (.ok (), fs') ↔
      ∃ between, first fs = (.ok (), between) ∧ second between = (.ok (), fs') := by
  rw [Step.andThen]
  cases first fs with
  | mk result between => cases result <;> simp

theorem orRemove_eq_ok_iff {step : Step} :
    step.orRemove temp fs = (.ok (), fs') ↔ step fs = (.ok (), fs') := by
  rw [Step.orRemove]
  cases step fs with
  | mk result left => cases result <;> simp

theorem fill_eq_ok_iff : fill c temp content fs = (.ok (), fs') ↔
    c.fillRefusal = none ∧ fs' = fs.put temp (.file (.text content)) := by
  rw [fill]
  cases c.fillRefusal <;> simp [eq_comm]

theorem flush_eq_ok_iff : flush c fs = (.ok (), fs') ↔ c.flushRefusal = none ∧ fs' = fs := by
  rw [flush]
  cases c.flushRefusal <;> simp [eq_comm]

/-- The temporary file takes the place of the old one, and nothing is left of it where it was. -/
theorem renameOver_eq_ok_iff (hfree : fs.entryAt temp = none) {file : FileContent} :
    renameOver c temp path (fs.put temp (.file file)) = (.ok (), fs') ↔
      c.renameRefusal = none ∧
        ∃ l, fs.renameTarget path = .ok l ∧ fs' = fs.put l (.file file) := by
  have hfile := HoldsFileAtMost.of_none hfree
  have hentry := entryAt_put_self fs hfile.ne_nil (.file file)
  rw [renameOver]
  cases c.renameRefusal with
  | some error => simp
  | none =>
    simp only [moved, hentry, erase_put hfree]
    constructor
    · intro h
      split at h
      · cases h
      · rename_i after hafter
        split at hafter
        · cases hafter
        · rename_i l hl
          cases hafter
          cases h
          exact ⟨trivial, l, (renameTarget_put_iff hfile).1 hl, rfl⟩
    · rintro ⟨-, l, hl, rfl⟩
      rw [(renameTarget_put_iff hfile).2 hl]

theorem replaceThrough_eq_ok_iff (hfree : fs.entryAt temp = none) {before : FileContent} :
    replaceThrough c temp path content (fs.put temp (.file before)) = (.ok (), fs') ↔
      (c.fillRefusal = none ∧ c.flushRefusal = none ∧ c.renameRefusal = none) ∧
        ∃ l, fs.renameTarget path = .ok l ∧ fs' = fs.put l (.file (.text content)) := by
  simp only [replaceThrough, andThen_eq_ok_iff, fill_eq_ok_iff, flush_eq_ok_iff]
  constructor
  · rintro ⟨_, ⟨hfill, rfl⟩, _, ⟨hflush, rfl⟩, hrename⟩
    rw [put_put] at hrename
    obtain ⟨hrefusal, hl⟩ := (renameOver_eq_ok_iff hfree).1 hrename
    exact ⟨⟨hfill, hflush, hrefusal⟩, hl⟩
  · rintro ⟨⟨hfill, hflush, hrefusal⟩, hl⟩
    refine ⟨_, ⟨hfill, rfl⟩, _, ⟨hflush, rfl⟩, ?_⟩
    rw [put_put]
    exact (renameOver_eq_ok_iff hfree).2 ⟨hrefusal, hl⟩

/-! ## All steps together -/

theorem refuseLinkThere_eq_ok_iff {operation : String} :
    fs.refuseLinkThere path operation = .ok () ↔
      ∀ target, fs.inspect path ≠ .ok (.link target) := by
  rw [refuseLinkThere, refuseLink]
  cases fs.inspect path with
  | error error => exact iff_of_true rfl nofun
  | ok entry =>
    cases entry with
    | file content => exact iff_of_true rfl nofun
    | directory => exact iff_of_true rfl nofun
    | link target => exact iff_of_false nofun fun h => h target rfl

/-- The system refuses no step of its own accord, and a temporary file can be made. -/
structure Allowed (c : Conduct) (fs : FileSystem) (path : String) : Prop where
  made : ∃ temp, fs.temporary c path = .ok temp
  filled : c.fillRefusal = none
  flushed : c.flushRefusal = none
  renamed : c.renameRefusal = none

/-- The steps succeed where none of them is refused and the file can be replaced, and they come to
that replacement. -/
theorem replaceBySteps_eq_ok_iff : replaceBySteps c path content fs = (.ok (), fs') ↔
    Allowed c fs path ∧ fs.replaceFile path content = .ok fs' := by
  rw [replaceFile_eq_ok_iff]
  constructor
  · intro h
    rw [replaceBySteps] at h
    split at h
    · cases h
    rename_i hdirectory
    split at h
    · cases h
    rename_i hlink
    split at h
    · cases h
    rename_i temp htemp
    split at h
    · cases h
    rename_i left hleft
    cases h
    obtain ⟨⟨hfill, hflush, hrename⟩, l, hl, rfl⟩ :=
      (replaceThrough_eq_ok_iff (entryAt_of_temporary htemp)).1 (orRemove_eq_ok_iff.1 hleft)
    exact ⟨⟨⟨temp, htemp⟩, hfill, hflush, hrename⟩, l,
      ⟨by simpa using hdirectory, refuseLinkThere_eq_ok_iff.1 hlink, hl⟩, rfl⟩
  · rintro ⟨⟨⟨temp, htemp⟩, hfill, hflush, hrename⟩, l, ⟨hdirectory, hlink, hl⟩, rfl⟩
    have hleft : (replaceThrough c temp path content).orRemove temp
        (fs.put temp (.file (.text ""))) = (.ok (), fs.put l (.file (.text content))) := by
      rw [orRemove_eq_ok_iff, replaceThrough_eq_ok_iff (entryAt_of_temporary htemp)]
      exact ⟨⟨hfill, hflush, hrename⟩, l, hl, rfl⟩
    have hnolink : fs.refuseLinkThere path "write" = .ok () := refuseLinkThere_eq_ok_iff.2 hlink
    simp only [replaceBySteps, hdirectory, hnolink, htemp, hleft]
    rfl

/-- Steps that do not succeed leave nothing behind. -/
theorem replaceBySteps_of_error {failure : Failure}
    (h : replaceBySteps c path content fs = (.error failure, fs')) : fs' = fs := by
  rw [replaceBySteps] at h
  split at h
  · exact (Prod.mk.inj h).2.symm
  split at h
  · exact (Prod.mk.inj h).2.symm
  split at h
  · exact (Prod.mk.inj h).2.symm
  rename_i temp htemp
  split at h
  · rename_i problem left hleft
    cases h
    exact (failsClean_replaceThrough fs c temp path content).orRemove
      (entryAt_of_temporary htemp) hleft
  · cases h

theorem replaceBySteps_cases (c : Conduct) (fs : FileSystem) (path content : String) :
    (∃ fs', replaceBySteps c path content fs = (.ok (), fs') ∧
        fs.replaceFile path content = .ok fs') ∨
      ∃ failure, replaceBySteps c path content fs = (.error failure, fs) := by
  cases h : replaceBySteps c path content fs with
  | mk result left =>
    cases result with
    | error failure =>
      rw [replaceBySteps_of_error h]
      exact .inr ⟨failure, rfl⟩
    | ok done => exact .inl ⟨left, rfl, (replaceBySteps_eq_ok_iff.1 h).2⟩

/-- What a replacement that succeeded has done: at the location that the path leads to without its
last link, where there was a file or nothing, there is a file with the content. -/
structure Written (fs fs' : FileSystem) (path content : String) : Prop where
  named : fs'.inspect path = .ok (.file (.text content))
  /-- Nothing else changed, so the temporary file is gone. -/
  elsewhere : ∃ l, fs.walk false path = .ok l ∧ fs.HoldsFileAtMost l ∧
    fs'.entryAt l = some (.file (.text content)) ∧ ∀ k ≠ l, fs'.entryAt k = fs.entryAt k
  links : ∀ k target, fs.entryAt k = some (.link target) → fs'.entryAt k = some (.link target)
  workingDirectory : fs'.workingDirectory = fs.workingDirectory

theorem Replaces.written (h : fs.Replaces path l) (content : String) :
    Written fs (fs.put l (.file (.text content))) path content where
  named := h.inspect_put _
  elsewhere := ⟨l, (renameTarget_eq_ok h.reached).1, h.holdsFileAtMost,
    entryAt_put_self fs h.holdsFileAtMost.ne_nil _, fun _ hk => entryAt_put_of_ne fs hk _⟩
  links k target hk := by
    have hne : k ≠ l := by
      rintro rfl
      obtain ⟨c, hc⟩ := h.holdsFileAtMost _ hk
      cases hc
    rw [entryAt_put_of_ne fs hne, hk]
  workingDirectory := workingDirectory_put fs l _

/-- Whatever the system refuses, a file is either replaced, and nothing else changed, or everything
is as it was. The latter is so for links, dangling ones too, for directories and where there is no
directory for the file. A replacement succeeds just when no step is refused and the file can be
replaced. -/
theorem replaced_or_untouched (c : Conduct) (fs : FileSystem) (path content : String) :
    ((∃ fs', replaceBySteps c path content fs = (.ok (), fs') ∧ Written fs fs' path content) ∨
        ∃ failure, replaceBySteps c path content fs = (.error failure, fs)) ∧
      (fs.Unwritable path →
        ∃ failure, replaceBySteps c path content fs = (.error failure, fs)) ∧
      ((∃ fs', replaceBySteps c path content fs = (.ok (), fs')) ↔
        Allowed c fs path ∧ fs.CanReplace path) := by
  have hcan {fs'} (h : fs.replaceFile path content = .ok fs') : fs.CanReplace path := by
    obtain ⟨l, hl, -⟩ := replaceFile_eq_ok_iff.1 h
    exact canReplace_iff.2 ⟨l, hl⟩
  refine ⟨?_, fun hunwritable => ?_, ?_⟩
  · obtain ⟨fs', hsteps, hreplaced⟩ | hfailed := replaceBySteps_cases c fs path content
    · obtain ⟨l, hl, rfl⟩ := replaceFile_eq_ok_iff.1 hreplaced
      exact .inl ⟨_, hsteps, hl.written content⟩
    · exact .inr hfailed
  · obtain ⟨fs', -, hreplaced⟩ | hfailed := replaceBySteps_cases c fs path content
    · exact absurd (hcan hreplaced) hunwritable.not_canReplace
    · exact hfailed
  · simp only [replaceBySteps_eq_ok_iff]
    constructor
    · rintro ⟨fs', hallowed, hreplaced⟩
      exact ⟨hallowed, hcan hreplaced⟩
    · rintro ⟨hallowed, h⟩
      obtain ⟨fs', hreplaced⟩ := h content
      exact ⟨fs', hallowed, hreplaced⟩

/-- A dangling link is left alone, where the same steps make a file if there is nothing. -/
theorem dangling_log_untouched :
    let c : Conduct :=
      ⟨[(".tmpa1B2c3", none)], .other "File exists (os error 17)", none, none, none⟩
    let fs : FileSystem := ⟨[(["log"], .link "gone")], []⟩
    fs.inspect "/log" = .ok (.link "gone") ∧ fs.follow "/log" = .error .notFound ∧
      (∃ failure, replaceBySteps c "/log" "entries" fs = (.error failure, fs)) ∧
      ∃ fs', replaceBySteps c "/log" "entries" ⟨[], []⟩ = (.ok (), fs') := by
  intro c fs
  have hlink : fs.inspect "/log" = .ok (.link "gone") := rfl
  have hdangling : fs.follow "/log" = .error .notFound := rfl
  have hallowed : Allowed c ⟨[], []⟩ "/log" :=
    ⟨⟨[".tmpa1B2c3"], rfl⟩, rfl, rfl, rfl⟩
  exact ⟨hlink, hdangling, (replaced_or_untouched c fs "/log" "entries").2.1 (.link hlink),
    (replaced_or_untouched c ⟨[], []⟩ "/log" "entries").2.2.2
      ⟨hallowed, canReplace_iff.2 ⟨_, replaces_log_of_nothing⟩⟩⟩

end ReleaseCandidates.FileSystem
