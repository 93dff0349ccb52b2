import ReleaseCandidates.FileSystem.Replace
import ReleaseCandidates.Proofs.FileSystem.Walks

set_option autoImplicit false

/-! # Files that have been replaced

Replacing a file puts its new content at one location and leaves the rest of the file system alone.
The path has to lead to the same location afterwards, or a file that was written could not be read
back, nor written again. It does: a path is followed through directories and links, and a location
that a file is put at holds neither, before or after (`ChangedAt.walkFrom`).

Main statements: after `replaceFile` has succeeded the path names a file with the content
(`inspect_of_replaceFile`), and every later replacement of it succeeds too
(`canReplace_of_replaceFile`). -/

namespace ReleaseCandidates.FileSystem

variable {fs fs' : FileSystem} {l : Location} {path content : String}

/-! ## Walks through a file system that has changed at one location -/

/-- The file system `fs` has become `fs'` by a change at one location, which held no directory and
no link before. -/
structure ChangedAt (fs : FileSystem) (l : Location) (fs' : FileSystem) : Prop where
  file : fs.HoldsFileAtMost l
  elsewhere : ∀ k ≠ l, fs'.entryAt k = fs.entryAt k
  workingDirectory : fs'.workingDirectory = fs.workingDirectory

theorem changedAt_put (h : fs.HoldsFileAtMost l) (e : FileEntry) : fs.ChangedAt l (fs.put l e) where
  file := h
  elsewhere := fun _ hk => entryAt_put_of_ne fs hk e
  workingDirectory := rfl

theorem holdsFileAtMost_put (h : fs.HoldsFileAtMost l) (content : FileContent) :
    (fs.put l (.file content)).HoldsFileAtMost l :=
  .of_file (entryAt_put_self fs h.ne_nil _)

namespace ChangedAt

theorem symm (h : fs.ChangedAt l fs') (hnew : fs'.HoldsFileAtMost l) : fs'.ChangedAt l fs where
  file := hnew
  elsewhere := fun k hk => (h.elsewhere k hk).symm
  workingDirectory := h.workingDirectory.symm

theorem directory {k : Location} (h : fs.ChangedAt l fs') (hk : fs.entryAt k = some .directory) :
    fs'.entryAt k = some .directory := by
  rw [h.elsewhere k (h.file.ne_of_directory hk), hk]

theorem link {k : Location} {target : String} (h : fs.ChangedAt l fs')
    (hk : fs.entryAt k = some (.link target)) : fs'.entryAt k = some (.link target) := by
  rw [h.elsewhere k (h.file.ne_of_link hk), hk]

/-- A walk still leads to the same location: it only goes through directories and links, and these
are as they were. If it ends where the change was, there must still be no directory and no link. -/
theorem leadsTo {through : Bool} {here k : Location} {steps : List String}
    {jump jump' : Location → String → List String → Except OsError Location}
    (h : fs.ChangedAt l fs') (hend : k ≠ l ∨ fs'.HoldsFileAtMost l)
    (hjump : ∀ here target rest, jump here target rest = .ok k → jump' here target rest = .ok k)
    (hw : fs.LeadsTo through jump here steps k) : fs'.LeadsTo through jump' here steps k := by
  induction hw with
  | stay here => exact .stay here
  | idle hhere hname _ ih => exact .idle (h.directory hhere) hname (ih hend hjump)
  | up hhere _ ih => exact .up (h.directory hhere) (ih hend hjump)
  | enter hhere hname hnext _ ih =>
    exact .enter (h.directory hhere) hname (h.directory hnext) (ih hend hjump)
  | @arrive here name hhere hname hlast =>
    refine .arrive (h.directory hhere) hname ?_
    by_cases hl : here ++ [name] = l
    · rw [hl]
      exact hend.resolve_left fun hne => hne hl
    · intro e he
      rw [h.elsewhere _ hl] at he
      exact hlast e he
  | link hhere hname hlast hstop => exact .link (h.directory hhere) hname (h.link hlast) hstop
  | follow hhere hname hnext hgoes hj =>
    exact .follow (h.directory hhere) hname (h.link hnext) hgoes (hjump _ _ _ hj)

theorem walkFrom {through : Bool} {links : Nat} {here k : Location} {steps : List String}
    (h : fs.ChangedAt l fs') (hend : k ≠ l ∨ fs'.HoldsFileAtMost l)
    (hw : fs.walkFrom through links here steps = .ok k) :
    fs'.walkFrom through links here steps = .ok k := by
  induction links generalizing here steps with
  | zero =>
    exact (h.leadsTo hend (fun _ _ _ hj => hj) (leadsTo_of_walkWith hw)).walkWith
  | succ links ih =>
    exact (h.leadsTo hend (fun _ _ _ hj => ih hj) (leadsTo_of_walkWith hw)).walkWith

theorem walk {through : Bool} {k : Location} (h : fs.ChangedAt l fs')
    (hend : k ≠ l ∨ fs'.HoldsFileAtMost l) (hw : fs.walk through path = .ok k) :
    fs'.walk through path = .ok k := by
  unfold FileSystem.walk at hw ⊢
  cases hp : pathProblem path with
  | some error => simp [hp] at hw
  | none =>
    simp only [hp, h.workingDirectory] at hw ⊢
    exact h.walkFrom hend hw

/-- A directory is still found after a change at a location that held none. -/
theorem isDirectory (h : fs.ChangedAt l fs') (hd : fs.isDirectory path = true) :
    fs'.isDirectory path = true := by
  rw [isDirectory_iff] at hd ⊢
  obtain ⟨k, hw, hk⟩ := hd
  exact ⟨k, h.walk (.inl (h.file.ne_of_directory hk)) hw, h.directory hk⟩

end ChangedAt

/-! ## Where a replacement goes -/

/-- The location that a file at the path is put at when it is replaced. -/
structure Replaces (fs : FileSystem) (path : String) (l : Location) : Prop where
  inDirectory : fs.isDirectory (workshop path) = true
  notLink : ∀ target, fs.inspect path ≠ .ok (.link target)
  reached : fs.renameTarget path = .ok l

theorem replaceFile_eq_ok_iff :
    fs.replaceFile path content = .ok fs' ↔
      ∃ l, fs.Replaces path l ∧ fs' = fs.put l (.file (.text content)) := by
  unfold replaceFile
  constructor
  · intro h
    split at h
    · cases h
    · rename_i hdir
      split at h
      · cases h
      · rename_i hlink
        split at h
        · cases h
        · rename_i l hl
          exact ⟨l, ⟨by simpa using hdir, fun target ht => hlink target ht, hl⟩,
            by simpa using h.symm⟩
  · rintro ⟨l, ⟨hdir, hlink, hl⟩, rfl⟩
    rw [if_neg (by simp [hdir]), hl]
    cases hi : fs.inspect path with
    | error error => rfl
    | ok e =>
      cases e with
      | file c => rfl
      | directory => rfl
      | link target => exact absurd hi (hlink target)

/-- A rename is allowed to a path that leads, name by name, to a location without a directory, and
whose last name is a proper one. -/
theorem renameTarget_eq_ok_iff : fs.renameTarget path = .ok l ↔
    pathProblem path = none ∧
      fs.walkFrom false maxLinks (origin fs.workingDirectory path) (properNames path) = .ok l ∧
      (properNames path).getLast? ∉ [none, some ".", some ".."] ∧
      ¬ (properNames path).length < (names path).length ∧ fs.entryAt l ≠ some .directory := by
  unfold renameTarget
  cases pathProblem path with
  | some error => simp
  | none =>
    simp only
    cases fs.walkFrom false maxLinks (origin fs.workingDirectory path) (properNames path) with
    | error error => simp
    | ok k =>
      simp only
      by_cases hdots : (properNames path).getLast? ∈ [none, some ".", some ".."]
      · simp [hdots]
      by_cases hlength : (properNames path).length < (names path).length
      · simp [hdots, hlength]
      simp only [if_neg hdots, if_neg hlength]
      split
      · rename_i hdirectory
        refine iff_of_false nofun ?_
        rintro ⟨-, hk, -, -, hne⟩
        cases hk
        exact hne hdirectory
      · rename_i hne
        constructor
        · intro hk
          cases hk
          exact ⟨trivial, rfl, hdots, hlength, hne⟩
        · exact fun h => h.2.1

/-- A change at a location that held no directory and no link takes away no rename to others. -/
theorem ChangedAt.renameTarget {k : Location} (h : fs.ChangedAt k fs')
    (hend : l ≠ k ∨ fs'.HoldsFileAtMost k) (hl : fs.renameTarget path = .ok l) :
    fs'.renameTarget path = .ok l := by
  obtain ⟨hproblem, hwalk, hdots, hlength, hentry⟩ := renameTarget_eq_ok_iff.1 hl
  have hentry' : fs'.entryAt l ≠ some .directory := by
    by_cases hlk : l = k
    · intro hdirectory
      have hnew := hend.resolve_left fun hne => hne hlk
      exact hnew.ne_of_directory hdirectory hlk
    · rwa [h.elsewhere l hlk]
  rw [← h.workingDirectory] at hwalk
  exact renameTarget_eq_ok_iff.2 ⟨hproblem, h.walkFrom hend hwalk, hdots, hlength, hentry'⟩

/-- A file that was put somewhere changes nothing about where renames are allowed. -/
theorem renameTarget_put_iff {k : Location} (h : fs.HoldsFileAtMost k) {content : FileContent} :
    (fs.put k (.file content)).renameTarget path = .ok l ↔ fs.renameTarget path = .ok l := by
  have hchanged := changedAt_put h (.file content)
  have hnew := holdsFileAtMost_put h content
  exact ⟨(hchanged.symm hnew).renameTarget (.inr h), hchanged.renameTarget (.inr hnew)⟩

/-- What is known of the path of a rename that is allowed. -/
theorem renameTarget_eq_ok (h : fs.renameTarget path = .ok l) :
    fs.walk false path = .ok l ∧ properNames path = names path ∧
      fs.entryAt l ≠ some .directory := by
  obtain ⟨hproblem, hwalk, -, hlength, hentry⟩ := renameTarget_eq_ok_iff.1 h
  have hproper : properNames path = names path := by
    -- the proper names are a part of the names from their start, and no shorter
    have hprefix : properNames path <+: names path := by
      rw [properNames, ← List.reverse_suffix, List.reverse_reverse]
      exact List.dropWhile_suffix _
    exact hprefix.eq_of_length_le (by omega)
  refine ⟨?_, hproper, hentry⟩
  rw [walk, hproblem, ← hproper]
  exact hwalk

namespace Replaces

theorem inspect_eq (h : fs.Replaces path l) :
    fs.inspect path = (fs.entryAt l).elim (.error .notFound) .ok := by
  obtain ⟨hwalk, -, -⟩ := renameTarget_eq_ok h.reached
  simp only [inspect, lookAt, hwalk]
  cases fs.entryAt l <;> rfl

theorem holdsFileAtMost (h : fs.Replaces path l) : fs.HoldsFileAtMost l := by
  intro e he
  cases e with
  | file content => exact ⟨content, rfl⟩
  | directory => exact absurd he (renameTarget_eq_ok h.reached).2.2
  | link target => exact absurd (by rw [h.inspect_eq, he]; rfl) (h.notLink target)

/-- The file that was put is what the path names. -/
theorem inspect_put (h : fs.Replaces path l) (content : FileContent) :
    (fs.put l (.file content)).inspect path = .ok (.file content) := by
  obtain ⟨hwalk, -, -⟩ := renameTarget_eq_ok h.reached
  have hfile := h.holdsFileAtMost
  exact lookAt_eq_ok_iff.2 ⟨l,
    (changedAt_put hfile _).walk (.inr (holdsFileAtMost_put hfile _)) hwalk,
    entryAt_put_self fs hfile.ne_nil _⟩

/-- A file that was put at a path is put at the same location again. -/
theorem put (h : fs.Replaces path l) (content : FileContent) :
    (fs.put l (.file content)).Replaces path l := by
  have hfile := h.holdsFileAtMost
  refine ⟨(changedAt_put hfile _).isDirectory h.inDirectory, ?_, ?_⟩
  · intro target
    rw [h.inspect_put]
    simp
  · exact (renameTarget_put_iff hfile).2 h.reached

end Replaces

/-! ## Files that can be replaced -/

/-- Whether a file at the path can be replaced, whatever its new content is. -/
def CanReplace (fs : FileSystem) (path : String) : Prop :=
  ∀ content, ∃ fs', fs.replaceFile path content = .ok fs'

theorem canReplace_iff : fs.CanReplace path ↔ ∃ l, fs.Replaces path l := by
  constructor
  · intro h
    obtain ⟨fs', h'⟩ := h ""
    obtain ⟨l, hl, -⟩ := replaceFile_eq_ok_iff.1 h'
    exact ⟨l, hl⟩
  · rintro ⟨l, hl⟩ content
    exact ⟨_, replaceFile_eq_ok_iff.2 ⟨l, hl, rfl⟩⟩

/-- A file that was replaced holds its new content. -/
theorem inspect_of_replaceFile (h : fs.replaceFile path content = .ok fs') :
    fs'.inspect path = .ok (.file (.text content)) := by
  obtain ⟨l, hl, rfl⟩ := replaceFile_eq_ok_iff.1 h
  exact hl.inspect_put _

/-- A file that was replaced is the only thing that changed. -/
theorem entryAt_of_replaceFile (h : fs.replaceFile path content = .ok fs') :
    ∃ l, fs.walk false path = .ok l ∧ ∀ k ≠ l, fs'.entryAt k = fs.entryAt k := by
  obtain ⟨l, hl, rfl⟩ := replaceFile_eq_ok_iff.1 h
  obtain ⟨hwalk, -, -⟩ := renameTarget_eq_ok hl.reached
  exact ⟨l, hwalk, fun k hk => entryAt_put_of_ne fs hk _⟩

/-- What keeps a file from being written at a path, whatever its content is. -/
inductive Unwritable (fs : FileSystem) (path : String) : Prop where
  | link {target : String} (names : fs.inspect path = .ok (.link target))
  | directory (names : fs.inspect path = .ok .directory)
  | noParent (missing : fs.isDirectory (workshop path) = false)

theorem Unwritable.not_canReplace (h : fs.Unwritable path) : ¬ fs.CanReplace path := by
  intro hcan
  obtain ⟨l, hl⟩ := canReplace_iff.1 hcan
  cases h with
  | link names => exact hl.notLink _ names
  | directory names =>
    rw [hl.inspect_eq] at names
    cases hentry : fs.entryAt l with
    | none =>
      rw [hentry] at names
      cases names
    | some entry =>
      rw [hentry] at names
      obtain rfl : entry = .directory := Except.ok.inj names
      exact (renameTarget_eq_ok hl.reached).2.2 hentry
  | noParent missing =>
    rw [hl.inDirectory] at missing
    cases missing

/-- A file that was replaced can be replaced again. -/
theorem canReplace_of_replaceFile (h : fs.replaceFile path content = .ok fs') :
    fs'.CanReplace path := by
  obtain ⟨l, hl, rfl⟩ := replaceFile_eq_ok_iff.1 h
  exact canReplace_iff.2 ⟨l, hl.put _⟩

/-- A file that was replaced is read back, unless its new content is too large. -/
theorem readRegular_of_replaceFile (h : fs.replaceFile path content = .ok fs')
    (hsize : content.utf8ByteSize ≤ sizeLimit) (description : String) :
    fs'.readRegular path description = .ok content := by
  have hc : checkSize path (FileContent.text content).size sizeLimit = .ok () := by
    rw [checkSize, if_neg (by simpa [FileContent.size] using hsize)]
  simp only [readRegular, inspect_of_replaceFile h, hc, contentText, FileContent.text?]

/-- A file can be made in the root of an empty file system. -/
theorem replaces_log_of_nothing : Replaces ⟨[], []⟩ "/log" ["log"] where
  inDirectory := by decide +kernel
  notLink target := by
    rw [show inspect ⟨[], []⟩ "/log" = .error .notFound from rfl]
    simp
  reached := rfl

end ReleaseCandidates.FileSystem
