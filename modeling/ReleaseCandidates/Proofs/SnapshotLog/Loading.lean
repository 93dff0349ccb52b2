import ReleaseCandidates.SnapshotLog.Stored

set_option autoImplicit false

/-! # Which files are loaded as logs

Loading a log looks at what the path names, then at the size, then at the text, then at what the
text says, and stops at the first thing that is not in order. This module says once what has to be
in order (`StoredLog.load_eq_ok_iff`) and, case by case, what can be in the way
(`StoredLog.Unreadable`); there is nothing else (`StoredLog.exists_load_eq_error_iff`). -/

namespace ReleaseCandidates.StoredLog

variable {path : String} {fs : FileSystem} {log : SnapshotLog} {content : FileContent}

/-- What keeps a log from being loaded. -/
inductive Unreadable (path : String) (fs : FileSystem) : Prop where
  | missing {error : OsError} (names : fs.inspect path = .error error)
  /-- A link is not looked through, wherever it leads. -/
  | link {target : String} (names : fs.inspect path = .ok (.link target))
  | directory (names : fs.inspect path = .ok .directory)
  | tooLarge {content : FileContent} (names : fs.inspect path = .ok (.file content))
      (size : FileSystem.sizeLimit < content.size)
  | notText {content : FileContent} (names : fs.inspect path = .ok (.file content))
      (reads : content.text? = none)
  | noLog {content : FileContent} {text : String} {problem : LogProblem}
      (names : fs.inspect path = .ok (.file content)) (reads : content.text? = some text)
      (refused : SnapshotLog.parse text = .error problem)

/-- Loading a path that names nothing. -/
theorem load_of_missing {error : OsError} (h : fs.inspect path = .error error) :
    load path fs = .error (.logMissing path) := by
  have hmissing : isThere path fs = false := by
    rw [isThere, h]
    rfl
  rw [load, hmissing]
  rfl

/-- Loading a path that names something, as far as reading it goes. -/
theorem load_of_entry {entry : FileEntry} (h : fs.inspect path = .ok entry) :
    load path fs =
      match fs.readRegular path description with
      | .error problem => .error (.notRead problem)
      | .ok text =>
        match SnapshotLog.parse text with
        | .error problem => .error (.logUnreadable path problem)
        | .ok log => .ok log := by
  have hthere : isThere path fs = true := by
    rw [isThere, h]
    rfl
  rw [load, hthere]
  rfl

/-- Reading a regular file, within the limit of size. -/
theorem readRegular_of_file (h : fs.inspect path = .ok (.file content))
    (hsize : content.size ≤ FileSystem.sizeLimit) (description : String) :
    fs.readRegular path description = FileSystem.contentText description content := by
  rw [FileSystem.readRegular, h]
  simp only [FileSystem.checkSize, if_neg (Nat.not_lt.2 hsize)]

theorem load_of_link {target : String} (h : fs.inspect path = .ok (.link target)) :
    load path fs = .error (.notRead (.isLink path description)) := by
  rw [load_of_entry h, FileSystem.readRegular, h]

theorem load_of_directory (h : fs.inspect path = .ok .directory) :
    load path fs = .error (.notRead (.notRegular path)) := by
  rw [load_of_entry h, FileSystem.readRegular, h]

theorem load_of_tooLarge (h : fs.inspect path = .ok (.file content))
    (hsize : FileSystem.sizeLimit < content.size) :
    load path fs =
      .error (.notRead (.tooLarge path content.size FileSystem.sizeLimit)) := by
  rw [load_of_entry h, FileSystem.readRegular, h]
  simp only [FileSystem.checkSize, if_pos hsize]

/-- A log is loaded from a regular file within the limit of size whose text says it. -/
theorem load_eq_ok_iff :
    load path fs = .ok log ↔
      ∃ content text, fs.inspect path = .ok (.file content) ∧
        content.size ≤ FileSystem.sizeLimit ∧ content.text? = some text ∧
        SnapshotLog.parse text = .ok log := by
  constructor
  · intro hload
    cases hi : fs.inspect path with
    | error error =>
      rw [load_of_missing hi] at hload
      cases hload
    | ok entry =>
      cases entry with
      | directory =>
        rw [load_of_directory hi] at hload
        cases hload
      | link target =>
        rw [load_of_link hi] at hload
        cases hload
      | file content =>
        by_cases hsize : FileSystem.sizeLimit < content.size
        · rw [load_of_tooLarge hi hsize] at hload
          cases hload
        rw [load_of_entry hi, readRegular_of_file hi (Nat.not_lt.1 hsize),
          FileSystem.contentText] at hload
        cases htext : content.text? with
        | none =>
          rw [htext] at hload
          cases hload
        | some text =>
          simp only [htext] at hload
          cases hparse : SnapshotLog.parse text with
          | error problem =>
            rw [hparse] at hload
            cases hload
          | ok parsed =>
            rw [hparse] at hload
            obtain rfl : parsed = log := by simpa using hload
            exact ⟨content, text, rfl, Nat.not_lt.1 hsize, htext, hparse⟩
  · rintro ⟨content, text, hi, hsize, htext, hparse⟩
    rw [load_of_entry hi, readRegular_of_file hi hsize, FileSystem.contentText, htext]
    simp only [hparse]

/-- A log is loaded unless one of the things stands in the way that can. -/
theorem exists_load_eq_error_iff :
    (∃ failure, load path fs = .error failure) ↔ Unreadable path fs := by
  constructor
  · rintro ⟨failure, hload⟩
    cases hi : fs.inspect path with
    | error error => exact .missing hi
    | ok entry =>
      cases entry with
      | directory => exact .directory hi
      | link target => exact .link hi
      | file content =>
        by_cases hsize : FileSystem.sizeLimit < content.size
        · exact .tooLarge hi hsize
        cases htext : content.text? with
        | none => exact .notText hi htext
        | some text =>
          cases hparse : SnapshotLog.parse text with
          | error problem => exact .noLog hi htext hparse
          | ok log =>
            have hok : load path fs = .ok log :=
              load_eq_ok_iff.2 ⟨content, text, hi, Nat.not_lt.1 hsize, htext, hparse⟩
            rw [hok] at hload
            cases hload
  · intro h
    cases hload : load path fs with
    | error failure => exact ⟨failure, rfl⟩
    | ok log =>
      -- a log that is loaded has nothing in its way
      obtain ⟨content, text, hi, hsize, htext, hparse⟩ := load_eq_ok_iff.1 hload
      cases h with
      | missing names => cases hi.symm.trans names
      | link names => cases hi.symm.trans names
      | directory names => cases hi.symm.trans names
      | tooLarge names size =>
        cases hi.symm.trans names
        exact absurd hsize (Nat.not_le.2 size)
      | notText names reads =>
        cases hi.symm.trans names
        cases htext.symm.trans reads
      | noLog names reads refused =>
        cases hi.symm.trans names
        cases htext.symm.trans reads
        cases hparse.symm.trans refused

end ReleaseCandidates.StoredLog
