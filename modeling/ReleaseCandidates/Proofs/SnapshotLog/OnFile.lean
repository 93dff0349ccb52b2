import ReleaseCandidates.Proofs.SnapshotLog.History
import ReleaseCandidates.Proofs.SnapshotLog.Loading
import ReleaseCandidates.Proofs.SnapshotLog.RoundTrip

set_option autoImplicit false

/-! # A log on file acts as a log

The store keeps nothing between two calls but the file: every call reads the whole log, and one that
changes it writes the whole log back. To its callers it is a log all the same. This module puts the
two side by side: `StoreCall.onFile` is what a call does to the file system, `StoreCall.inMemory`
what it does to a log that is simply held, or to none while there is no file. The two are tied by
what loading the file gives (`StoredLog.Mirrors`).

A single call keeps them tied and answers the same (`StoredLog.mirrors_step`): what it writes is
read back, because the text of a log stands for that log, and it can write again, because a file
that has been replaced can be replaced. The runs follow (`StoredLog.store_acts_as_log`). -/

namespace ReleaseCandidates

/-! ## Calls -/

/-- A call of the store. -/
inductive StoreCall where
  /-- Components are offered, or a verdict is to be recorded. -/
  | change (change : LogChange)
  /-- The pending entry that was made last is asked for. -/
  | nextPending
  | withId (id : String)
  | atPosition (index : Nat)

/-- What a call answers when it does not fail. -/
inductive StoreAnswer where
  | changed (answer : LogAnswer)
  | found (snapshot : Option Snapshot)
  deriving DecidableEq, Repr

/-- The answer of an operation and the file system after it: the old one if it failed. -/
def StoreAnswer.settle {α : Type} (answer : α → LogAnswer) (fs : FileSystem) :
    Except Failure (α × FileSystem) → Except Failure StoreAnswer × FileSystem
  | .ok (a, fs') => (.ok (.changed (answer a)), fs')
  | .error failure => (.error failure, fs)

/-- A call of the store on the file at `path`. -/
def StoreCall.onFile (path : String) (fs : FileSystem) :
    StoreCall → Except Failure StoreAnswer × FileSystem
  | .change (.offer components time) =>
    StoreAnswer.settle .offered fs (StoredLog.offer path components time fs)
  | .change (.verdict updated now) =>
    StoreAnswer.settle .recorded fs (StoredLog.recordVerdict path updated now fs)
  | .nextPending => ((StoredLog.nextPending path fs).map .found, fs)
  | .withId id => ((StoredLog.withId path id fs).map .found, fs)
  | .atPosition index => ((StoredLog.atPosition path index fs).map .found, fs)

/-- What the lookup `find` answers about a log, if there is one. -/
def StoreCall.lookUp (path : String) (held : Option SnapshotLog)
    (find : SnapshotLog → Option Snapshot) : Except Failure StoreAnswer :=
  match held with
  | none => .error (.logMissing path)
  | some log => .ok (.found (find log))

/-- A call of the store on a log that is held, if there is one. Without one, components are offered
to the empty log and everything else fails. A verdict that is none is refused before anything is
looked at. -/
def StoreCall.inMemory (path : String) (held : Option SnapshotLog) :
    StoreCall → Except Failure StoreAnswer × Option SnapshotLog
  | .change (.offer components time) =>
    let (answer, log) := (LogChange.offer components time).apply (held.getD .empty)
    (answer.map .changed, some log)
  | .change (.verdict updated now) =>
    if !updated.status.isFinal then
      (.error (.transitionRefused updated.id .pending (.status updated.status)), held)
    else
      match held with
      | none => (.error (.logMissing path), none)
      | some log =>
        let (answer, log) := (LogChange.verdict updated now).apply log
        (answer.map .changed, some log)
  | .nextPending => (StoreCall.lookUp path held SnapshotLog.nextPending?, held)
  | .withId id => (StoreCall.lookUp path held fun log => log.withId? id, held)
  | .atPosition index => (StoreCall.lookUp path held fun log => log.atPosition? index, held)

/-! ## Runs -/

section Runs

variable {σ : Type} (step : σ → StoreCall → Except Failure StoreAnswer × σ)

/-- The state after calls, one after the other. -/
def StoreCall.stateAfter (state : σ) (calls : List StoreCall) : σ :=
  calls.foldl (fun state call => (step state call).2) state

/-- What calls answer, one after the other. -/
def StoreCall.answers : σ → List StoreCall → List (Except Failure StoreAnswer)
  | _, [] => []
  | state, call :: calls => (step state call).1 :: answers (step state call).2 calls

end Runs

/-- The answers after which a file is as it was: those of calls that failed, that had nothing new to
write, or that only looked something up. -/
def StoreAnswer.LeavesAlone : Except Failure StoreAnswer → Prop
  | .error _ | .ok (.found _) | .ok (.changed (.offered .unchanged)) => True
  | .ok (.changed (.offered (.inserted _))) | .ok (.changed (.recorded _)) => False

namespace StoredLog

open StoreCall (onFile inMemory stateAfter answers)

variable {path : String} {fs fs' : FileSystem} {held : Option SnapshotLog} {log : SnapshotLog}
  {components : List Component} {time : Instant}

/-! ## Files and logs -/

/-- The file at the path stands for what is held: it is loaded as that log, or is missing. -/
def Mirrors (path : String) (fs : FileSystem) (held : Option SnapshotLog) : Prop :=
  load path fs = held.elim (.error (.logMissing path)) .ok

/-- A file at the path, if there is one, is not too large to be read. -/
def FitsLimit (path : String) (fs : FileSystem) : Prop :=
  ∀ content, fs.inspect path = .ok (.file content) → content.size ≤ FileSystem.sizeLimit

instance (path : String) (fs : FileSystem) : Decidable (FitsLimit path fs) :=
  match h : fs.inspect path with
  | .ok (.file content) =>
    decidable_of_iff (content.size ≤ FileSystem.sizeLimit)
      ⟨fun hsize c hc => by rw [h] at hc; cases hc; exact hsize, fun hfits => hfits content h⟩
  | .ok .directory | .ok (.link _) | .error _ => .isTrue fun c hc => by rw [h] at hc; cases hc

theorem Mirrors.loadOrEmpty_eq (h : Mirrors path fs held) :
    loadOrEmpty path fs = held.getD .empty := by
  unfold loadOrEmpty
  rw [h]
  cases held with
  | none => rfl
  | some log => rfl

theorem mirrors_none {error : OsError} (h : fs.inspect path = .error error) :
    Mirrors path fs none :=
  load_of_missing h

/-- A log that was saved is loaded again, unless its file is too large. -/
theorem load_of_save (h : save path log fs = .ok fs')
    (hsize : log.render.utf8ByteSize ≤ FileSystem.sizeLimit) : load path fs' = .ok log := by
  have hread : fs'.readRegular path description = .ok log.render :=
    FileSystem.readRegular_of_replaceFile h hsize description
  have hthere : isThere path fs' = true := by
    simp only [isThere, FileSystem.inspect_of_replaceFile h]
    rfl
  simp only [load, hthere, hread, SnapshotLog.parse_render]
  rfl

theorem fitsLimit_of_save (h : save path log fs = .ok fs')
    (hsize : log.render.utf8ByteSize ≤ FileSystem.sizeLimit) : FitsLimit path fs' := by
  intro content hcontent
  rw [FileSystem.inspect_of_replaceFile h] at hcontent
  cases hcontent
  exact hsize

theorem mirrors_of_save (h : save path log fs = .ok fs') (hfits : FitsLimit path fs') :
    Mirrors path fs' (some log) :=
  load_of_save h (hfits _ (FileSystem.inspect_of_replaceFile h))

/-- A file system with nothing but a log. -/
def onlyLog (log : SnapshotLog) : FileSystem :=
  FileSystem.put ⟨[], []⟩ ["log"] (.file (.text log.render))

theorem save_onlyLog (log : SnapshotLog) : save "/log" log ⟨[], []⟩ = .ok (onlyLog log) :=
  FileSystem.replaceFile_eq_ok_iff.2 ⟨_, FileSystem.replaces_log_of_nothing, rfl⟩

theorem canReplace_onlyLog (log : SnapshotLog) : (onlyLog log).CanReplace "/log" :=
  FileSystem.canReplace_of_replaceFile (save_onlyLog log)

/-! ## Offers -/

theorem offer_of_holdsNewest (h : (loadOrEmpty path fs).holdsNewest components = true) :
    offer path components time fs = .ok (.unchanged, fs) := by
  unfold offer
  rw [SnapshotLog.offer_of_holdsNewest time h]

theorem offer_of_not_holdsNewest (h : (loadOrEmpty path fs).holdsNewest components = false) :
    offer path components time fs =
      (save path ⟨Snapshot.pending components time :: (loadOrEmpty path fs).snapshots⟩ fs).map
        fun fs' => (.inserted time.format, fs') := by
  unfold offer
  rw [SnapshotLog.offer_of_not_holdsNewest time h]
  dsimp only
  cases save path ⟨Snapshot.pending components time :: (loadOrEmpty path fs).snapshots⟩ fs with
  | error failure => rfl
  | ok fs' => rfl

/-- An empty log has no newest entry, so whatever is offered to it is new. -/
theorem eq_some_of_holdsNewest (h : (held.getD .empty).holdsNewest components = true) :
    some (held.getD .empty) = held := by
  cases held with
  | none => simp [SnapshotLog.holdsNewest, SnapshotLog.newest?, SnapshotLog.empty] at h
  | some log => rfl

/-! ## One call -/

/-- What is to be shown of one call: it answers as the log does, and file and log stay tied. -/
def StaysTied (path : String) (onFile : Except Failure StoreAnswer × FileSystem)
    (inMemory : Except Failure StoreAnswer × Option SnapshotLog) : Prop :=
  onFile.1 = inMemory.1 ∧ onFile.2.CanReplace path ∧
    (FitsLimit path onFile.2 → Mirrors path onFile.2 inMemory.2)

theorem staysTied_of_unchanged (hwritable : fs.CanReplace path) (htied : Mirrors path fs held)
    (answer : Except Failure StoreAnswer) : StaysTied path (answer, fs) (answer, held) :=
  ⟨rfl, hwritable, fun _ => htied⟩

theorem staysTied_lookUp (hwritable : fs.CanReplace path) (htied : Mirrors path fs held)
    (find : SnapshotLog → Option Snapshot) :
    StaysTied path (((load path fs).map find).map .found, fs)
      (StoreCall.lookUp path held find, held) := by
  have hanswer : ((load path fs).map find).map StoreAnswer.found =
      StoreCall.lookUp path held find := by
    rw [htied]
    cases held with
    | none => rfl
    | some log => rfl
  rw [hanswer]
  exact staysTied_of_unchanged hwritable htied _

theorem staysTied_offer (hwritable : fs.CanReplace path) (htied : Mirrors path fs held)
    (components : List Component) (time : Instant) :
    StaysTied path (onFile path fs (.change (.offer components time)))
      (inMemory path held (.change (.offer components time))) := by
  have hlog := htied.loadOrEmpty_eq
  simp only [StoreCall.onFile, StoreCall.inMemory, LogChange.apply]
  cases hnew : (held.getD .empty).holdsNewest components with
  | true =>
    rw [offer_of_holdsNewest (by rw [hlog, hnew]), SnapshotLog.offer_of_holdsNewest time hnew,
      eq_some_of_holdsNewest hnew]
    exact staysTied_of_unchanged hwritable htied _
  | false =>
    rw [offer_of_not_holdsNewest (by rw [hlog, hnew]),
      SnapshotLog.offer_of_not_holdsNewest time hnew, hlog]
    obtain ⟨fs', hsave⟩ := hwritable (SnapshotLog.render
      ⟨Snapshot.pending components time :: (held.getD .empty).snapshots⟩)
    rw [show save path ⟨Snapshot.pending components time :: (held.getD .empty).snapshots⟩ fs =
      .ok fs' from hsave]
    exact ⟨rfl, FileSystem.canReplace_of_replaceFile hsave, mirrors_of_save hsave⟩

theorem staysTied_verdict (hwritable : fs.CanReplace path) (htied : Mirrors path fs held)
    (updated : Snapshot) (now : Instant) :
    StaysTied path (onFile path fs (.change (.verdict updated now)))
      (inMemory path held (.change (.verdict updated now))) := by
  simp only [StoreCall.onFile, StoreCall.inMemory, recordVerdict]
  by_cases hnone : (!updated.status.isFinal) = true
  · rw [if_pos hnone, if_pos hnone]
    exact staysTied_of_unchanged hwritable htied _
  rw [if_neg hnone, if_neg hnone, htied]
  cases held with
  | none => exact staysTied_of_unchanged hwritable htied _
  | some log =>
    simp only [Option.elim, LogChange.apply]
    cases hrecord : log.recordVerdict updated now with
    | error failure => exact staysTied_of_unchanged hwritable htied _
    | ok result =>
      obtain ⟨stored, log'⟩ := result
      obtain ⟨fs', hsave⟩ := hwritable log'.render
      simp only [save, hsave]
      exact ⟨rfl, FileSystem.canReplace_of_replaceFile hsave, mirrors_of_save hsave⟩

theorem mirrors_step (hwritable : fs.CanReplace path) (htied : Mirrors path fs held)
    (call : StoreCall) :
    StaysTied path (onFile path fs call) (inMemory path held call) := by
  cases call with
  | change change =>
    cases change with
    | offer components time => exact staysTied_offer hwritable htied components time
    | verdict updated now => exact staysTied_verdict hwritable htied updated now
  | nextPending => exact staysTied_lookUp hwritable htied _
  | withId id => exact staysTied_lookUp hwritable htied _
  | atPosition index => exact staysTied_lookUp hwritable htied _

/-- A call that answers so has left the file system as it was. -/
theorem onFile_leavesAlone {call : StoreCall}
    (h : StoreAnswer.LeavesAlone (onFile path fs call).1) : (onFile path fs call).2 = fs := by
  cases call with
  | change change =>
    cases change with
    | offer components time =>
      simp only [StoreCall.onFile] at h ⊢
      cases hnew : (loadOrEmpty path fs).holdsNewest components with
      | true =>
        rw [offer_of_holdsNewest hnew]
        rfl
      | false =>
        rw [offer_of_not_holdsNewest hnew] at h ⊢
        -- a new entry leaves the file system alone only if it could not be written
        cases hsave : save path _ fs with
        | error failure => rfl
        | ok fs' =>
          rw [hsave] at h
          exact h.elim
    | verdict updated now =>
      simp only [StoreCall.onFile] at h ⊢
      cases hrecord : recordVerdict path updated now fs with
      | error failure => rfl
      | ok result =>
        rw [hrecord] at h
        exact h.elim
  | nextPending => rfl
  | withId id => rfl
  | atPosition index => rfl

/-! ## Any number of calls -/

theorem mirrors_run (calls : List StoreCall) (hwritable : fs.CanReplace path)
    (htied : Mirrors path fs held)
    (hfits : ∀ i ≤ calls.length, FitsLimit path (stateAfter (onFile path) fs (calls.take i))) :
    answers (onFile path) fs calls = answers (inMemory path) held calls ∧
      ∀ i, Mirrors path (stateAfter (onFile path) fs (calls.take i))
        (stateAfter (inMemory path) held (calls.take i)) := by
  induction calls generalizing fs held with
  | nil =>
    refine ⟨rfl, fun i => ?_⟩
    rw [List.take_nil]
    exact htied
  | cons call calls ih =>
    obtain ⟨hanswer, hwritable', htied'⟩ := mirrors_step hwritable htied call
    have hfits' : ∀ i ≤ calls.length,
        FitsLimit path (stateAfter (onFile path) (onFile path fs call).2 (calls.take i)) :=
      fun i hi => hfits (i + 1) (Nat.succ_le_succ hi)
    -- what the call left behind is the first state of the remaining run
    have htied' := htied' (hfits' 0 (Nat.zero_le _))
    obtain ⟨hanswers, hmirrors⟩ := ih hwritable' htied' hfits'
    refine ⟨?_, fun i => ?_⟩
    · simp only [StoreCall.answers, hanswer, hanswers]
    · cases i with
      | zero => exact htied
      | succ i => exact hmirrors i

/-- **A log on file acts as a log.** Let the file at a path be missing or hold a log, let it be
possible to replace it, and let no file that is written be too large to be read. Then any calls of
the store answer what the log answers that is held in its place; after each of them the file is
loaded as that log, or is still missing; and at any moment a call that fails, or that has nothing
new to write, leaves the file system as it is. -/
theorem store_acts_as_log (calls : List StoreCall) (hwritable : fs.CanReplace path)
    (htied : Mirrors path fs held)
    (hfits : ∀ i ≤ calls.length, FitsLimit path (stateAfter (onFile path) fs (calls.take i))) :
    answers (onFile path) fs calls = answers (inMemory path) held calls ∧
      (∀ i, Mirrors path (stateAfter (onFile path) fs (calls.take i))
        (stateAfter (inMemory path) held (calls.take i))) ∧
      ∀ i call, StoreAnswer.LeavesAlone
          (onFile path (stateAfter (onFile path) fs (calls.take i)) call).1 →
        (onFile path (stateAfter (onFile path) fs (calls.take i)) call).2 =
          stateAfter (onFile path) fs (calls.take i) := by
  obtain ⟨hanswers, hmirrors⟩ := mirrors_run calls hwritable htied hfits
  exact ⟨hanswers, hmirrors, fun _ _ h => onFile_leavesAlone h⟩

theorem store_acts_as_log_from_nothing :
    answers (onFile "/log") ⟨[], []⟩
        [.change (.verdict ((Snapshot.pending [] .epoch).withVerdict .failed .epoch) .epoch),
          .change (.offer [] .epoch), .nextPending] =
      [.error (.logMissing "/log"),
        .ok (.changed (.offered (.inserted "1970-01-01T00:00:00.000000Z"))),
        .ok (.found (some (Snapshot.pending [] .epoch)))] := by
  have hwritable : FileSystem.CanReplace ⟨[], []⟩ "/log" :=
    FileSystem.canReplace_iff.2 ⟨_, FileSystem.replaces_log_of_nothing⟩
  have hnothing : FileSystem.inspect ⟨[], []⟩ "/log" = .error .notFound := by decide +kernel
  rw [(store_acts_as_log _ hwritable (mirrors_none hnothing) (by decide +kernel)).1]
  decide +kernel

end StoredLog

end ReleaseCandidates
