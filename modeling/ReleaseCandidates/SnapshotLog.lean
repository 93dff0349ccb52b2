import ReleaseCandidates.Snapshot

set_option autoImplicit false

/-! # The snapshot log

The log keeps every distinct set of components that a scan has found, newest first. It only ever
grows at the front; of an entry that is in it, nothing changes but the verdict, and that once. -/

namespace ReleaseCandidates

/-- Snapshots, newest first. -/
structure SnapshotLog where
  snapshots : List Snapshot
  deriving DecidableEq, Repr

/-- What became of components offered to the log. -/
inductive OfferOutcome where
  /-- They differ from the newest snapshot's and were recorded under an identity. -/
  | inserted (id : String)
  /-- They are those of the newest snapshot. -/
  | unchanged
  deriving DecidableEq, Repr

namespace SnapshotLog

/-- The log without entries. -/
def empty : SnapshotLog := ⟨[]⟩

/-- The number of entries. -/
def size (log : SnapshotLog) : Nat := log.snapshots.length

/-- The newest entry. -/
def newest? (log : SnapshotLog) : Option Snapshot := log.snapshots.head?

/-! ## Growing -/

/-- Whether the newest entry holds the components. -/
def holdsNewest (log : SnapshotLog) (components : List Component) : Bool :=
  match log.newest? with
  | some newest => sameComponents newest.components components
  | none => false

/-- Offers components found at an instant: they are recorded as a pending snapshot unless the
newest entry holds them already. -/
def offer (log : SnapshotLog) (components : List Component) (time : Instant) :
    OfferOutcome × SnapshotLog :=
  if log.holdsNewest components then (.unchanged, log)
  else
    let snapshot := Snapshot.pending components time
    (.inserted snapshot.id, ⟨snapshot :: log.snapshots⟩)

theorem offer_of_holdsNewest {log : SnapshotLog} {components : List Component}
    (time : Instant) (h : log.holdsNewest components = true) :
    log.offer components time = (.unchanged, log) := by
  simp [offer, h]

theorem offer_of_not_holdsNewest {log : SnapshotLog} {components : List Component}
    (time : Instant) (h : log.holdsNewest components = false) :
    log.offer components time =
      (.inserted time.format, ⟨Snapshot.pending components time :: log.snapshots⟩) := by
  simp [offer, h, Snapshot.pending, Snapshot.id]

/-! ## Looking up -/

/-- The entries that wait for their tests, newest first. -/
def waiting (log : SnapshotLog) : List Snapshot :=
  log.snapshots.filter Snapshot.isPending

/-- The later of the best entry so far and a candidate; the earlier found stays on a tie. -/
def later (best : Option Snapshot) (candidate : Snapshot) : Option Snapshot :=
  match best with
  | some current =>
    if candidate.compareAge current = .gt then some candidate else some current
  | none => some candidate

/-- The pending entry that was made last. -/
def nextPending? (log : SnapshotLog) : Option Snapshot :=
  log.waiting.foldl later none

/-- The first entry with an identity. -/
def withId? (log : SnapshotLog) (id : String) : Option Snapshot :=
  log.snapshots.find? fun s => s.id == id

/-- The entry at a position, the newest at 0. -/
def atPosition? (log : SnapshotLog) (index : Nat) : Option Snapshot :=
  log.snapshots[index]?

/-! ## Recording a verdict -/

/-- Records a verdict on the first entry with an identity: the changed entry and all entries. -/
def completeFirst (id : String) (status : Status) (time : Instant) :
    List Snapshot → Except Failure (Snapshot × List Snapshot)
  | [] => .error (.snapshotUnknown id)
  | s :: rest =>
    if s.id = id then
      match s.complete status time with
      | .ok done => .ok (done, done :: rest)
      | .error failure => .error failure
    else
      match completeFirst id status time rest with
      | .ok (done, rest) => .ok (done, s :: rest)
      | .error failure => .error failure

/-- The time of the verdict that a copy carries; `now` where it carries none that can be read. -/
def verdictTime (updated : Snapshot) (now : Instant) : Instant :=
  ((updated.testedAt.bind Instant.parse?).getD now)

/-- Copies the verdict of `updated` to the first entry with its identity. Only status and time are
taken over; the components of the entry are kept. -/
def recordVerdict (log : SnapshotLog) (updated : Snapshot) (now : Instant) :
    Except Failure (Snapshot × SnapshotLog) :=
  match completeFirst updated.id updated.status (verdictTime updated now) log.snapshots with
  | .ok (done, snapshots) => .ok (done, ⟨snapshots⟩)
  | .error failure => .error failure

/-- A recorded verdict changes no entry's identity and no entry's components. -/
theorem completeFirst_frame {id : String} {status : Status} {time : Instant}
    {entries after : List Snapshot} {done : Snapshot}
    (h : completeFirst id status time entries = .ok (done, after)) :
    after.map Snapshot.id = entries.map Snapshot.id ∧
      after.map Snapshot.components = entries.map Snapshot.components := by
  induction entries generalizing after with
  | nil => simp [completeFirst] at h
  | cons s rest ih =>
    simp only [completeFirst] at h
    split at h
    · split at h
      · rename_i done' hc
        obtain ⟨rfl, rfl⟩ : done' = done ∧ done' :: rest = after := by simpa using h
        rw [Snapshot.complete_eq_ok_iff] at hc
        simp [hc.2.2]
      · cases h
    · split at h
      · rename_i done' rest' hc
        obtain ⟨rfl, rfl⟩ : done' = done ∧ s :: rest' = after := by simpa using h
        simp [ih hc]
      · cases h

end SnapshotLog

end ReleaseCandidates
