import ReleaseCandidates.Component
import ReleaseCandidates.Failure
import ReleaseCandidates.Instant.Text

set_option autoImplicit false

/-! # Snapshots

A snapshot is what one scan found, together with the standing of its tests. The time of the scan,
as text, is its identity in the log. -/

namespace ReleaseCandidates

/-- When a snapshot was made and where it stands with its tests. -/
structure SnapshotStanding where
  generatedAt : String
  status : Status
  testedAt : Option String
  deriving DecidableEq, Repr

/-- One set of components and the standing of its tests. -/
structure Snapshot where
  metadata : SnapshotStanding
  components : List Component
  deriving DecidableEq, Repr

namespace Snapshot

/-- The snapshot's identity in the log. -/
def id (s : Snapshot) : String := s.metadata.generatedAt

/-- Where the snapshot stands with its tests. -/
def status (s : Snapshot) : Status := s.metadata.status

/-- When the tests finished, as text. -/
def testedAt (s : Snapshot) : Option String := s.metadata.testedAt

/-- A snapshot made at an instant, waiting for its tests. -/
def pending (components : List Component) (time : Instant) : Snapshot where
  metadata := { generatedAt := time.format, status := .pending, testedAt := none }
  components := components

/-- Whether the snapshot waits for its tests. -/
def isPending (s : Snapshot) : Bool :=
  s.status == .pending

/-- The instant the snapshot was made at, if its text names one. -/
def time? (s : Snapshot) : Option Instant :=
  Instant.parse? s.metadata.generatedAt

/-- The snapshot with a final status and the time of the verdict; components are kept. -/
def withVerdict (s : Snapshot) (status : Status) (time : Instant) : Snapshot :=
  { s with metadata :=
    { generatedAt := s.metadata.generatedAt, status := status, testedAt := some time.format } }

/-- Records a verdict. Only a pending snapshot takes one, and `pending` is none. -/
def complete (s : Snapshot) (status : Status) (time : Instant) : Except Failure Snapshot :=
  if s.status.isFinal || !status.isFinal then
    .error (.transitionRefused s.id s.status (.status status))
  else .ok (s.withVerdict status time)

theorem complete_eq_ok_iff {s t : Snapshot} {status : Status} {time : Instant} :
    s.complete status time = .ok t ↔
      s.status = .pending ∧ status ≠ .pending ∧ t = s.withVerdict status time := by
  unfold complete
  cases hs : s.status <;> cases status <;> simp [Status.isFinal, eq_comm]

/-- A pending snapshot takes every final verdict. -/
theorem complete_of_pending {s : Snapshot} {status : Status} (time : Instant)
    (hs : s.status = .pending) (hstatus : status ≠ .pending) :
    s.complete status time = .ok (s.withVerdict status time) :=
  complete_eq_ok_iff.2 ⟨hs, hstatus, rfl⟩

@[simp] theorem id_withVerdict (s : Snapshot) (status : Status) (time : Instant) :
    (s.withVerdict status time).id = s.id := rfl

@[simp] theorem components_withVerdict (s : Snapshot) (status : Status) (time : Instant) :
    (s.withVerdict status time).components = s.components := rfl

@[simp] theorem status_withVerdict (s : Snapshot) (status : Status) (time : Instant) :
    (s.withVerdict status time).status = status := rfl

@[simp] theorem testedAt_withVerdict (s : Snapshot) (status : Status) (time : Instant) :
    (s.withVerdict status time).testedAt = some time.format := rfl

/-- Order by age: in time where both times can be read and differ, else by the text of the
identity. -/
def compareAge (a b : Snapshot) : Ordering :=
  match a.time?, b.time? with
  | some ta, some tb => if ta = tb then Ord.compare a.id b.id else ta.compare tb
  | _, _ => Ord.compare a.id b.id

end Snapshot

end ReleaseCandidates
