import ReleaseCandidates.Proofs.Instant.SignedYears
import ReleaseCandidates.Proofs.TestRun.Meanwhile

set_option autoImplicit false

/-! # The time of a verdict

A verdict is reached at one time and written to the log at another. On the way it is carried by a
copy of the entry, with its time as text. Whoever writes it reads that text, and takes the clock
where the text cannot be read. So the time that is stored is the one at which the verdict was
reached as long as that lies in the years 0 to 9999, and the one at which it was written in any
other year (`SnapshotLog.recordVerdict_withVerdict`); nothing else of a run of tests depends on when
its verdict is written (`TestRun.run_written`).

Main statement: `SnapshotLog.verdict_keeps_its_time`. -/

namespace ReleaseCandidates

/-- A verdict is stored with the microsecond that it was reached in. -/
theorem Snapshot.withVerdict_cutToMicros (s : Snapshot) (status : Status) (time : Instant) :
    s.withVerdict status time.cutToMicros = s.withVerdict status time := by
  rw [withVerdict, withVerdict, Instant.format_cutToMicros]

namespace SnapshotLog

variable {log : SnapshotLog} {k : Nat} {copy e : Snapshot} {status : Status}
  {reached written : Instant}

/-! ## Which time is stored -/

/-- The time that is stored for a verdict reached at one time and written at another. -/
def storedTime (reached written : Instant) : Instant :=
  if reached.InPlainYear then reached else written

/-- What is read from the copy that carries a verdict. -/
theorem verdictTime_withVerdict (copy : Snapshot) (status : Status) (reached written : Instant) :
    verdictTime (copy.withVerdict status reached) written =
      if reached.InPlainYear then reached.cutToMicros else written := by
  rw [verdictTime, Snapshot.testedAt_withVerdict, Option.bind_some, Instant.parse?_format_eq]
  split <;> rfl

/-- An entry takes the time that is read from the copy as it takes the time that is stored. -/
theorem withVerdict_verdictTime (e copy : Snapshot) (status : Status) (reached written : Instant) :
    e.withVerdict status (verdictTime (copy.withVerdict status reached) written) =
      e.withVerdict status (storedTime reached written) := by
  rw [verdictTime_withVerdict, storedTime]
  split
  · exact e.withVerdict_cutToMicros status reached
  · rfl

/-- What a copy of a waiting entry writes back: the entry with the verdict, in its place. -/
theorem recordVerdict_withVerdict (reached written : Instant)
    (hfirst : log.FirstWaiting copy.id k e) (hstatus : status ≠ .pending) :
    log.recordVerdict (copy.withVerdict status reached) written =
      .ok (e.withVerdict status (storedTime reached written),
        ⟨log.snapshots.set k (e.withVerdict status (storedTime reached written))⟩) := by
  have hdone (time : Instant) := Snapshot.complete_of_pending time hfirst.pending hstatus
  have hid : e.id = (copy.withVerdict status reached).id := hfirst.identity
  rw [recordVerdict_eq_of_first written hfirst.entry hid hfirst.first,
    Snapshot.status_withVerdict, hdone, withVerdict_verdictTime]
  rfl

/-! ## The time survives -/

/-- **A verdict keeps the time it was reached at.** Let an entry be the first one with its identity
and be pending, and let a copy of it, which need only be pending and have its identity and may hold
any components, take a final verdict at a time in the years 0 to 9999. Whenever that copy is written
back, the log is the one in which the entry itself took the verdict at that time: its components are
its own, and every other entry is as it was. -/
theorem verdict_keeps_its_time (hfirst : log.FirstWaiting copy.id k e)
    (hcopy : copy.status = .pending) (hstatus : status.isFinal = true)
    (hyear : reached.InPlainYear) :
    ∃ carried done, copy.complete status reached = .ok carried ∧
      e.complete status reached = .ok done ∧
      done.testedAt = some reached.format ∧ done.components = e.components ∧
      ∀ written, log.recordVerdict carried written =
        .ok (done, ⟨log.snapshots.set k done⟩) := by
  have hfinal : status ≠ .pending := Status.isFinal_iff.1 hstatus
  refine ⟨copy.withVerdict status reached, e.withVerdict status reached,
    Snapshot.complete_of_pending reached hcopy hfinal,
    Snapshot.complete_of_pending reached hfirst.pending hfinal,
    e.testedAt_withVerdict status reached, e.components_withVerdict status reached,
    fun written => ?_⟩
  have hstored : storedTime reached written = reached := if_pos hyear
  rw [recordVerdict_withVerdict reached written hfirst hfinal, hstored]

/-- A log whose oldest two entries have one identity, with a newer one before them. -/
def twinsBehindNewer : SnapshotLog :=
  ⟨[Snapshot.pending [] (.atSecond 1), Snapshot.pending [.ofRelease "o/a" "1"] .epoch,
    Snapshot.pending [] .epoch]⟩

theorem firstWaiting_twinsBehindNewer :
    twinsBehindNewer.FirstWaiting (Snapshot.pending [] .epoch).id 1
      (Snapshot.pending [.ofRelease "o/a" "1"] .epoch) := by
  refine ⟨rfl, rfl, fun j hj d hd => ?_, rfl⟩
  obtain rfl : j = 0 := Nat.lt_one_iff.1 hj
  obtain rfl := Option.some.inj hd
  decide

/-- A verdict reached in a leap second, and carried by a copy that has lost its components. -/
theorem verdict_keeps_its_leap_second :
    twinsBehindNewer.FirstWaiting (Snapshot.pending [] .epoch).id 1
        (Snapshot.pending [.ofRelease "o/a" "1"] .epoch) ∧ Instant.leapDayEnd.InPlainYear ∧
      ∀ written, twinsBehindNewer.recordVerdict
          ((Snapshot.pending [] .epoch).withVerdict .failed .leapDayEnd) written =
        .ok (⟨⟨Instant.epoch.format, .failed, some "0000-02-29T23:59:60.999999Z"⟩,
            [.ofRelease "o/a" "1"]⟩,
          ⟨[Snapshot.pending [] (.atSecond 1),
            ⟨⟨Instant.epoch.format, .failed, some "0000-02-29T23:59:60.999999Z"⟩,
              [.ofRelease "o/a" "1"]⟩,
            Snapshot.pending [] .epoch]⟩) := by
  have htext : Instant.leapDayEnd.format = "0000-02-29T23:59:60.999999Z" := by decide
  have hyear : Instant.leapDayEnd.InPlainYear := by decide
  have hfinal : Status.failed.isFinal = true := rfl
  obtain ⟨carried, done, hcarried, hdone, -, -, hwritten⟩ :=
    verdict_keeps_its_time firstWaiting_twinsBehindNewer rfl hfinal hyear
  obtain rfl : (Snapshot.pending [] .epoch).withVerdict .failed .leapDayEnd = carried :=
    Except.ok.inj hcarried
  obtain rfl : (Snapshot.pending [.ofRelease "o/a" "1"] .epoch).withVerdict .failed .leapDayEnd =
      done := Except.ok.inj hdone
  rw [← htext]
  exact ⟨firstWaiting_twinsBehindNewer, hyear, hwritten⟩

end SnapshotLog

/-! ## Runs -/

namespace TestRun

variable {τ : Type} {reached : Instant}

theorem conclude_written (hyear : reached.InPlainYear) (path : String) (s : Snapshot)
    (status : Status) (written written' : Instant) (fs : FileSystem) :
    conclude path s status reached written fs = conclude path s status reached written' fs := by
  unfold conclude
  cases hcopy : s.complete status reached with
  | error failure => rfl
  | ok copy =>
    obtain ⟨-, -, rfl⟩ := Snapshot.complete_eq_ok_iff.1 hcopy
    simp only [StoredLog.recordVerdict, SnapshotLog.recordVerdict,
      SnapshotLog.verdictTime_withVerdict, if_pos hyear]

/-- What a run answers and what it leaves on file do not depend on when its verdict is written, as
long as it was reached in the years 0 to 9999. -/
theorem run_written (hyear : reached.InPlainYear) (path : String) (action : TestAction τ)
    (selector : SnapshotChoice) (dryRun : Bool) (written written' : Instant) :
    run path action selector dryRun reached written =
      run path action selector dryRun reached written' := by
  funext ⟨fs, t⟩
  have hconclude := fun s status fs => conclude_written hyear path s status written written' fs
  simp only [run, hconclude]

end TestRun

end ReleaseCandidates
