import Mathlib.Data.List.Permutation
import ReleaseCandidates.Proofs.SnapshotLog.Turns

set_option autoImplicit false

/-! # Test runs one after another

A run that is given no choice tests the entry whose turn it is. Where identities are distinct the
verdict reaches this entry, whatever its action did, so the next run has one pending entry less
before it, and the other entries keep their turns: these depend on nothing that a verdict changes.
Once no entry is pending, further runs do nothing at all.

Main statement: `TestRun.rounds_drain`. -/

namespace ReleaseCandidates

/-- Where identities are distinct, no entry before an entry has its identity. -/
theorem SnapshotLog.noneBefore_of_nodup {log : SnapshotLog} {s : Snapshot} {k : Nat}
    (hnodup : log.ids.Nodup) (h : log.snapshots[k]? = some s) : log.NoneBefore k s.id :=
  fun _ hj _ he => id_ne_of_nodup hnodup he h hj

theorem SnapshotLog.ids_set {log : SnapshotLog} {s : Snapshot} {k : Nat}
    (h : log.snapshots[k]? = some s) (status : Status) (time : Instant) :
    ids ⟨log.snapshots.set k (s.withVerdict status time)⟩ = log.ids := by
  obtain ⟨hk, rfl⟩ := List.getElem?_eq_some_iff.1 h
  rw [ids, ids, List.map_set, Snapshot.id_withVerdict, ← List.getElem_map Snapshot.id,
    List.set_getElem_self]
  rwa [List.length_map]

namespace TestAction

variable {τ : Type}

/-- The action, with a record of its starts: the variables of each. -/
def recorded (action : TestAction τ) : TestAction (List Variables × τ) where
  describe := action.describe
  run vars := fun (fs, starts, t) =>
    let (result, fs, t) := action.run vars (fs, t)
    (result, fs, starts ++ [vars], t)

/-- The action leaves what the path names as it is, and leaves it open to be written. -/
structure Spares (action : TestAction τ) (path : String) : Prop where
  same : ∀ vars fs t, (action.run vars (fs, t)).2.1.inspect path = fs.inspect path
  writable : ∀ vars fs t, fs.CanReplace path → (action.run vars (fs, t)).2.1.CanReplace path

end TestAction

namespace TestRun

variable {τ : Type} {path : String}

/-! ## Rounds -/

/-- One of several test runs: its action, and what the clock says when the tests are over and when
the verdict is written. -/
structure Round (τ : Type) where
  action : TestAction τ
  reached : Instant
  written : Instant

/-- What there is between two runs: the files, the starts of actions so far, and what else the
actions have to do with. -/
abbrev RoundState (τ : Type) := FileSystem × List Variables × τ

/-- A run of the tests for the entry whose turn it is. -/
def Round.run (path : String) (r : Round τ) (state : RoundState τ) :
    Except Failure TestRunResult × RoundState τ :=
  TestRun.run path r.action.recorded .pending false r.reached r.written state

/-- What the action of a round does if it is started for an entry. -/
def Round.act (r : Round τ) (s : Snapshot) (state : RoundState τ) :
    Except Failure ActionResult × FileSystem × τ :=
  r.action.run (TestEnvironment.ofComponents s.components).vars (state.1, state.2.2)

/-- What there is after some rounds. -/
def afterRounds (path : String) (rounds : List (Round τ)) (state : RoundState τ) : RoundState τ :=
  rounds.foldl (fun state r => (r.run path state).2) state

theorem afterRounds_nil (state : RoundState τ) : afterRounds path [] state = state := rfl

theorem afterRounds_cons (r : Round τ) (rounds : List (Round τ)) (state : RoundState τ) :
    afterRounds path (r :: rounds) state = afterRounds path rounds (r.run path state).2 := rfl

/-- A round tests the pending entry `s` at position `k` of a log: its action is started once, for
this entry, and the entry takes the status that it deserves by what the action did. -/
structure Tests (path : String) (r : Round τ) (log : SnapshotLog) (s : Snapshot) (k : Nat)
    (state : RoundState τ) : Prop where
  entry : log.snapshots[k]? = some s
  pending : s.status = .pending
  started : (r.run path state).2.2.1 =
    state.2.1 ++ [(TestEnvironment.ofComponents s.components).vars]
  verdict : VerdictAt path log k s (r.act s state).1 (r.run path state)

/-- Each round tests the entry whose turn it is in the log that is then on file. Rounds that are
left over find nothing pending, start no action and change nothing. -/
def TestsInTurn (path : String) (turns : List (Snapshot × Nat)) (rounds : List (Round τ))
    (state : RoundState τ) : Prop :=
  ∀ i r, rounds[i]? = some r →
    (∀ s k, turns[i]? = some (s, k) →
      ∃ log, StoredLog.load path (afterRounds path (rounds.take i) state).1 = .ok log ∧
        Tests path r log s k (afterRounds path (rounds.take i) state)) ∧
    (turns.length ≤ i →
      r.run path (afterRounds path (rounds.take i) state) =
        (.ok .nothingPending, afterRounds path (rounds.take i) state))

/-- What rounds need of the file that they save the log to: it can be replaced, and what some of
them have left there is not too large to be read by the next. -/
structure SavesSucceed (path : String) (rounds : List (Round τ)) (state : RoundState τ) :
    Prop where
  writable : state.1.CanReplace path
  readable : ∀ i < rounds.length,
    StoredLog.FitsLimit path (afterRounds path (rounds.take i) state).1

/-! ## One round -/

section OneRound

variable {r : Round τ} {state : RoundState τ} {log : SnapshotLog} {s : Snapshot} {k : Nat}

/-- The log after a round that has tested an entry of it. -/
def Round.logAfter (r : Round τ) (log : SnapshotLog) (s : Snapshot) (k : Nat)
    (state : RoundState τ) : SnapshotLog :=
  ⟨log.snapshots.set k (s.withVerdict (verdict (r.act s state).1)
    (SnapshotLog.verdictTime (s.withVerdict (verdict (r.act s state).1) r.reached) r.written))⟩

theorem chosen_of_best (hbest : log.waitingAt.foldl SnapshotLog.laterAt none = some (s, k)) :
    Chosen log .pending k s := by
  rw [← SnapshotLog.nextPendingAt?_eq] at hbest
  obtain ⟨hentry, hpending⟩ := SnapshotLog.nextPendingAt?_eq_some hbest
  exact ⟨by rw [SnapshotChoice.position?, hbest]; rfl, hentry, hpending⟩

/-- A round finds nothing pending if no entry is. -/
theorem round_idle (hlog : StoredLog.load path state.1 = .ok log)
    (hbest : log.waitingAt.foldl SnapshotLog.laterAt none = none) :
    r.run path state = (.ok .nothingPending, state) := by
  have hnone : log.nextPending? = none := by
    rw [← SnapshotLog.map_nextPendingAt?, SnapshotLog.nextPendingAt?_eq, hbest]
    rfl
  have hselect : select path .pending state.1 = .ok none := by
    unfold select StoredLog.nextPending
    rw [hlog, Except.map, hnone]
  obtain ⟨fs, starts, t⟩ := state
  simp only [Round.run, run, hselect]

variable (hlog : StoredLog.load path state.1 = .ok log) (hids : log.ids.Nodup)
  (hspares : r.action.Spares path) (hwritable : state.1.CanReplace path)
  (hbest : log.waitingAt.foldl SnapshotLog.laterAt none = some (s, k))

include hlog hids hspares hwritable hbest

/-- A round starts its action for the entry whose turn it is, and writes the log back with the
verdict for this entry. -/
theorem round_eq : ∃ time fs',
    r.logAfter log s k state =
      ⟨log.snapshots.set k (s.withVerdict (verdict (r.act s state).1) time)⟩ ∧
    StoredLog.save path (r.logAfter log s k state) (r.act s state).2.1 = .ok fs' ∧
    r.run path state = (.ok (.completed (s.withVerdict (verdict (r.act s state).1) time)), fs',
      state.2.1 ++ [(TestEnvironment.ofComponents s.components).vars], (r.act s state).2.2) := by
  have hchosen := chosen_of_best hbest
  have hcurrent : StoredLog.load path (r.act s state).2.1 = .ok log :=
    (load_of_inspect_eq (hspares.same ..)).trans hlog
  have haction : r.action.recorded.run (TestEnvironment.ofComponents s.components).vars state =
      ((r.act s state).1, (r.act s state).2.1,
        state.2.1 ++ [(TestEnvironment.ofComponents s.components).vars], (r.act s state).2.2) :=
    rfl
  obtain ⟨time, fs', htime, hsave, hrun⟩ := run_completes_current r.reached r.written
    ((select_eq_some_iff hlog).2 ⟨k, hchosen⟩) hchosen.pending haction hcurrent
    (hspares.writable _ _ _ hwritable) hchosen.entry rfl
    (SnapshotLog.noneBefore_of_nodup hids hchosen.entry) hchosen.pending
  have hafter : r.logAfter log s k state =
      ⟨log.snapshots.set k (s.withVerdict (verdict (r.act s state).1) time)⟩ := by
    rw [Round.logAfter, htime]
  exact ⟨time, fs', hafter, hafter ▸ hsave, hrun⟩

/-- A round tests the entry whose turn it is. -/
theorem round_tests : Tests path r log s k state := by
  have hchosen := chosen_of_best hbest
  obtain ⟨time, fs', hafter, hsave, hrun⟩ := round_eq hlog hids hspares hwritable hbest
  rw [hafter] at hsave
  refine ⟨hchosen.entry, hchosen.pending, by rw [hrun], verdictAt_iff.2 ?_⟩
  rw [hrun]
  exact .of_withVerdict time rfl (onFile_of_save hsave)

theorem round_saves : StoredLog.save path (r.logAfter log s k state) (r.act s state).2.1 =
    .ok (r.run path state).2.1 := by
  obtain ⟨time, fs', -, hsave, hrun⟩ := round_eq hlog hids hspares hwritable hbest
  rw [hrun]
  exact hsave

omit hlog hids hspares hwritable in
theorem waitingAt_logAfter : (r.logAfter log s k state).waitingAt = log.waitingAt.erase (s, k) :=
  SnapshotLog.waitingAt_set (chosen_of_best hbest).entry (chosen_of_best hbest).pending
    (verdict_ne_pending _)

end OneRound

/-! ## Several rounds -/

section Rounds

variable {r : Round τ} {rounds : List (Round τ)} {turns : List (Snapshot × Nat)}
  {state : RoundState τ} {log : SnapshotLog} {s : Snapshot} {k : Nat}

theorem TestsInTurn.nil : TestsInTurn path turns ([] : List (Round τ)) state :=
  fun _ _ h => nomatch h

theorem TestsInTurn.idle (hrun : r.run path state = (.ok .nothingPending, state))
    (h : TestsInTurn path [] rounds state) : TestsInTurn path [] (r :: rounds) state := by
  intro i d hd
  cases i with
  | zero =>
    obtain rfl : r = d := by simpa using hd
    exact ⟨nofun, fun _ => hrun⟩
  | succ i =>
    rw [List.take_succ_cons, afterRounds_cons, hrun]
    exact ⟨nofun, fun _ => (h i d hd).2 (Nat.zero_le i)⟩

theorem TestsInTurn.tested (hlog : StoredLog.load path state.1 = .ok log)
    (hrun : Tests path r log s k state) (h : TestsInTurn path turns rounds (r.run path state).2) :
    TestsInTurn path ((s, k) :: turns) (r :: rounds) state := by
  intro i d hd
  cases i with
  | zero =>
    obtain rfl : r = d := by simpa using hd
    refine ⟨fun e j he => ?_, nofun⟩
    obtain ⟨rfl, rfl⟩ : s = e ∧ k = j := by simpa using he
    exact ⟨log, hlog, hrun⟩
  | succ i =>
    obtain ⟨htests, hidle⟩ := h i d hd
    exact ⟨htests, fun hlength => hidle (Nat.le_of_succ_le_succ hlength)⟩

/-- The entries take their turns, from any log and any state in which it is on file. -/
theorem testsInTurn_waiting (hlog : rounds ≠ [] → StoredLog.load path state.1 = .ok log)
    (hids : log.ids.Nodup) (hspares : ∀ r ∈ rounds, r.action.Spares path)
    (hsaves : SavesSucceed path rounds state) :
    TestsInTurn path (SnapshotLog.inTurn log.waitingAt) rounds state := by
  induction rounds generalizing log state with
  | nil => exact .nil
  | cons r rest ih =>
    have hlog := hlog (List.cons_ne_nil r rest)
    obtain ⟨hspares, hspares'⟩ := List.forall_mem_cons.1 hspares
    have hreadable : ∀ i < rest.length, StoredLog.FitsLimit path
        (afterRounds path (rest.take i) (r.run path state).2).1 :=
      fun i hi => hsaves.readable (i + 1) (Nat.succ_lt_succ hi)
    cases hbest : log.waitingAt.foldl SnapshotLog.laterAt none with
    | none =>
      have hrun := round_idle (r := r) hlog hbest
      have hturns : SnapshotLog.inTurn log.waitingAt = [] := by
        rw [SnapshotLog.eq_nil_of_foldl_laterAt hbest, SnapshotLog.inTurn_nil]
      rw [hrun] at hreadable
      have hrest := ih (fun _ => hlog) hids hspares' ⟨hsaves.writable, hreadable⟩
      rw [hturns] at hrest ⊢
      exact .idle hrun hrest
    | some p =>
      obtain ⟨s, k⟩ := p
      have hsave := round_saves hlog hids hspares hsaves.writable hbest
      have hlog' : rest ≠ [] →
          StoredLog.load path (r.run path state).2.1 = .ok (r.logAfter log s k state) :=
        fun hrest => StoredLog.mirrors_of_save hsave (hreadable 0 (List.length_pos_iff.2 hrest))
      have hids' : (r.logAfter log s k state).ids.Nodup := by
        rw [Round.logAfter, SnapshotLog.ids_set (chosen_of_best hbest).entry]
        exact hids
      have hrest := ih hlog' hids' hspares'
        ⟨FileSystem.canReplace_of_replaceFile hsave, hreadable⟩
      rw [waitingAt_logAfter hbest] at hrest
      rw [SnapshotLog.inTurn_of_best hbest]
      exact .tested hlog (round_tests hlog hids hspares hsaves.writable hbest) hrest

/-- **Test runs drain the log.** Let a log with distinct identities be on file, and let there be any
number of runs that are given no choice, with any actions that leave the file alone; let the saves
succeed. Then the pending entries can be put in an order, in which those that were made later come
first if all their times can be read, and each run tests the next of them: its action is started
exactly once, for this entry, and the entry becomes successful if the action reported success and
failed otherwise, every other entry staying as it is. The runs after the last of them find nothing
pending, start no action and change nothing. -/
theorem rounds_drain (hlog : StoredLog.load path state.1 = .ok log) (hids : log.ids.Nodup)
    (hspares : ∀ r ∈ rounds, r.action.Spares path) (hsaves : SavesSucceed path rounds state) :
    ∃ order : List (Snapshot × Nat), order.Perm log.waitingAt ∧
      ((∀ s ∈ log.waiting, s.time?.isSome) → order.Pairwise fun p q => p.1.NotBefore q.1) ∧
      TestsInTurn path order rounds state := by
  refine ⟨SnapshotLog.inTurn log.waitingAt, SnapshotLog.inTurn_perm _, fun htimes => ?_,
    testsInTurn_waiting (fun _ => hlog) hids hspares hsaves⟩
  refine SnapshotLog.pairwise_inTurn fun q hq => htimes q.1 ?_
  exact SnapshotLog.mem_waiting_of_mem_waitingAt hq

end Rounds

/-! ## Three runs for two entries -/

/-- Tests that end in the same way each time and touch nothing. -/
def ending (result : Except Failure ActionResult) : Round Unit where
  action := { describe := "true", run _ := fun state => (result, state) }
  reached := .epoch
  written := .epoch

theorem ending_spares (result : Except Failure ActionResult) (path : String) :
    (ending result).action.Spares path :=
  ⟨fun _ _ _ => rfl, fun _ _ _ h => h⟩

/-- An entry that waits for its tests. -/
def older : Snapshot :=
  Snapshot.pending [] .epoch

/-- An entry that was made a second later. -/
def newer : Snapshot :=
  Snapshot.pending [] (.atSecond 1)

theorem older_before_newer : ¬ older.NotBefore newer := by
  have holder : older.time? = some .epoch := by decide +kernel
  have hnewer : newer.time? = some (.atSecond 1) := by decide +kernel
  intro h
  exact h _ _ holder hnewer (.inl (by decide))

/-- Two pending entries. -/
def twoWaiting : SnapshotLog :=
  ⟨[older, newer]⟩

theorem act_ending (result : Except Failure ActionResult) (s : Snapshot) (state : RoundState Unit) :
    (ending result).act s state = (result, state.1, state.2.2) := rfl

theorem logAfter_ending (result : Except Failure ActionResult) (log : SnapshotLog) (s : Snapshot)
    (k : Nat) (state : RoundState Unit) : (ending result).logAfter log s k state =
      ⟨log.snapshots.set k (s.withVerdict (verdict result) .epoch)⟩ := by
  have htime : (Instant.parse? Instant.epoch.format).getD .epoch = .epoch := by decide +kernel
  have hverdict : SnapshotLog.verdictTime (s.withVerdict (verdict result) (ending result).reached)
      (ending result).written = .epoch := by
    rw [SnapshotLog.verdictTime, Snapshot.testedAt_withVerdict, Option.bind_some]
    exact htime
  rw [Round.logAfter, act_ending, hverdict]

/-- Tests that fail. -/
def exitOne : Except Failure ActionResult :=
  .ok { success := false, exitCode := some 1 }

/-- Tests that cannot be started. -/
def noSuchFile : Except Failure ActionResult :=
  .error (.reported "no such file")

/-- Before the runs the log is on file, and no action has been started. -/
def start : RoundState Unit :=
  (StoredLog.onlyLog twoWaiting, [], ())

/-- The log after the first run. -/
def oneWaiting : SnapshotLog :=
  ⟨[older, newer.withVerdict .failed .epoch]⟩

/-- The log after the second run. -/
def noneWaiting : SnapshotLog :=
  ⟨[older.withVerdict .failed .epoch, newer.withVerdict .failed .epoch]⟩

theorem size_twoWaiting : twoWaiting.render.utf8ByteSize ≤ FileSystem.sizeLimit := by
  rw [SnapshotLog.render, Yaml.Tree.render, String.utf8ByteSize_ofList]
  decide +kernel

theorem size_oneWaiting : oneWaiting.render.utf8ByteSize ≤ FileSystem.sizeLimit := by
  rw [SnapshotLog.render, Yaml.Tree.render, String.utf8ByteSize_ofList]
  decide +kernel

theorem size_noneWaiting : noneWaiting.render.utf8ByteSize ≤ FileSystem.sizeLimit := by
  rw [SnapshotLog.render, Yaml.Tree.render, String.utf8ByteSize_ofList]
  decide +kernel

theorem load_twoWaiting : StoredLog.load "/log" start.1 = .ok twoWaiting :=
  StoredLog.load_of_save (StoredLog.save_onlyLog twoWaiting) size_twoWaiting

theorem save_oneWaiting :
    StoredLog.save "/log" oneWaiting start.1 = .ok ((ending exitOne).run "/log" start).2.1 := by
  have hbest : twoWaiting.waitingAt.foldl SnapshotLog.laterAt none = some (newer, 1) := by
    decide +kernel
  have hafter : (ending exitOne).logAfter twoWaiting newer 1 start = oneWaiting :=
    logAfter_ending ..
  rw [← hafter]
  exact round_saves (r := ending exitOne) load_twoWaiting (by decide +kernel) (ending_spares _ _)
    (StoredLog.canReplace_onlyLog twoWaiting) hbest

theorem load_oneWaiting :
    StoredLog.load "/log" ((ending exitOne).run "/log" start).2.1 = .ok oneWaiting :=
  StoredLog.load_of_save save_oneWaiting size_oneWaiting

theorem save_noneWaiting :
    StoredLog.save "/log" noneWaiting ((ending exitOne).run "/log" start).2.1 =
      .ok ((ending noSuchFile).run "/log" ((ending exitOne).run "/log" start).2).2.1 := by
  have hbest : oneWaiting.waitingAt.foldl SnapshotLog.laterAt none = some (older, 0) := by
    decide +kernel
  have hafter (state : RoundState Unit) :
      (ending noSuchFile).logAfter oneWaiting older 0 state = noneWaiting :=
    logAfter_ending ..
  have hsave := round_saves (r := ending noSuchFile) load_oneWaiting (by decide +kernel)
    (ending_spares _ _) (FileSystem.canReplace_of_replaceFile save_oneWaiting) hbest
  simp only [act_ending, hafter] at hsave
  exact hsave

theorem savesSucceed_three_rounds (r : Round Unit) :
    SavesSucceed "/log" [ending exitOne, ending noSuchFile, r] start := by
  refine ⟨StoredLog.canReplace_onlyLog twoWaiting, fun i hi => ?_⟩
  obtain rfl | rfl | rfl : i = 0 ∨ i = 1 ∨ i = 2 := by
    rw [List.length_cons, List.length_cons, List.length_singleton] at hi
    omega
  · exact StoredLog.fitsLimit_of_save (StoredLog.save_onlyLog twoWaiting) size_twoWaiting
  · rw [List.take_succ_cons, afterRounds_cons, List.take_zero, afterRounds_nil]
    exact StoredLog.fitsLimit_of_save save_oneWaiting size_oneWaiting
  · rw [List.take_succ_cons, afterRounds_cons, List.take_succ_cons, afterRounds_cons,
      List.take_zero, afterRounds_nil]
    exact StoredLog.fitsLimit_of_save save_noneWaiting size_noneWaiting

/-- Two runs test both entries, the newer one first, and the third finds nothing pending. The tests
of the one fail and those of the other cannot be started, so both entries have failed. -/
theorem rounds_drain_two_waiting :
    TestsInTurn "/log" [(newer, 1), (older, 0)]
        [ending exitOne, ending noSuchFile, ending exitOne] start ∧
      RecordedAt "/log" twoWaiting 1 newer .failed ((ending exitOne).run "/log" start) ∧
      RecordedAt "/log" oneWaiting 0 older .failed
        ((ending noSuchFile).run "/log" ((ending exitOne).run "/log" start).2) := by
  have hspares : ∀ r ∈ [ending exitOne, ending noSuchFile, ending exitOne],
      r.action.Spares "/log" := by
    rw [List.forall_mem_cons, List.forall_mem_cons, List.forall_mem_singleton]
    exact ⟨ending_spares _ _, ending_spares _ _, ending_spares _ _⟩
  obtain ⟨order, hperm, hordered, htests⟩ := rounds_drain load_twoWaiting (by decide +kernel)
    hspares (savesSucceed_three_rounds _)
  have horder : order = [(newer, 1), (older, 0)] := by
    have hwaiting : twoWaiting.waitingAt = [(older, 0), (newer, 1)] := rfl
    rw [hwaiting, List.perm_pair] at hperm
    refine hperm.resolve_left ?_
    rintro rfl
    have hpair := List.pairwise_cons.1 (hordered (by decide +kernel))
    exact older_before_newer (hpair.1 (newer, 1) List.mem_cons_self)
  rw [horder] at htests
  refine ⟨htests, ?_, ?_⟩
  · obtain ⟨log, hlog, hround⟩ := (htests 0 _ rfl).1 _ _ rfl
    obtain rfl := Except.ok.inj (load_twoWaiting.symm.trans hlog)
    obtain ⟨status, hdeserved, hrecorded⟩ := hround.verdict
    rwa [← hdeserved.unique (.failed _)]
  · have hsecond := htests 1 _ rfl
    rw [List.take_succ_cons, afterRounds_cons, List.take_zero, afterRounds_nil] at hsecond
    obtain ⟨log, hlog, hround⟩ := hsecond.1 _ _ rfl
    obtain rfl := Except.ok.inj (load_oneWaiting.symm.trans hlog)
    obtain ⟨status, hdeserved, hrecorded⟩ := hround.verdict
    rwa [← hdeserved.unique (.unstarted _)]

end TestRun

end ReleaseCandidates
