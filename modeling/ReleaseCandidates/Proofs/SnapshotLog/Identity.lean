import Mathlib.Data.List.Chain
import ReleaseCandidates.Proofs.Instant.TextOrder
import ReleaseCandidates.Proofs.SnapshotLog.History

set_option autoImplicit false

/-! # Identities in a log of the program's own

The identity of an entry is the text of the time it was made at. Nothing makes these texts unique,
but a log that started empty gets them from its offers alone (`SnapshotLog.ids_after`): verdicts
change no identity. So if every entry that is added has a later time than the one added before it,
the identities are in the order of time, newest first, and everything that looks an entry up finds
the entry that was meant.

Main statement: `SnapshotLog.identities_sound`. -/

namespace ReleaseCandidates

/-! ## Times of entries -/

/-- The time of the entry that a change adds to a log, if it adds one. -/
def LogChange.insertedAt? (log : SnapshotLog) : LogChange → Option Instant
  | .offer components time =>
    match (log.offer components time).1 with
    | .inserted _ => some time
    | .unchanged => none
  | .verdict _ _ => none

namespace SnapshotLog

/-- The times of the entries that changes add to a log, in the order in which they are added. -/
def insertedAt (log : SnapshotLog) : List LogChange → List Instant
  | [] => []
  | change :: changes => (change.insertedAt? log).toList ++ (change.apply log).2.insertedAt changes

variable {log : SnapshotLog} {entries : List Snapshot} {s : Snapshot}

/-- The identities of the entries, newest first. -/
def ids (log : SnapshotLog) : List String :=
  log.snapshots.map Snapshot.id

theorem ids_apply (log : SnapshotLog) (change : LogChange) :
    (change.apply log).2.ids = (change.insertedAt? log).toList.map Instant.format ++ log.ids := by
  cases change with
  | offer components time =>
    cases h : log.holdsNewest components with
    | true =>
      simp only [LogChange.apply, LogChange.insertedAt?, offer_of_holdsNewest time h]
      rfl
    | false =>
      simp only [LogChange.apply, LogChange.insertedAt?, offer_of_not_holdsNewest time h]
      rfl
  | verdict updated now =>
    simp only [LogChange.apply, recordVerdict]
    cases h : completeFirst updated.id updated.status (verdictTime updated now) log.snapshots with
    | error failure => rfl
    | ok result => exact (completeFirst_frame h).1

/-- The identities that changes add are the texts of their times, and the others stay. -/
theorem ids_after (log : SnapshotLog) (changes : List LogChange) :
    (log.after changes).ids = ((log.insertedAt changes).map Instant.format).reverse ++ log.ids := by
  induction changes generalizing log with
  | nil => rfl
  | cons change changes ih =>
    rw [after_cons, ih, ids_apply, insertedAt, List.map_append, List.reverse_append,
      List.append_assoc]
    cases change.insertedAt? log <;> rfl

theorem ids_after_empty (changes : List LogChange) :
    (empty.after changes).ids = ((empty.insertedAt changes).map Instant.format).reverse := by
  rw [ids_after]
  exact List.append_nil _

/-! ## Looking up by identity -/

/-- Where no identity is repeated, entries at different positions have different ones. -/
theorem id_ne_of_nodup {e : Snapshot} {i j : Nat} (hnodup : log.ids.Nodup)
    (he : log.snapshots[j]? = some e) (hs : log.snapshots[i]? = some s) (hlt : j < i) :
    e.id ≠ s.id := by
  obtain ⟨hj, rfl⟩ := List.getElem?_eq_some_iff.1 he
  obtain ⟨hi, rfl⟩ := List.getElem?_eq_some_iff.1 hs
  exact List.pairwise_iff_getElem.1 (List.pairwise_map.1 hnodup) j i hj hi hlt

/-- Where no identity is repeated, every entry is found under its own. -/
theorem withId?_of_nodup (hnodup : log.ids.Nodup) {i : Nat} (h : log.snapshots[i]? = some s) :
    log.withId? s.id = some s := by
  obtain ⟨hi, hs⟩ := List.getElem?_eq_some_iff.1 h
  rw [withId?, List.find?_eq_some_iff_getElem]
  refine ⟨beq_self_eq_true _, i, hi, hs, fun j hj => ?_⟩
  have hne := id_ne_of_nodup hnodup (List.getElem?_eq_getElem (hj.trans hi)) h hj
  simpa using hne

/-! ## The next to be tested -/

/-- Where no entry is newer than one before it, the first one is taken. -/
theorem foldl_later_of_pairwise
    (h : entries.Pairwise fun first second => second.compareAge first ≠ .gt) :
    entries.foldl later none = entries.head? := by
  cases entries with
  | nil => rfl
  | cons first rest =>
    have hfirst : ∀ older ∈ rest, older.compareAge first ≠ .gt := (List.pairwise_cons.1 h).1
    show rest.foldl later (some first) = some first
    clear h
    induction rest with
    | nil => rfl
    | cons older rest ih =>
      rw [List.foldl_cons, later, if_neg (hfirst older List.mem_cons_self)]
      exact ih fun s hs => hfirst s (List.mem_cons_of_mem older hs)

theorem nextPending?_of_pairwise
    (h : log.snapshots.Pairwise fun first second => second.compareAge first ≠ .gt) :
    log.nextPending? = log.snapshots.find? Snapshot.isPending := by
  rw [nextPending?, waiting, foldl_later_of_pairwise (h.filter _), List.head?_filter]

/-! ## Rising times -/

section Rising

variable {times : List Instant}

/-- Times that rise from each to the next rise from each to all later ones. -/
theorem pairwise_before_of_isChain
    (h : times.IsChain fun t u => t.cutToMicros.compare u.cutToMicros = .lt) :
    times.Pairwise fun t u => t.cutToMicros.Before u.cutToMicros := by
  have htrans : IsTrans Instant fun t u => t.cutToMicros.Before u.cutToMicros :=
    ⟨fun _ _ _ => Instant.Before.trans⟩
  exact (h.imp fun _ _ => Instant.compare_eq_lt_iff.1).pairwise

theorem pairwise_format_lt (hyears : ∀ t ∈ times, t.InPlainYear)
    (hrising : times.Pairwise fun t u => t.cutToMicros.Before u.cutToMicros) :
    (times.map Instant.format).reverse.Pairwise fun newer older => older < newer := by
  rw [List.pairwise_reverse, List.pairwise_map]
  exact hrising.imp_of_mem fun ht hu => Instant.format_lt_format (hyears _ ht) (hyears _ hu)

theorem map_parse?_format (hyears : ∀ t ∈ times, t.InPlainYear) :
    (times.map Instant.format).map Instant.parse? = (times.map Instant.cutToMicros).map some := by
  rw [List.map_map, List.map_map]
  refine List.map_congr_left fun t ht => ?_
  rw [Function.comp_apply, Function.comp_apply, Instant.parse?_format (hyears t ht)]

end Rising

/-- An entry is no newer than one with a later time. -/
theorem compareAge_ne_gt {first second : Snapshot} {t u : Instant} (hfirst : first.time? = some t)
    (hsecond : second.time? = some u) (h : u.compare t = .lt) : second.compareAge first ≠ .gt := by
  have hne : u ≠ t := (Instant.compare_eq_lt_iff.1 h).ne
  simp only [Snapshot.compareAge, hfirst, hsecond, if_neg hne, h]
  exact nofun

/-- Entries whose times fall are looked through from the newest on. -/
theorem pairwise_compareAge {times : List Instant}
    (htimes : entries.map Snapshot.time? = times.map some)
    (hfalling : times.Pairwise fun newer older => older.compare newer = .lt) :
    entries.Pairwise fun first second => second.compareAge first ≠ .gt := by
  have hpairs : (entries.map Snapshot.time?).Pairwise fun first second =>
      ∃ t u, first = some t ∧ second = some u ∧ u.compare t = .lt := by
    rw [htimes, List.pairwise_map]
    exact hfalling.imp fun h => ⟨_, _, rfl, rfl, h⟩
  exact (List.pairwise_map.1 hpairs).imp fun ⟨t, u, hfirst, hsecond, h⟩ =>
    compareAge_ne_gt hfirst hsecond h

/-! ## Sound identities -/

/-- The identities of a log tell its entries apart, and newest first they fall, as texts and in
time; so every entry is found under its identity, and the pending entry that was made last is the
first pending one. -/
structure SoundIdentities (log : SnapshotLog) : Prop where
  distinct : log.ids.Nodup
  fall_as_texts : log.ids.Pairwise fun newer older => older < newer
  fall_in_time : ∃ times : List Instant, log.snapshots.map Snapshot.time? = times.map some ∧
    times.Pairwise fun newer older => older.compare newer = .lt
  found : ∀ (i : Nat) (s : Snapshot), log.snapshots[i]? = some s → log.withId? s.id = some s
  first_is_next : log.nextPending? = log.snapshots.find? Snapshot.isPending

/-- **Identities are sound in a log of the program's own.** Let any changes be made to an empty log,
and let the times of the entries that they add lie in plain years and rise, cut to microseconds,
from each entry to the next. Then the identities of the log are sound. -/
theorem identities_sound (changes : List LogChange)
    (hyears : ∀ t ∈ empty.insertedAt changes, t.InPlainYear)
    (hrising : (empty.insertedAt changes).IsChain
      fun t u => t.cutToMicros.compare u.cutToMicros = .lt) :
    SoundIdentities (empty.after changes) := by
  have hbefore := pairwise_before_of_isChain hrising
  have htexts : (empty.after changes).ids.Pairwise fun newer older => older < newer := by
    rw [ids_after_empty]
    exact pairwise_format_lt hyears hbefore
  have hnodup : (empty.after changes).ids.Nodup := by
    rw [List.nodup_iff_pairwise_ne]
    refine htexts.imp fun hlt heq => ?_
    rw [heq] at hlt
    exact String.lt_irrefl _ hlt
  -- what the identities name as times are the times of the offers, cut to microseconds
  have htimes : (empty.after changes).snapshots.map Snapshot.time? =
      ((empty.insertedAt changes).map Instant.cutToMicros).reverse.map some :=
    calc (empty.after changes).snapshots.map Snapshot.time?
        = (empty.after changes).ids.map Instant.parse? := (List.map_map ..).symm
      _ = (((empty.insertedAt changes).map Instant.format).map Instant.parse?).reverse := by
          rw [ids_after_empty, List.map_reverse]
      _ = ((empty.insertedAt changes).map Instant.cutToMicros).reverse.map some := by
          rw [map_parse?_format hyears, List.map_reverse]
  have hfalling : ((empty.insertedAt changes).map Instant.cutToMicros).reverse.Pairwise
      fun newer older => older.compare newer = .lt := by
    rw [List.pairwise_reverse, List.pairwise_map]
    exact hbefore.imp Instant.compare_eq_lt_iff.2
  exact {
    distinct := hnodup
    fall_as_texts := htexts
    fall_in_time := ⟨_, htimes, hfalling⟩
    found := fun i s => withId?_of_nodup hnodup
    first_is_next := nextPending?_of_pairwise (pairwise_compareAge htimes hfalling) }

theorem leapSecond_nanos_lt : 1500000000 < 2000000000 := by
  omega

theorem leapSecond_end : 1000000000 ≤ 1500000000 → (1483228799 : Int) % 60 = 59 := by
  omega

/-- The middle of the leap second at the end of 2016. -/
def leapSecond : Instant :=
  ⟨1483228799, 1500000000, leapSecond_nanos_lt, leapSecond_end⟩

/-- Components found in the last second of 2016, a leap second, and others found in the second after
it. In between the first are tested and found once more. -/
def overLeapSecond : List LogChange := [
  .offer [.ofRelease "o/a" "1"] leapSecond,
  .verdict ⟨⟨"2016-12-31T23:59:60.500000Z", .failed, none⟩, []⟩ .epoch,
  .offer [.ofRelease "o/a" "1"] .epoch,
  .offer [.ofRelease "o/a" "2"] (.atSecond 1483228800)]

theorem identities_sound_over_leap_second :
    (∀ t ∈ empty.insertedAt overLeapSecond, t.InPlainYear) ∧
      (empty.insertedAt overLeapSecond).IsChain
        (fun t u => t.cutToMicros.compare u.cutToMicros = .lt) ∧
      (empty.after overLeapSecond).ids =
        ["2017-01-01T00:00:00.000000Z", "2016-12-31T23:59:60.500000Z"] ∧
      SoundIdentities (empty.after overLeapSecond) := by
  have hyears : ∀ t ∈ empty.insertedAt overLeapSecond, t.InPlainYear := by decide +kernel
  have hrising : (empty.insertedAt overLeapSecond).IsChain
      fun t u => t.cutToMicros.compare u.cutToMicros = .lt := by decide +kernel
  exact ⟨hyears, hrising, by decide +kernel, identities_sound overLeapSecond hyears hrising⟩

end SnapshotLog

end ReleaseCandidates
