import Mathlib.Data.List.Sort
import Mathlib.Data.Prod.Lex
import Mathlib.Data.String.Basic
import ReleaseCandidates.Proofs.SnapshotLog.Changes
import ReleaseCandidates.Scan

set_option autoImplicit false

/-! # What a scan makes of its tasks

A scan starts one task for each target. The tasks end in any order, and each of them in its own way:
with components, with none, with a failure, or aborted. Whatever the mixture and the order, nothing
that was found is lost and nothing is invented, every target that gave nothing is missed once, and
every target is told of once (`Scan.Accounted`). A run of a scan gives one such mixture, in the order
of its targets (`Scan.run_accounted`). The order of the tasks can still be seen in the order of
components that stand at the same place, but not in the artifacts; so it never decides whether a log
records the result.

Main statement: `Scan.accounts_for_every_target`. -/

namespace ReleaseCandidates

/-! ## Places -/

namespace Component

/-- Where a component stands in a scan: by repository, then by name. -/
def place (c : Component) : String ×ₗ String :=
  toLex (c.repository, c.name)

variable {a b c : Component}

theorem placedBefore_iff : a.placedBefore b = true ↔ a.place ≤ b.place := by
  rw [placedBefore, place, place, Prod.Lex.toLex_le_toLex]
  rcases lt_trichotomy a.repository b.repository with h | h | h
  · simp [compare_lt_iff_lt.2 h, h]
  · have hname : (Ord.compare a.name b.name != .gt) = true ↔ a.name ≤ b.name := by
      rw [bne_iff_ne, Ne, compare_gt_iff_gt, not_lt]
    simp only [compare_eq_iff_eq.2 h, hname]
    simp only [h, lt_irrefl, false_or, true_and]
  · simp [compare_gt_iff_gt.2 h, h.not_gt, h.ne']

theorem placedBefore_trans (hab : a.placedBefore b = true) (hbc : b.placedBefore c = true) :
    a.placedBefore c = true := by
  rw [placedBefore_iff] at hab hbc ⊢
  exact hab.trans hbc

theorem placedBefore_total (a b : Component) : (a.placedBefore b || b.placedBefore a) = true := by
  rw [Bool.or_eq_true, placedBefore_iff, placedBefore_iff]
  exact le_total a.place b.place

end Component

/-! ## What tasks give -/

/-- What was answered, if there was an answer. -/
def Reply.answer? {α : Type} : Reply α → Option α
  | .ok a => some a
  | .failed _ | .aborted _ => none

namespace FinishedTask

/-- Whether a task gave no components: it found none, failed, or was aborted. -/
def gaveNothing (t : FinishedTask) : Bool :=
  match t.reply with
  | .ok components => components.isEmpty
  | .failed _ | .aborted _ => true

/-- What a target is missed as: its label, or the text of the task that was aborted. -/
def missedAs (t : FinishedTask) : String :=
  match t.reply with
  | .ok _ | .failed _ => t.target.label
  | .aborted message =>
    "task: task " ++ toString t.number ++ " panicked with message " ++ quoted message

/-- What a watcher is told when a task ends: the label of its target, unless it was aborted. -/
def endedAs (t : FinishedTask) : String :=
  match t.reply with
  | .ok _ | .failed _ => t.target.label
  | .aborted _ => "(aborted task)"

theorem components_eq (t : FinishedTask) : t.components = t.reply.answer?.toList.flatten := by
  unfold components Reply.answer?
  cases t.reply <;> simp

theorem missing?_eq (t : FinishedTask) :
    t.missing? = if t.gaveNothing then some t.missedAs else none := by
  unfold missing? gaveNothing missedAs
  cases t.reply with
  | ok components => cases components <;> rfl
  | failed failure => rfl
  | aborted message => rfl

theorem flatMap_components (tasks : List FinishedTask) :
    tasks.flatMap components = (tasks.filterMap fun t => t.reply.answer?).flatten := by
  induction tasks with
  | nil => rfl
  | cons t tasks ih =>
    rw [List.flatMap_cons, components_eq, ih, List.filterMap_cons]
    cases t.reply.answer? <;> simp

theorem filterMap_missing? (tasks : List FinishedTask) :
    tasks.filterMap missing? = (tasks.filter gaveNothing).map missedAs := by
  induction tasks with
  | nil => rfl
  | cons t tasks ih =>
    rw [List.filterMap_cons, missing?_eq, ih, List.filter_cons]
    cases t.gaveNothing <;> rfl

end FinishedTask

/-! ## What is told -/

namespace ProgressEvent

/-- The number of targets that a scan is said to start with. -/
def started? : ProgressEvent → Option Nat
  | .start total _ => some total
  | .advance _ | .problem _ | .done _ => none

/-- What a target is called when it is said to be done with. -/
def advanced? : ProgressEvent → Option String
  | .advance label => some label
  | .start _ _ | .problem _ | .done _ => none

end ProgressEvent

namespace FinishedTask

theorem filterMap_started?_events (t : FinishedTask) :
    t.events.filterMap ProgressEvent.started? = [] := by
  unfold events
  cases t.reply <;> rfl

theorem filterMap_advanced?_events (t : FinishedTask) :
    t.events.filterMap ProgressEvent.advanced? = [t.endedAs] := by
  unfold events endedAs
  cases t.reply <;> rfl

end FinishedTask

namespace Scan

theorem filterMap_started?_events (finished : List FinishedTask) :
    (events finished).filterMap ProgressEvent.started? = [finished.length] := by
  have htasks : (finished.flatMap FinishedTask.events).filterMap ProgressEvent.started? = [] := by
    simp only [List.filterMap_flatMap, FinishedTask.filterMap_started?_events,
      List.flatMap_eq_nil_iff, implies_true]
  rw [events, List.filterMap_cons, List.filterMap_append, htasks]
  rfl

theorem filterMap_advanced?_events (finished : List FinishedTask) :
    (events finished).filterMap ProgressEvent.advanced? = finished.map FinishedTask.endedAs := by
  have htasks : (finished.flatMap FinishedTask.events).filterMap ProgressEvent.advanced? =
      finished.map FinishedTask.endedAs := by
    simp only [List.filterMap_flatMap, FinishedTask.filterMap_advanced?_events,
      ← List.map_eq_flatMap]
  rw [events, List.filterMap_cons, List.filterMap_append, htasks]
  exact List.append_nil _

/-! ## The tasks of a scan -/

/-- The tasks of a scan in the order in which they are started, each with the reply for its place
in this order. -/
def tasks (repositories : List TrackedRepository) (outcome : Nat → Reply (List Component)) :
    List FinishedTask :=
  (targets repositories).mapIdx fun i target => ⟨i + 1, target, outcome i⟩

variable {repositories : List TrackedRepository} {outcome : Nat → Reply (List Component)}
  {order other : List FinishedTask}

@[simp] theorem length_tasks : (tasks repositories outcome).length = (targets repositories).length :=
  List.length_mapIdx

/-- Working on targets one after the other gives a task for each of them. -/
theorem exists_runTasks_eq {σ : Type} (c : Catalogue σ) (limits : ListingLimits) (number : Nat)
    (todo : List ScanTarget) (s : σ) :
    ∃ outcome : Nat → Reply (List Component), (runTasks c limits number todo s).1 =
      todo.mapIdx fun i target => ⟨number + i, target, outcome i⟩ := by
  induction todo generalizing number s with
  | nil => exact ⟨fun _ => .ok [], rfl⟩
  | cons target todo ih =>
    obtain ⟨outcome, hrest⟩ := ih (number + 1) (Resolution.resolve c limits target s).2
    refine ⟨fun i => i.casesOn (Resolution.resolve c limits target s).1 outcome, ?_⟩
    rw [List.mapIdx_cons]
    simp only [Nat.add_zero, ← Nat.add_assoc, Nat.add_right_comm number _ 1]
    rw [← hrest]
    rfl

/-- What a catalogue lets a scan find is one of the outcomes that its tasks may have. -/
theorem exists_run_eq_tasks {σ : Type} (c : Catalogue σ) (limits : ListingLimits)
    (repositories : List TrackedRepository) (s : σ) :
    ∃ outcome, (run c limits repositories s).1 = tasks repositories outcome := by
  obtain ⟨outcome, h⟩ := exists_runTasks_eq c limits 1 (targets repositories) s
  exact ⟨outcome, h.trans (by simp only [tasks, Nat.add_comm 1])⟩

/-! ## The account of a scan -/

/-- What a scan of tracked repositories has found and told is what its tasks gave: the components of
all answers, by repository and name; of every target that gave nothing what it is missed as, in the
order of texts; and that so many targets were started and each of them was done with. -/
structure Accounted (repositories : List TrackedRepository)
    (outcome : Nat → Reply (List Component)) (finished : List FinishedTask) : Prop where
  components_perm : (Findings.ofTasks finished).components.Perm
    ((tasks repositories outcome).filterMap fun t => t.reply.answer?).flatten
  components_placed :
    (Findings.ofTasks finished).components.Pairwise fun a b => a.place ≤ b.place
  unresolved_perm : (Findings.ofTasks finished).unresolved.Perm
    (((tasks repositories outcome).filter FinishedTask.gaveNothing).map FinishedTask.missedAs)
  unresolved_sorted : (Findings.ofTasks finished).unresolved.Pairwise (· ≤ ·)
  started : (events finished).filterMap ProgressEvent.started? = [(targets repositories).length]
  advanced : ((events finished).filterMap ProgressEvent.advanced?).Perm
    ((tasks repositories outcome).map FinishedTask.endedAs)

theorem components_ofTasks_perm (finished : List FinishedTask) :
    (Findings.ofTasks finished).components.Perm (finished.flatMap FinishedTask.components) :=
  List.mergeSort_perm _ _

theorem components_ofTasks_placed (finished : List FinishedTask) :
    (Findings.ofTasks finished).components.Pairwise fun a b => a.place ≤ b.place := by
  have hsorted : (Findings.ofTasks finished).components.Pairwise fun a b =>
      a.placedBefore b = true :=
    @List.pairwise_mergeSort _ Component.placedBefore (fun _ _ _ => Component.placedBefore_trans)
      Component.placedBefore_total (finished.flatMap FinishedTask.components)
  exact hsorted.imp fun {a b} => Component.placedBefore_iff.1

theorem unresolved_ofTasks_perm (finished : List FinishedTask) :
    (Findings.ofTasks finished).unresolved.Perm (finished.filterMap FinishedTask.missing?) :=
  List.mergeSort_perm _ _

theorem unresolved_ofTasks_sorted (finished : List FinishedTask) :
    (Findings.ofTasks finished).unresolved.Pairwise (· ≤ ·) :=
  List.pairwise_mergeSort' (· ≤ ·) (finished.filterMap FinishedTask.missing?)

theorem accounted_of_perm (h : order.Perm (tasks repositories outcome)) :
    Accounted repositories outcome order where
  components_perm := by
    rw [← FinishedTask.flatMap_components]
    exact (components_ofTasks_perm order).trans (h.flatMap_right FinishedTask.components)
  components_placed := components_ofTasks_placed order
  unresolved_perm := by
    rw [← FinishedTask.filterMap_missing?]
    exact (unresolved_ofTasks_perm order).trans (h.filterMap FinishedTask.missing?)
  unresolved_sorted := unresolved_ofTasks_sorted order
  started := by rw [filterMap_started?_events, h.length_eq, length_tasks]
  advanced := by
    rw [filterMap_advanced?_events]
    exact h.map FinishedTask.endedAs

/-- What a scan of a catalogue finds and tells is accounted for by some outcome of its tasks, one for
each target. -/
theorem run_accounted {σ : Type} (c : Catalogue σ) (limits : ListingLimits)
    (repositories : List TrackedRepository) (s : σ) :
    ∃ outcome, (run c limits repositories s).1 = tasks repositories outcome ∧
      Accounted repositories outcome (run c limits repositories s).1 := by
  obtain ⟨outcome, hrun⟩ := exists_run_eq_tasks c limits repositories s
  exact ⟨outcome, hrun, accounted_of_perm (hrun ▸ List.Perm.refl _)⟩

/-! ## Recording what was found -/

/-- Two orders of the same tasks find the same artifacts. -/
theorem artifacts_ofTasks_of_perm (h : order.Perm other) :
    artifacts (Findings.ofTasks order).components =
      artifacts (Findings.ofTasks other).components := by
  have hcomponents : (Findings.ofTasks order).components.Perm (Findings.ofTasks other).components :=
    calc (Findings.ofTasks order).components
      List.Perm _ (order.flatMap FinishedTask.components) := components_ofTasks_perm order
      List.Perm _ (other.flatMap FinishedTask.components) := h.flatMap_right _
      List.Perm _ (Findings.ofTasks other).components := (components_ofTasks_perm other).symm
  exact List.toFinset_eq_of_perm _ _ (hcomponents.map _)

/-- Only the artifacts of an offer count for its answer. -/
theorem offer_fst_congr (log : SnapshotLog) {a b : List Component} (time : Instant)
    (h : artifacts a = artifacts b) : (log.offer a time).1 = (log.offer b time).1 := by
  have hholds : log.holdsNewest a = log.holdsNewest b := by
    rw [Bool.eq_iff_iff, SnapshotLog.holdsNewest_iff, SnapshotLog.holdsNewest_iff, h]
  unfold SnapshotLog.offer
  rw [hholds]
  split <;> rfl

/-- **A scan accounts for every target.** Whatever each target gave, and in whatever order the tasks
ended: nothing that was found is lost or invented, every target that gave nothing is missed once,
every target is told of once, and no other order would have made a log answer otherwise. What a run
gives, whatever its catalogue answers, is one of these mixtures and accounted for. -/
theorem accounts_for_every_target (horder : order.Perm (tasks repositories outcome))
    (hother : other.Perm (tasks repositories outcome)) :
    Accounted repositories outcome order ∧
      (∀ (log : SnapshotLog) (time : Instant),
        (log.offer (Findings.ofTasks order).components time).1 =
          (log.offer (Findings.ofTasks other).components time).1) ∧
      ∀ (σ : Type) (c : Catalogue σ) (limits : ListingLimits) (s : σ), ∃ given,
        (run c limits repositories s).1 = tasks repositories given ∧
          Accounted repositories given (run c limits repositories s).1 := by
  refine ⟨accounted_of_perm horder, fun log time => ?_, fun σ c limits s => ?_⟩
  · exact offer_fst_congr log time (artifacts_ofTasks_of_perm (horder.trans hother.symm))
  · exact run_accounted c limits repositories s

/-- A release and three images. -/
def mixedTracked : List TrackedRepository :=
  [⟨"o/a", .release "v" []⟩, ⟨"o/b", .commit ["i/x", "i/y", "i/z"]⟩]

/-- A target that is found, one with nothing to find, one that fails and one that is aborted. -/
def mixedOutcome : Nat → Reply (List Component)
  | 0 => .ok [Component.ofRelease "o/a" "v1"]
  | 1 => .ok []
  | 2 => .failed (.reported "connection reset")
  | _ => .aborted "o/b exploded"

theorem accounts_for_mixed_targets :
    (tasks mixedTracked mixedOutcome).length = 4 ∧
      Accounted mixedTracked mixedOutcome (tasks mixedTracked mixedOutcome).reverse ∧
      (∀ (log : SnapshotLog) (time : Instant),
        (log.offer (Findings.ofTasks (tasks mixedTracked mixedOutcome).reverse).components time).1 =
          (log.offer (Findings.ofTasks (tasks mixedTracked mixedOutcome)).components time).1) ∧
      ∀ (σ : Type) (c : Catalogue σ) (limits : ListingLimits) (s : σ), ∃ given,
        (run c limits mixedTracked s).1 = tasks mixedTracked given ∧
          Accounted mixedTracked given (run c limits mixedTracked s).1 :=
  ⟨rfl, accounts_for_every_target (List.reverse_perm _) (List.Perm.refl _)⟩

end Scan

end ReleaseCandidates
