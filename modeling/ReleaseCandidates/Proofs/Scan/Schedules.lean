import ReleaseCandidates.Proofs.Scan.Findings
import ReleaseCandidates.SnapshotLog.Stored
import ReleaseCandidates.TestEnvironment

set_option autoImplicit false

/-! # Scans and the order their tasks end in

The components of a scan are sorted by repository and name, and components that stand at one place
keep the order their tasks ended in. So the result is the same list for every order exactly when at
every place it makes no difference whose components come first (`FinishedTask.Interchangeable`).
That is so for tasks without a place in common. It is not so for two images of one repository whose
last parts agree: they are named alike, and the list, and the variables that are exported from it,
follow the order in which the two were resolved.

Main statements: `Scan.same_for_every_order_iff`, `Scan.order_shows_for_images_named_alike`. -/

namespace ReleaseCandidates

/-! ## Sorted lists, place by place -/

/-- The components of a list that stand at a place. -/
def standingAt (place : String ×ₗ String) (components : List Component) : List Component :=
  components.filter fun c => c.place = place

variable {place : String ×ₗ String} {c : Component} {components : List Component}

theorem mem_standingAt : c ∈ standingAt place components ↔ c ∈ components ∧ c.place = place := by
  simp [standingAt]

@[simp] theorem standingAt_nil (place : String ×ₗ String) : standingAt place [] = [] := rfl

theorem standingAt_cons_self (c : Component) (components : List Component) :
    standingAt c.place (c :: components) = c :: standingAt c.place components := by
  simp [standingAt]

theorem standingAt_cons_of_ne (h : c.place ≠ place) (components : List Component) :
    standingAt place (c :: components) = standingAt place components := by
  simp [standingAt, h]

theorem standingAt_flatMap {α : Type} (place : String ×ₗ String) (f : α → List Component)
    (items : List α) :
    standingAt place (items.flatMap f) = items.flatMap fun a => standingAt place (f a) :=
  List.filter_flatMap

theorem standingAt_of_mem_standingAt (place : String ×ₗ String) (components : List Component) :
    standingAt place (standingAt place components) = standingAt place components :=
  List.filter_eq_self.2 fun _ hc => decide_eq_true (mem_standingAt.1 hc).2

/-- Sorting keeps the order of the components at one place. -/
theorem standingAt_mergeSort (place : String ×ₗ String) (components : List Component) :
    standingAt place (components.mergeSort Component.placedBefore) = standingAt place components := by
  -- what stands at one place is in order already, so it is found again in the sorted list
  have hplaced : (standingAt place components).Pairwise fun a b => a.placedBefore b = true := by
    refine List.pairwise_of_forall_mem_list fun a ha b hb => Component.placedBefore_iff.2 ?_
    rw [(mem_standingAt.1 ha).2, (mem_standingAt.1 hb).2]
  have hkept : (standingAt place components).Sublist
      (components.mergeSort Component.placedBefore) :=
    @List.sublist_mergeSort _ Component.placedBefore _
      (fun _ _ _ => Component.placedBefore_trans) Component.placedBefore_total _ hplaced
      List.filter_sublist
  have hsublist : (standingAt place components).Sublist
      (standingAt place (components.mergeSort Component.placedBefore)) := by
    rw [← standingAt_of_mem_standingAt]
    exact hkept.filter _
  have hlength := ((List.mergeSort_perm components Component.placedBefore).filter
    fun c => c.place = place).length_eq
  exact (hsublist.eq_of_length hlength.symm).symm

/-- Sorted lists that agree at every place are the same. -/
theorem eq_of_standingAt_eq {first second : List Component}
    (hfirst : first.Pairwise fun a b => a.place ≤ b.place)
    (hsecond : second.Pairwise fun a b => a.place ≤ b.place)
    (h : ∀ place, standingAt place first = standingAt place second) : first = second := by
  induction first generalizing second with
  | nil =>
    cases second with
    | nil => rfl
    | cons b second => simpa [standingAt_cons_self] using h b.place
  | cons a first ih =>
    cases second with
    | nil => simpa [standingAt_cons_self] using h a.place
    | cons b second =>
      rw [List.pairwise_cons] at hfirst hsecond
      -- each head is in the other list, so neither stands before the other
      have hb : b ∈ standingAt b.place (a :: first) := by
        rw [h, standingAt_cons_self]
        exact List.mem_cons_self
      have ha : a ∈ standingAt a.place (b :: second) := by
        rw [← h, standingAt_cons_self]
        exact List.mem_cons_self
      have hplace : a.place = b.place := by
        rcases List.mem_cons.1 (mem_standingAt.1 hb).1 with rfl | hb
        · rfl
        · rcases List.mem_cons.1 (mem_standingAt.1 ha).1 with rfl | ha
          · rfl
          · exact le_antisymm (hfirst.1 b hb) (hsecond.1 a ha)
      have hhead := h a.place
      rw [standingAt_cons_self, hplace, standingAt_cons_self, List.cons.injEq] at hhead
      obtain ⟨rfl, -⟩ := hhead
      refine congrArg (a :: ·) (ih hfirst.2 hsecond.2 fun place => ?_)
      by_cases hc : a.place = place
      · subst hc
        simpa [standingAt_cons_self] using h a.place
      · simpa [standingAt_cons_of_ne hc] using h place

/-! ## Tasks that may change places -/

namespace FinishedTask

/-- What a task has found for a place. -/
def foundFor (place : String ×ₗ String) (t : FinishedTask) : List Component :=
  standingAt place t.components

/-- It makes no difference for any place which of two tasks ends first. -/
def Interchangeable (t u : FinishedTask) : Prop :=
  ∀ place, t.foundFor place ++ u.foundFor place = u.foundFor place ++ t.foundFor place

theorem Interchangeable.symm {t u : FinishedTask} (h : Interchangeable t u) :
    Interchangeable u t :=
  fun place => (h place).symm

/-- Tasks that have found nothing for the same place are interchangeable. -/
theorem interchangeable_of_no_common_place {t u : FinishedTask}
    (h : ∀ a ∈ t.components, ∀ b ∈ u.components, a.place ≠ b.place) : Interchangeable t u := by
  intro place
  cases ht : t.foundFor place with
  | nil => simp
  | cons a _ =>
    have ha : a ∈ t.components ∧ a.place = place := by
      rw [← mem_standingAt, ← foundFor, ht]
      exact List.mem_cons_self
    have hu : u.foundFor place = [] := by
      rw [foundFor, standingAt, List.filter_eq_nil_iff]
      intro b hb hplace
      exact h a ha.1 b hb (ha.2.trans (of_decide_eq_true hplace).symm)
    rw [hu, List.append_nil, List.nil_append]

end FinishedTask

namespace Scan

open FinishedTask (Interchangeable)

variable {started order other : List FinishedTask}

/-- Two orders give the same components when they give the same at every place. -/
theorem components_ofTasks_eq_iff :
    (Findings.ofTasks order).components = (Findings.ofTasks other).components ↔
      ∀ place, order.flatMap (FinishedTask.foundFor place) =
        other.flatMap (FinishedTask.foundFor place) := by
  have hstanding : ∀ (place) (tasks : List FinishedTask),
      standingAt place (Findings.ofTasks tasks).components =
        tasks.flatMap (FinishedTask.foundFor place) := fun place tasks =>
    (standingAt_mergeSort place _).trans (standingAt_flatMap place _ tasks)
  constructor
  · intro h place
    rw [← hstanding, h, hstanding]
  · intro h
    refine eq_of_standingAt_eq (components_ofTasks_placed order) (components_ofTasks_placed other)
      fun place => ?_
    rw [hstanding, hstanding, h]

/-- Interchangeable tasks give the same at every place, whatever order they end in. -/
theorem flatMap_foundFor_of_perm (h : order.Perm other) (hpairs : order.Pairwise Interchangeable)
    (place : String ×ₗ String) :
    order.flatMap (FinishedTask.foundFor place) = other.flatMap (FinishedTask.foundFor place) := by
  induction h with
  | nil => rfl
  | cons t _ ih =>
    rw [List.flatMap_cons, List.flatMap_cons, ih (List.pairwise_cons.1 hpairs).2]
  | swap t u rest =>
    have htu : Interchangeable u t := (List.pairwise_cons.1 hpairs).1 t List.mem_cons_self
    simp only [List.flatMap_cons, ← List.append_assoc, htu place]
  | trans h₁ _ ih₁ ih₂ =>
    exact (ih₁ hpairs).trans (ih₂ (h₁.pairwise hpairs Interchangeable.symm))

/-- If two orders that differ in two tasks give the same, the two are interchangeable. -/
theorem interchangeable_of_swap {t u : FinishedTask} {rest : List FinishedTask}
    (h : (Findings.ofTasks (t :: u :: rest)).components =
      (Findings.ofTasks (u :: t :: rest)).components) : Interchangeable t u := by
  intro place
  have hplace := components_ofTasks_eq_iff.1 h place
  simp only [List.flatMap_cons, ← List.append_assoc] at hplace
  exact List.append_cancel_right hplace

theorem components_same_iff_pairwise :
    (∀ order other, order.Perm started → other.Perm started →
        (Findings.ofTasks order).components = (Findings.ofTasks other).components) ↔
      started.Pairwise Interchangeable := by
  constructor
  · intro h
    rw [List.pairwise_iff_forall_sublist]
    intro t u hsublist
    obtain ⟨rest, hrest⟩ := hsublist.exists_perm_append
    exact interchangeable_of_swap
      (h (t :: u :: rest) (u :: t :: rest) hrest.symm ((List.Perm.swap t u rest).trans hrest.symm))
  · intro hpairs order other horder hother
    have hpairs : order.Pairwise Interchangeable :=
      horder.symm.pairwise hpairs Interchangeable.symm
    exact components_ofTasks_eq_iff.2
      (flatMap_foundFor_of_perm (horder.trans hother.symm) hpairs)

/-! ## What is made of a result -/

/-- Two results have the same components, and so the log is the same text after either was recorded
and the same environment is exported from either. -/
structure SameResult (a b : Findings) : Prop where
  components : a.components = b.components
  text : ∀ (log : SnapshotLog) (time : Instant),
    (log.offer a.components time).2.render = (log.offer b.components time).2.render
  environment :
    TestEnvironment.ofComponents a.components = TestEnvironment.ofComponents b.components

theorem sameResult_iff {a b : Findings} : SameResult a b ↔ a.components = b.components := by
  constructor
  · exact SameResult.components
  · intro h
    exact ⟨h, fun log time => by rw [h], by rw [h]⟩

/-- **When the order of the tasks does not show.** The result of a scan is the same for every order
in which its tasks may end if and only if every two of its tasks are interchangeable. -/
theorem same_for_every_order_iff (repositories : List TrackedRepository)
    (outcome : Nat → Reply (List Component)) :
    (∀ order other, order.Perm (tasks repositories outcome) →
        other.Perm (tasks repositories outcome) →
        SameResult (Findings.ofTasks order) (Findings.ofTasks other)) ↔
      (tasks repositories outcome).Pairwise Interchangeable := by
  simp only [sameResult_iff, components_same_iff_pairwise]

/-! ## Images named alike -/

/-- An image that the tests use, and the copy of it in another place. -/
def serviceImages : List String :=
  ["quay.io/edge-infrastructure/assisted-service", "quay.io/mirror/assisted-service"]

/-- A repository tracked by the image and by the copy. -/
def mirrored : TrackedRepository where
  repository := "openshift/assisted-service"
  strategy := .commit serviceImages

/-- A catalogue in which every image was published for one commit. -/
def published : Catalogue Unit where
  releases _ _ := pure (.ok [])
  commits _ _ := pure (.ok ["c1"])
  manifest _ _ := pure (.ok (some ⟨none⟩))

/-- The component for an image of the repository. -/
def service (image : String) : Component :=
  Component.ofImage mirrored.repository "c1" image (imageTag "c1") none

/-- The task that resolves an image of the repository. -/
def serviceTask (number : Nat) (image : String) : FinishedTask where
  number := number
  target := .image mirrored.repository image
  reply := .ok [service image]

/-- Components that stand at one place come in the order of their tasks. -/
theorem components_of_serviceTasks {m n : Nat} {image copy : String}
    (h : (service image).place = (service copy).place) :
    (Findings.ofTasks [serviceTask m image, serviceTask n copy]).components =
      [service image, service copy] :=
  List.mergeSort_of_pairwise (List.pairwise_pair.2 (Component.placedBefore_iff.2 h.le))

/-- **The order shows for images named alike.** For a repository that is tracked by two images with
the same last part, two orders of the tasks of a scan give different lists, and different images to
the tests. -/
theorem order_shows_for_images_named_alike :
    TrackedRepository.make mirrored.repository mirrored.strategy = .ok mirrored ∧
      ∃ order other, order.Perm (run published {} [mirrored] ()).1 ∧
        other.Perm (run published {} [mirrored] ()).1 ∧
        (Findings.ofTasks order).components ≠ (Findings.ofTasks other).components ∧
        (TestEnvironment.ofComponents (Findings.ofTasks order).components).vars ≠
          (TestEnvironment.ofComponents (Findings.ofTasks other).components).vars := by
  have haccepted : TrackedRepository.make mirrored.repository mirrored.strategy = .ok mirrored := by
    decide +kernel
  have hrun : (run published {} [mirrored] ()).1 =
      [serviceTask 1 "quay.io/edge-infrastructure/assisted-service",
        serviceTask 2 "quay.io/mirror/assisted-service"] := rfl
  have hplace : (service "quay.io/edge-infrastructure/assisted-service").place =
      (service "quay.io/mirror/assisted-service").place := by
    decide +kernel
  refine ⟨haccepted, _, _, .refl _, List.reverse_perm _, ?_⟩
  rw [hrun, List.reverse_cons, List.reverse_singleton, List.singleton_append,
    components_of_serviceTasks hplace, components_of_serviceTasks hplace.symm]
  decide +kernel

end Scan

end ReleaseCandidates
