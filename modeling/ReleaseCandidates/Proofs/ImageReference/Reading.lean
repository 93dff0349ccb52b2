import ReleaseCandidates.ImageReference
import ReleaseCandidates.Proofs.Text.Cutting
import ReleaseCandidates.Proofs.Text.Trimming

set_option autoImplicit false

/-! # What is known of a read image name

A name that was read has neither blanks nor digest marks in it, in its host and in its path
(`ImageReference.visible_of_parse`), once the blanks around it are dropped. If it names its registry
itself, host and path are the two sides of its first slash
(`ImageReference.toList_trim_of_hosted`), and with the slash between them they are the name as it is
written exactly if there were no blanks to drop (`ImageReference.eq_host_path_iff`). -/

namespace ReleaseCandidates.ImageReference

/-- Whether a name says itself which registry holds the image. -/
def namesHost (value : String) : Bool :=
  isHost (Text.beforeFirst '/' (Text.trimChars value.toList))

/-- Where the parts of a name come from: the name itself, or the default registry. -/
theorem locate_eq_ok {image host path : List Char} (h : locate image = .ok (host, path)) :
    (isHost (Text.beforeFirst '/' image) = true ∧ image = host ++ '/' :: path) ∨
      (isHost (Text.beforeFirst '/' image) = false ∧ host = defaultHost.toList ∧
        (path = image ∨ path = "library/".toList ++ image)) := by
  rw [locate] at h
  cases hcut : Text.cutFirst '/' image with
  | some parts =>
    obtain ⟨first, rest⟩ := parts
    obtain ⟨hslash, rfl⟩ := Text.cutFirst_eq_some.1 hcut
    have hfirst : Text.beforeFirst '/' (first ++ '/' :: rest) = first := by
      rw [Text.beforeFirst, List.takeWhile_append_of_pos (Text.ne_of_not_mem hslash)]
      simp
    rw [hcut] at h
    rw [hfirst]
    cases hhost : isHost first with
    | true =>
      simp only [hhost, if_true] at h
      cases h
      exact .inl ⟨rfl, rfl⟩
    | false =>
      simp only [hhost] at h
      cases h
      exact .inr ⟨rfl, rfl, .inl rfl⟩
  | none =>
    have hfirst : Text.beforeFirst '/' image = image :=
      List.takeWhile_eq_self_iff.2 (Text.ne_of_not_mem (Text.cutFirst_eq_none.1 hcut))
    rw [hcut] at h
    rw [hfirst]
    cases hhost : isHost image with
    | true =>
      simp only [hhost, if_true] at h
      cases h
    | false =>
      simp only [hhost] at h
      cases h
      exact .inr ⟨rfl, rfl, .inr rfl⟩

section Parse

variable {value : String} {r : ImageReference}

/-- What a name was read as. -/
theorem exists_located_of_parse (h : parse value = .ok r) :
    hasIllegalRun (Text.trimChars value.toList) = false ∧
      locate (Text.trimChars value.toList) = .ok (r.host.toList, r.path.toList) := by
  simp only [parse] at h
  split at h
  · cases h
  · split at h
    · cases h
    · rename_i hlegal
      cases hlocated : locate (Text.trimChars value.toList) with
      | error problem =>
        rw [hlocated] at h
        cases h
      | ok parts =>
        obtain ⟨host, path⟩ := parts
        simp only [hlocated] at h
        split at h
        · cases h
        · cases h
          rw [String.toList_ofList, String.toList_ofList]
          exact ⟨Bool.eq_false_iff.2 hlegal, rfl⟩

theorem visible_of_not_hasIllegalRun {image : List Char} (h : hasIllegalRun image = false) :
    ∀ c ∈ image, Text.isBlank c = false ∧ c ≠ '@' := by
  simp only [hasIllegalRun, Bool.or_eq_false_iff, List.any_eq_false, List.contains_eq_mem,
    decide_eq_false_iff_not, Bool.not_eq_true] at h
  intro c hc
  refine ⟨h.2 c hc, ?_⟩
  rintro rfl
  exact h.1.1 hc

/-- Host and path of a name have neither blanks nor digest marks in them. -/
theorem visible_of_parse (h : parse value = .ok r) :
    ∀ c ∈ r.host.toList ++ r.path.toList, Text.isBlank c = false ∧ c ≠ '@' := by
  obtain ⟨hlegal, hlocated⟩ := exists_located_of_parse h
  have hvisible := visible_of_not_hasIllegalRun hlegal
  have hfixed : ∀ {start : List Char}, start.all (fun c => !Text.isBlank c && c != '@') = true →
      ∀ c ∈ start, Text.isBlank c = false ∧ c ≠ '@' := by
    intro start hstart c hc
    simpa using List.all_eq_true.1 hstart c hc
  intro c hc
  rcases locate_eq_ok hlocated with ⟨-, himage⟩ | ⟨-, hhost, hpath | hpath⟩
  · refine hvisible c ?_
    rw [himage]
    rcases List.mem_append.1 hc with hc | hc
    · exact List.mem_append_left _ hc
    · exact List.mem_append_right _ (List.mem_cons_of_mem _ hc)
  · rw [hhost, hpath] at hc
    rcases List.mem_append.1 hc with hc | hc
    · exact hfixed (by decide) c hc
    · exact hvisible c hc
  · rw [hhost, hpath] at hc
    rcases List.mem_append.1 hc with hc | hc
    · exact hfixed (by decide) c hc
    · rcases List.mem_append.1 hc with hc | hc
      · exact hfixed (by decide) c hc
      · exact hvisible c hc

/-- A name with its own registry is host and path with a slash between them. -/
theorem toList_trim_of_hosted (h : parse value = .ok r) (hosted : namesHost value = true) :
    Text.trimChars value.toList = r.host.toList ++ '/' :: r.path.toList := by
  rcases locate_eq_ok (exists_located_of_parse h).2 with ⟨-, himage⟩ | ⟨hnot, -⟩
  · exact himage
  · rw [namesHost, hnot] at hosted
    cases hosted

/-- Such a name is written as it was read exactly if it is written without blanks. -/
theorem eq_host_path_iff (h : parse value = .ok r) (hosted : namesHost value = true) :
    value = r.host ++ "/" ++ r.path ↔ ∀ c ∈ value.toList, Text.isBlank c = false := by
  have hread := toList_trim_of_hosted h hosted
  have hslash : "/".toList = ['/'] := by decide
  rw [← String.toList_inj]
  simp only [String.toList_append, hslash, List.append_assoc, List.singleton_append, ← hread]
  constructor
  · intro htrimmed c hc
    rw [htrimmed] at hc
    exact (visible_of_not_hasIllegalRun (exists_located_of_parse h).1 c hc).1
  · exact fun hvisible => (Text.trimChars_of_visible hvisible).symm

end Parse

end ReleaseCandidates.ImageReference
