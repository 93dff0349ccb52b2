import Mathlib.Data.List.Basic
import ReleaseCandidates.Text.Blank

set_option autoImplicit false

/-! # Trimming a text that starts visibly

A text that starts with visible characters keeps them when it is trimmed, and what follows them is
trimmed at its end (`Text.trimChars_append`). -/

namespace ReleaseCandidates.Text

variable {cs rest : List Char}

theorem visible_of_all (h : cs.all (fun c => !isBlank c) = true) : ∀ c ∈ cs, isBlank c = false :=
  fun c hc => Bool.not_eq_true' _ ▸ List.all_eq_true.1 h c hc

theorem dropWhile_isBlank (hne : cs ≠ []) (h : ∀ c ∈ cs, isBlank c = false) (rest : List Char) :
    (cs ++ rest).dropWhile isBlank = cs ++ rest := by
  cases cs with
  | nil => exact absurd rfl hne
  | cons c cs => exact List.dropWhile_cons_of_neg (by simp [h c List.mem_cons_self])

theorem trimEnd_append (h : ∀ c ∈ cs, isBlank c = false) (rest : List Char) :
    trimEnd (cs ++ rest) = cs ++ trimEnd rest := by
  have hcs : cs.reverse.dropWhile isBlank = cs.reverse := by
    cases cs with
    | nil => rfl
    | cons c cs =>
      have hkept := dropWhile_isBlank (by simp) (fun d hd => h d (List.mem_reverse.1 hd)) []
      rwa [List.append_nil] at hkept
  rw [trimEnd, List.reverse_append, List.dropWhile_append, trimEnd]
  split
  · rename_i hblank
    rw [List.isEmpty_iff.1 hblank, hcs, List.reverse_reverse, List.reverse_nil, List.append_nil]
  · rw [List.reverse_append, List.reverse_reverse]

/-- Visible characters at the start of a text are kept. -/
theorem trimChars_append (hne : cs ≠ []) (h : ∀ c ∈ cs, isBlank c = false) (rest : List Char) :
    trimChars (cs ++ rest) = cs ++ trimEnd rest := by
  rw [trimChars, trimStart, dropWhile_isBlank hne h, trimEnd_append h]

theorem trimEnd_of_visible (h : ∀ c ∈ cs, isBlank c = false) : trimEnd cs = cs := by
  have hnil : trimEnd [] = [] := rfl
  have htrimmed := trimEnd_append h []
  rwa [hnil, List.append_nil] at htrimmed

theorem trimChars_of_visible (h : ∀ c ∈ cs, isBlank c = false) : trimChars cs = cs := by
  by_cases hne : cs = []
  · rw [hne]
    rfl
  · have htrimmed := trimChars_append hne h []
    rwa [List.append_nil, trimEnd_of_visible (List.forall_mem_nil _), List.append_nil] at htrimmed

end ReleaseCandidates.Text
