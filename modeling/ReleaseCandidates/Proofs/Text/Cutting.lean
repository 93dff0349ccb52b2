import Mathlib.Data.List.TakeWhile
import ReleaseCandidates.Text.Pieces

set_option autoImplicit false

/-! # Cutting what was joined

Joining pieces that do not hold the separator loses nothing: cutting gives the pieces back
(`Text.split_join`), so a joined text has only one reading (`Text.join_injective`). A text that goes
on behind a separator is cut on both sides of it on its own (`Text.split_append`). The first and the
last separator of a text are found by what stands before and behind them. -/

namespace ReleaseCandidates.Text

variable {sep : Char} {cs rest piece : List Char} {ps qs : List (List Char)}

/-! ## Joining -/

theorem join_cons (sep : Char) (piece : List Char) (h : ps ≠ []) :
    join sep (piece :: ps) = piece ++ sep :: join sep ps := by
  cases ps with
  | nil => exact absurd rfl h
  | cons q qs => rfl

theorem join_append (sep : Char) (hp : ps ≠ []) (hq : qs ≠ []) :
    join sep (ps ++ qs) = join sep ps ++ sep :: join sep qs := by
  induction ps with
  | nil => exact absurd rfl hp
  | cons piece ps ih =>
    cases ps with
    | nil => exact join_cons sep piece hq
    | cons p ps =>
      rw [List.cons_append, join_cons sep piece (by simp), ih (by simp),
        join_cons sep piece (by simp), List.append_assoc, List.cons_append]

/-- Behind pieces that end in an empty one, others follow without a further separator. -/
theorem join_append_empty (sep : Char) (ps : List (List Char)) (hq : qs ≠ []) :
    join sep (ps ++ [[]]) ++ join sep qs = join sep (ps ++ qs) := by
  cases ps with
  | nil => rfl
  | cons piece ps =>
    rw [join_append sep (by simp) (by simp), join_append sep (by simp) hq, List.append_assoc]
    rfl

theorem mem_join {c : Char} (h : c ∈ join sep ps) : c = sep ∨ ∃ piece ∈ ps, c ∈ piece := by
  induction ps with
  | nil => cases h
  | cons piece ps ih =>
    cases ps with
    | nil => exact .inr ⟨piece, List.mem_cons_self, h⟩
    | cons p ps =>
      rw [join_cons sep piece (by simp), List.mem_append, List.mem_cons] at h
      rcases h with h | h | h
      · exact .inr ⟨piece, List.mem_cons_self, h⟩
      · exact .inl h
      · obtain rfl | ⟨other, hother, hc⟩ := ih h
        · exact .inl rfl
        · exact .inr ⟨other, List.mem_cons_of_mem _ hother, hc⟩

theorem mem_join_of_mem {c : Char} (hpiece : piece ∈ ps) (hc : c ∈ piece) : c ∈ join sep ps := by
  induction ps with
  | nil => cases hpiece
  | cons p ps ih =>
    by_cases hne : ps = []
    · subst hne
      rwa [List.mem_singleton.1 hpiece] at hc
    · rw [join_cons sep p hne, List.mem_append, List.mem_cons]
      rcases List.mem_cons.1 hpiece with rfl | hpiece
      · exact .inl hc
      · exact .inr (.inr (ih hpiece))

/-! ## Cutting -/

theorem split_of_not_mem (h : sep ∉ cs) : split sep cs = [cs] := by
  induction cs with
  | nil => rfl
  | cons c cs ih =>
    rw [List.mem_cons, not_or] at h
    rw [split, if_neg (Ne.symm h.1), ih h.2]

/-- Both sides of a separator are cut on their own. -/
theorem split_append (sep : Char) (cs rest : List Char) :
    split sep (cs ++ sep :: rest) = split sep cs ++ split sep rest := by
  induction cs with
  | nil => simp [split]
  | cons c cs ih =>
    by_cases hc : c = sep
    · simp only [List.cons_append, split, hc, if_true, ih]
    · rw [List.cons_append, split, if_neg hc, ih, split, if_neg hc]
      cases hs : split sep cs with
      | nil => exact absurd hs (split_ne_nil sep cs)
      | cons piece pieces => rfl

theorem length_split (sep : Char) (cs : List Char) : (split sep cs).length = cs.count sep + 1 := by
  induction cs with
  | nil => rfl
  | cons c cs ih =>
    by_cases hc : c = sep
    · subst hc
      rw [split, if_pos rfl, List.length_cons, ih, List.count_cons_self]
    · rw [split, if_neg hc, List.count_cons_of_ne hc]
      cases hs : split sep cs with
      | nil => exact absurd hs (split_ne_nil sep cs)
      | cons piece pieces =>
        rw [hs] at ih
        exact ih

/-- Cutting gives joined pieces back. -/
theorem split_join (hne : ps ≠ []) (h : ∀ piece ∈ ps, sep ∉ piece) :
    split sep (join sep ps) = ps := by
  induction ps with
  | nil => exact absurd rfl hne
  | cons piece ps ih =>
    obtain ⟨hpiece, hps⟩ := List.forall_mem_cons.1 h
    cases ps with
    | nil => exact split_of_not_mem hpiece
    | cons p ps =>
      rw [join_cons sep piece (by simp), split_append, split_of_not_mem hpiece, ih (by simp) hps]
      rfl

theorem join_injective (hp : ps ≠ []) (hq : qs ≠ []) (hps : ∀ piece ∈ ps, sep ∉ piece)
    (hqs : ∀ piece ∈ qs, sep ∉ piece) (h : join sep ps = join sep qs) : ps = qs := by
  rw [← split_join hp hps, h, split_join hq hqs]

/-! ## The first separator -/

/-- Where a run of characters ends in a text, it ends when the text goes on. -/
theorem whiles_append {p : Char → Bool} (h : cs.dropWhile p ≠ []) (rest : List Char) :
    (cs ++ rest).takeWhile p = cs.takeWhile p ∧
      (cs ++ rest).dropWhile p = cs.dropWhile p ++ rest := by
  constructor
  · rw [List.takeWhile_append, if_neg]
    intro hlength
    have hall := congrArg List.length (List.takeWhile_append_dropWhile (p := p) (l := cs))
    rw [List.length_append, hlength] at hall
    exact h (List.length_eq_zero_iff.1 (by omega))
  · rw [List.dropWhile_append, if_neg]
    rwa [List.isEmpty_iff]

theorem ne_of_not_mem (h : sep ∉ cs) : ∀ c ∈ cs, decide (c ≠ sep) = true := by
  intro c hc
  rw [decide_eq_true_eq]
  rintro rfl
  exact h hc

/-- A text is cut at the first separator. -/
theorem cutFirst_append (h : sep ∉ cs) : cutFirst sep (cs ++ sep :: rest) = some (cs, rest) := by
  have hcs := ne_of_not_mem h
  rw [cutFirst, beforeFirst, List.dropWhile_append_of_pos hcs, List.takeWhile_append_of_pos hcs]
  simp

theorem cutFirst_eq_none : cutFirst sep cs = none ↔ sep ∉ cs := by
  constructor
  · intro h hmem
    obtain ⟨before, after, rfl, hbefore⟩ := List.eq_append_cons_of_mem hmem
    rw [cutFirst_append hbefore] at h
    cases h
  · intro h
    rw [cutFirst, List.dropWhile_eq_nil_iff.2 (ne_of_not_mem h)]

theorem cutFirst_eq_some {before after : List Char} :
    cutFirst sep cs = some (before, after) ↔ sep ∉ before ∧ cs = before ++ sep :: after := by
  constructor
  · intro h
    by_cases hmem : sep ∈ cs
    · obtain ⟨start, stop, rfl, hstart⟩ := List.eq_append_cons_of_mem hmem
      rw [cutFirst_append hstart] at h
      cases h
      exact ⟨hstart, rfl⟩
    · rw [cutFirst_eq_none.2 hmem] at h
      cases h
  · rintro ⟨hbefore, rfl⟩
    exact cutFirst_append hbefore

/-! ## The last separator -/

theorem afterLast_append (cs : List Char) (h : sep ∉ rest) :
    afterLast sep (cs ++ sep :: rest) = rest := by
  rw [afterLast, List.reverse_append, List.reverse_cons, List.append_assoc,
    List.takeWhile_append_of_pos (ne_of_not_mem (mt List.mem_reverse.1 h))]
  simp

theorem afterLast_of_not_mem (h : sep ∉ cs) : afterLast sep cs = cs := by
  rw [afterLast, List.takeWhile_eq_self_iff.2 (ne_of_not_mem (mt List.mem_reverse.1 h)),
    List.reverse_reverse]

/-- What stands after the last separator is the last piece. -/
theorem afterLast_eq_getLast (sep : Char) (cs : List Char) :
    afterLast sep cs = (split sep cs).getLast (split_ne_nil sep cs) := by
  by_cases hmem : sep ∈ cs
  · -- the last separator of a text is the first of the reversed text
    obtain ⟨after, before, hcs, hafter⟩ := List.eq_append_cons_of_mem (List.mem_reverse.2 hmem)
    obtain rfl : cs = before.reverse ++ sep :: after.reverse := by
      rw [← List.reverse_reverse cs, hcs]
      simp
    have hafter' : sep ∉ after.reverse := mt List.mem_reverse.1 hafter
    simp only [afterLast_append _ hafter', split_append, split_of_not_mem hafter',
      List.getLast_concat]
  · simp only [afterLast_of_not_mem hmem, split_of_not_mem hmem, List.getLast_singleton]

/-- A text is cut at the last separator. -/
theorem cutLast_append (cs : List Char) (h : sep ∉ rest) :
    cutLast sep (cs ++ sep :: rest) = some (cs, rest) := by
  rw [cutLast, afterLast_append cs h, List.reverse_append, List.reverse_cons, List.append_assoc,
    List.dropWhile_append_of_pos (ne_of_not_mem (mt List.mem_reverse.1 h))]
  simp

end ReleaseCandidates.Text
