import Mathlib.Data.List.Basic
import Mathlib.Data.List.TakeWhile
import ReleaseCandidates.Yaml.Token.Text
import ReleaseCandidates.Yaml.Tree

set_option autoImplicit false

/-! # Walking over written text

What the program writes holds no tabs and breaks its lines by characters that stay themselves when
they are read. So the place after a written text is found by walking over its characters one at a
time (`Cursor.walk`), however the reader gets there. The words and gaps of scalars are separated
here too: every reader of scalars takes a word, then the gap after it, and so on. -/

namespace ReleaseCandidates.Yaml

/-! ## Characters -/

/-- Whether the character is a line break that is read as itself. -/
def isKeptBreak (x : Char) : Bool :=
  x == '\n' || x == lineSeparator || x == paragraphSeparator

theorem isBreak_of_isKeptBreak {x : Char} (h : isKeptBreak x = true) : isBreak x = true := by
  simp only [isKeptBreak, Bool.or_eq_true, beq_iff_eq] at h
  rcases h with (rfl | rfl) | rfl <;> rfl

theorem not_isGap_of_isBreak {x : Char} (h : isBreak x = true) : isGap x = false := by
  simp only [isBreak, Bool.or_eq_true, beq_iff_eq] at h
  rcases h with (((rfl | rfl) | rfl) | rfl) | rfl <;> rfl

/-- A break that a writer may leave as it is, is read as itself. -/
theorem isKeptBreak_of_isPrintable {x : Char} (hbreak : isBreak x = true)
    (hprint : isPrintable x = true) : isKeptBreak x = true := by
  simp only [isBreak, Bool.or_eq_true, beq_iff_eq] at hbreak
  rcases hbreak with (((rfl | rfl) | rfl) | rfl) | rfl
  · rfl
  · cases hprint
  · cases hprint
  · rfl
  · rfl

/-- The only gap that a writer may leave as it is, is a space. -/
theorem eq_space_of_isPrintable {x : Char} (hgap : isGap x = true)
    (hprint : isPrintable x = true) : x = ' ' := by
  simp only [isGap, Bool.or_eq_true, beq_iff_eq] at hgap
  rcases hgap with rfl | rfl
  · rfl
  · cases hprint

@[simp] theorem length_spaces (n : Nat) : (spaces n).length = n := by
  simp [spaces]

theorem not_isBreak_of_mem_spaces {n : Nat} {x : Char} (h : x ∈ spaces n) : isBreak x = false := by
  rw [List.eq_of_mem_replicate h]; rfl

theorem exists_eq_spaces {gap : List Char} (hne : gap ≠ []) (h : ∀ x ∈ gap, x = ' ') :
    ∃ n, gap = spaces (n + 1) := by
  obtain ⟨x, gap, rfl⟩ := List.exists_cons_of_ne_nil hne
  exact ⟨gap.length, List.eq_replicate_iff.mpr ⟨by simp, h⟩⟩

/-! ## Cursors -/

namespace Cursor

variable {c : Cursor} {x : Char} {text rest : List Char}

/-- The place after one more character, which may break the line. -/
def onward (c : Cursor) (x : Char) : Cursor :=
  if isBreak x then ⟨c.rest.drop 1, c.index + 1, c.line + 1, 0⟩ else c.skip 1

/-- The place after a text. -/
def walk (c : Cursor) (text : List Char) : Cursor := text.foldl onward c

@[simp] theorem walk_nil (c : Cursor) : c.walk [] = c := rfl

theorem walk_cons (c : Cursor) (x : Char) (text : List Char) :
    c.walk (x :: text) = (c.walk [x]).walk text := rfl

theorem walk_append (c : Cursor) (text text' : List Char) :
    c.walk (text ++ text') = (c.walk text).walk text' := List.foldl_append

theorem walk_singleton (h : isBreak x = false) : c.walk [x] = c.skip 1 := by
  simp [walk, onward, h]

theorem walk_break (h : isBreak x = true) :
    c.walk [x] = ⟨c.rest.drop 1, c.index + 1, c.line + 1, 0⟩ := by
  simp [walk, onward, h]

theorem rest_onward (c : Cursor) (x : Char) : (c.onward x).rest = c.rest.drop 1 := by
  unfold onward
  split <;> rfl

theorem index_onward (c : Cursor) (x : Char) : (c.onward x).index = c.index + 1 := by
  unfold onward
  split <;> rfl

/-- After a text that stands at a place comes what follows the text. -/
theorem rest_walk (h : c.rest = text ++ rest) : (c.walk text).rest = rest := by
  induction text generalizing c with
  | nil => exact h
  | cons x text ih =>
    apply ih
    rw [rest_onward, h]
    rfl

@[simp] theorem index_walk (c : Cursor) (text : List Char) :
    (c.walk text).index = c.index + text.length := by
  induction text generalizing c with
  | nil => rfl
  | cons x text ih =>
    rw [List.length_cons, walk_cons, ih]
    show (c.onward x).index + text.length = _
    rw [index_onward]
    omega

/-- In one line, walking over characters is skipping them. -/
theorem walk_eq_skip (h : ∀ x ∈ text, isBreak x = false) : c.walk text = c.skip text.length := by
  induction text generalizing c with
  | nil => simp [skip]
  | cons x text ih =>
    rw [walk_cons, walk_singleton (h x (by simp)), ih (fun y hy => h y (by simp [hy]))]
    simp [skip, Nat.add_assoc, Nat.add_comm 1]

theorem column_walk (h : ∀ x ∈ text, isBreak x = false) :
    (c.walk text).column = c.column + text.length := by
  rw [walk_eq_skip h]; rfl

theorem line_walk (h : ∀ x ∈ text, isBreak x = false) : (c.walk text).line = c.line := by
  rw [walk_eq_skip h]; rfl

/-- After a break and spaces, the column is the number of the spaces. -/
theorem column_walk_break (c : Cursor) (text : List Char) (h : isBreak x = true) (n : Nat) :
    (c.walk (text ++ x :: spaces n)).column = n := by
  rw [walk_append, walk_cons, walk_break h, column_walk fun _ => not_isBreak_of_mem_spaces]
  simp

theorem takeBreak_eq (h : c.rest = x :: rest) (hx : isKeptBreak x = true) :
    c.takeBreak = ([x], c.walk [x]) := by
  rw [walk_break (isBreak_of_isKeptBreak hx)]
  simp only [isKeptBreak, Bool.or_eq_true, beq_iff_eq] at hx
  rcases hx with (rfl | rfl) | rfl
  all_goals
    unfold takeBreak
    rw [h]
    rfl

theorem peek_zero (h : c.rest = x :: rest) : c.peek 0 = some x := by
  simp [peek, h]

theorem skipWhile_eq (h : c.rest = text ++ rest) (p : Char → Bool)
    (htext : ∀ x ∈ text, p x = true ∧ isBreak x = false) (hrest : ∀ x ∈ rest.head?, p x = false) :
    c.skipWhile p = c.walk text := by
  have htake : c.rest.takeWhile p = text := by
    rw [h, List.takeWhile_append_of_pos fun x hx => (htext x hx).1]
    cases rest with
    | nil => simp
    | cons y rest => simp [hrest y (by simp)]
  have hdrop : c.rest.dropWhile p = rest := by
    rw [h, List.dropWhile_append_of_pos fun x hx => (htext x hx).1]
    cases rest with
    | nil => simp
    | cons y rest => simp [hrest y (by simp)]
  rw [walk_eq_skip fun x hx => (htext x hx).2]
  unfold skipWhile skip
  rw [htake, hdrop, h, List.drop_left]

end Cursor

/-! ## Gaps -/

namespace Gap

variable {c : Cursor} {x : Char} {text rest : List Char}

/-- A gap with one more character. -/
def add (g : Gap) (x : Char) : Gap :=
  if isBreak x then
    if g.broken then { g with moreBreaks := x :: g.moreBreaks }
    else { g with firstBreak := [x], spaces := [], broken := true }
  else if g.broken then g else { g with spaces := x :: g.spaces }

/-- The reader of gaps walks over spaces and breaks, and gathers them. -/
theorem read_walk {limit : Option Int} (text : List Char) {rest : List Char}
    (htext : ∀ x ∈ text, x = ' ' ∨ isKeptBreak x = true)
    (hrest : ∀ x ∈ rest.head?, isGap x = false ∧ isBreak x = false) :
    ∀ {fuel : Nat} {c : Cursor} (g : Gap), c.rest = text ++ rest → text.length ≤ fuel →
      read limit fuel c g = some (text.foldl add g, c.walk text) := by
  induction text with
  | nil =>
    intro fuel c g hc _
    cases fuel with
    | zero => rfl
    | succ fuel =>
      unfold read
      cases hrest' : rest with
      | nil => simp [Cursor.peek, hc, hrest']
      | cons y rest' =>
        obtain ⟨hgap, hbreak⟩ := hrest y (by simp [hrest'])
        simp [Cursor.peek, hc, hrest', hgap, hbreak]
  | cons x text ih =>
    intro fuel c g hc hfuel
    obtain ⟨fuel, rfl⟩ : ∃ k, fuel = k + 1 := ⟨fuel - 1, by simp at hfuel; omega⟩
    have hfuel' : text.length ≤ fuel := by simpa using hfuel
    have hc' : (c.walk [x]).rest = text ++ rest := Cursor.rest_walk hc
    have ih : ∀ g, read limit fuel (c.walk [x]) g =
        some (text.foldl add g, (c.walk [x]).walk text) :=
      fun g => ih (fun y hy => htext y (by simp [hy])) g hc' hfuel'
    rw [read, Cursor.peek_zero hc, List.foldl_cons, Cursor.walk_cons]
    rcases htext x (by simp) with rfl | hx
    · -- a space in front of the first break counts, one after it is indentation
      have hgap : isGap ' ' = true := rfl
      have hbreak : isBreak ' ' = false := rfl
      have htab : (' ' == '\t') = false := rfl
      rw [Cursor.walk_singleton hbreak] at ih ⊢
      by_cases hbroken : g.broken = true
      · simp only [hgap, hbroken, htab, if_true, Bool.false_and, Bool.false_eq_true, if_false, ih]
        simp [add, hbreak, hbroken]
      · simp only [hgap, hbroken, if_true, Bool.false_eq_true, if_false, ih]
        simp [add, hbreak, hbroken]
    · have hbreak := isBreak_of_isKeptBreak hx
      have hgap := not_isGap_of_isBreak hbreak
      by_cases hbroken : g.broken = true
      · simp only [hgap, hbreak, hbroken, Cursor.takeBreak_eq hc hx, if_true, Bool.false_eq_true,
          if_false, ih]
        simp [add, hbreak, hbroken]
      · simp only [hgap, hbreak, hbroken, Cursor.takeBreak_eq hc hx, if_true, Bool.false_eq_true,
          if_false, ih]
        simp [add, hbreak, hbroken]

theorem foldl_add_spaces (n : Nat) {g : Gap} (h : g.broken = false) :
    (Yaml.spaces n).foldl add g = { g with spaces := Yaml.spaces n ++ g.spaces } := by
  induction n generalizing g with
  | zero => rfl
  | succ n ih =>
    have hadd : g.add ' ' = { g with spaces := ' ' :: g.spaces } := by
      simp [add, h, show isBreak ' ' = false from rfl]
    show (Yaml.spaces n).foldl add (g.add ' ') = _
    rw [hadd, ih (g := { g with spaces := ' ' :: g.spaces }) h]
    simp [Yaml.spaces, List.replicate_succ']

theorem foldl_add_spaces_of_broken (n : Nat) {g : Gap} (h : g.broken = true) :
    (Yaml.spaces n).foldl add g = g := by
  induction n with
  | zero => rfl
  | succ n ih =>
    have hadd : g.add ' ' = g := by
      simp [add, h, show isBreak ' ' = false from rfl]
    show (Yaml.spaces n).foldl add (g.add ' ') = _
    rw [hadd, ih]

theorem foldl_add_breaks {breaks : List Char} (hbreaks : ∀ x ∈ breaks, isBreak x = true) {g : Gap}
    (h : g.broken = true) :
    breaks.foldl add g = { g with moreBreaks := breaks.reverse ++ g.moreBreaks } := by
  induction breaks generalizing g with
  | nil => rfl
  | cons x breaks ih =>
    have hadd : g.add x = { g with moreBreaks := x :: g.moreBreaks } := by
      simp [add, h, hbreaks x (by simp)]
    rw [List.foldl_cons, hadd, ih (fun y hy => hbreaks y (by simp [hy]))
      (g := { g with moreBreaks := x :: g.moreBreaks }) h]
    simp

/-- Spaces stand for themselves. -/
theorem text_spaces (n : Nat) : ((Yaml.spaces n).foldl add none).text = Yaml.spaces n := by
  rw [foldl_add_spaces n rfl]
  simp [text, none, Yaml.spaces]

/-- Breaks that are not folded stand for themselves, and the indentation after them for nothing. -/
theorem text_breaks {breaks : List Char} (hx : isBreak x = true) (hfold : x ≠ '\n')
    (hbreaks : ∀ y ∈ breaks, isBreak y = true) (n : Nat) :
    ((x :: breaks ++ Yaml.spaces n).foldl add none).text = x :: breaks := by
  have hadd : none.add x = ⟨[], [x], [], true⟩ := by simp [add, none, hx]
  rw [List.foldl_append, List.foldl_cons, hadd, foldl_add_breaks hbreaks rfl,
    foldl_add_spaces_of_broken n rfl]
  simp [text, hfold]

theorem broken_line_end (g : Gap) (n : Nat) : (('\n' :: Yaml.spaces n).foldl add g).broken = true := by
  have hadd : (g.add '\n').broken = true := by
    simp only [add, show isBreak '\n' = true from rfl, if_true]
    split <;> simp_all
  rw [List.foldl_cons, foldl_add_spaces_of_broken n hadd, hadd]

end Gap

/-! ## Runs -/

theorem eq_false_of_mem_head_dropWhile {p : Char → Bool} {text : List Char} {x : Char}
    (h : x ∈ (text.dropWhile p).head?) : p x = false := by
  have hnot := List.head?_dropWhile_not p text
  rw [Option.mem_def.mp h] at hnot
  exact hnot

/-- Every text is a run of characters that fail a test, then a run of characters that pass it, and
so on. What holds of a last run, and of two runs before a text that it holds of, holds of every
text. -/
@[elab_as_elim]
theorem runs_induction (p : Char → Bool) {motive : List Char → Prop}
    (last : ∀ run, (∀ x ∈ run, p x = false) → motive run)
    (next : ∀ run gap rest, (∀ x ∈ run, p x = false) → gap ≠ [] → (∀ x ∈ gap, p x = true) →
      (∀ x ∈ rest.head?, p x = false) → motive rest → motive (run ++ (gap ++ rest)))
    (text : List Char) : motive text := by
  -- by the length of the text, which gets shorter by the run and by the gap
  have hruns : ∀ n (text : List Char), text.length ≤ n → motive text := by
    intro n
    induction n with
    | zero =>
      intro text hlength
      obtain rfl : text = [] := List.length_eq_zero_iff.mp (Nat.le_zero.mp hlength)
      exact last [] (by simp)
    | succ n ih =>
      intro text hlength
      let run := text.takeWhile fun x => !p x
      let after := text.dropWhile fun x => !p x
      have hrun : ∀ x ∈ run, p x = false := by
        intro x hx
        simpa using List.mem_takeWhile_imp hx
      have htext : text = run ++ after := List.takeWhile_append_dropWhile.symm
      cases hafter : after with
      | nil =>
        rw [htext, hafter, List.append_nil]
        exact last run hrun
      | cons y after' =>
        have hy : p y = true := by
          have hmem : y ∈ (text.dropWhile fun x => !p x).head? := by
            show y ∈ after.head?
            simp [hafter]
          simpa using eq_false_of_mem_head_dropWhile hmem
        have hsplit : after = (y :: after'.takeWhile p) ++ after'.dropWhile p := by
          rw [hafter, List.cons_append, List.takeWhile_append_dropWhile]
        rw [htext, hsplit]
        refine next run _ _ hrun (by simp) ?_ (fun x => eq_false_of_mem_head_dropWhile) ?_
        · intro x hx
          rcases List.mem_cons.mp hx with rfl | hx
          · exact hy
          · exact List.mem_takeWhile_imp hx
        · apply ih
          have hlength' : text.length = run.length + (after'.length + 1) := by
            rw [htext, List.length_append, hafter, List.length_cons]
          have := (List.dropWhile_suffix p (l := after')).length_le
          omega
  exact hruns _ text (Nat.le_refl _)

end ReleaseCandidates.Yaml
