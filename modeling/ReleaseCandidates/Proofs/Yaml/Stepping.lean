import ReleaseCandidates.Proofs.Yaml.Walking
import ReleaseCandidates.Yaml.Token.Scan

set_option autoImplicit false

/-! # Steps of a scan

A step of the scanner first arrives at a token (`Scanner.arrive`): it passes the gap and the line
breaks before it and closes the blocks that end left of it. Only then does it take the token. A line
of a document is reached by arriving at it, so what holds between two lines is said of the place
where the scan will have arrived (`Scanner.ReadyAt`), and lines are put together by runs that lead
from one place to the next (`Scanner.Leads`). -/

namespace ReleaseCandidates.Yaml

/-! ## Lines -/

/-- The column of the first character of a line. -/
def indentation (text : List Char) : Nat := (text.takeWhile (· == ' ')).length

/-- A line without its indentation. -/
def unindented (text : List Char) : List Char := text.dropWhile (· == ' ')

/-- Whether a token may start the text: neither a gap, a break nor a comment comes first. -/
def StartsToken (text : List Char) : Prop :=
  ∀ x ∈ text.head?, isGap x = false ∧ isBreak x = false ∧ x ≠ '#' ∧ x ≠ byteOrderMark

/-- Whether a line that belongs to no deeper column than `n` comes first. -/
structure NextLine (n : Nat) (text : List Char) : Prop where
  indentation_le : indentation text ≤ n
  starts : StartsToken (unindented text)

theorem NextLine.mono {n m : Nat} {text : List Char} (h : NextLine n text) (hnm : n ≤ m) :
    NextLine m text :=
  ⟨Nat.le_trans h.indentation_le hnm, h.starts⟩

theorem spaces_append_unindented (text : List Char) :
    spaces (indentation text) ++ unindented text = text := by
  have hspaces : spaces (indentation text) = text.takeWhile (· == ' ') := by
    refine (List.eq_replicate_iff.mpr ⟨rfl, fun x hx => ?_⟩).symm
    simpa using List.mem_takeWhile_imp hx
  rw [hspaces]
  exact List.takeWhile_append_dropWhile

theorem StartsToken.head_ne_space {text : List Char} (h : StartsToken text) :
    ∀ x ∈ text.head?, (x == ' ') = false := by
  intro x hx
  have hgap := (h x hx).1
  simp only [isGap, Bool.or_eq_false_iff] at hgap
  exact hgap.1

theorem takeWhile_spaces_append (n : Nat) {text : List Char} (h : StartsToken text) :
    (spaces n ++ text).takeWhile (· == ' ') = spaces n := by
  rw [List.takeWhile_append_of_pos fun x hx => by simp [List.eq_of_mem_replicate hx]]
  cases text with
  | nil => simp
  | cons x text => simp [h.head_ne_space x (by simp)]

theorem indentation_spaces_append (n : Nat) {text : List Char} (h : StartsToken text) :
    indentation (spaces n ++ text) = n := by
  rw [indentation, takeWhile_spaces_append n h, length_spaces]

theorem unindented_spaces_append (n : Nat) {text : List Char} (h : StartsToken text) :
    unindented (spaces n ++ text) = text := by
  rw [unindented, List.dropWhile_append_of_pos fun x hx => by simp [List.eq_of_mem_replicate hx]]
  cases text with
  | nil => simp
  | cons x text => simp [h.head_ne_space x (by simp)]

theorem nextLine_spaces_append {n m : Nat} {text : List Char} (h : StartsToken text) (hnm : n ≤ m) :
    NextLine m (spaces n ++ text) := by
  refine ⟨?_, ?_⟩
  · rw [indentation_spaces_append n h]; exact hnm
  · rw [unindented_spaces_append n h]; exact h

namespace Scanner

variable {s s' s'' a : Scanner} {c : Cursor} {allowed : Bool} {indent outerIndent : Int}
  {outer : List Int} {found : List Token} {fuel : Nat}

/-! ## Arriving -/

/-- Moves to the next token, and closes the blocks that end left of it. -/
def arrive (fuel : Nat) (s : Scanner) : Option Scanner :=
  ((skipToToken fuel s).dropStale).map fun s => s.unwind s.column

/-- Takes the token at the cursor. -/
def take (fuel : Nat) (s : Scanner) : Option Scanner :=
  match s.cursor.peek 0 with
  | none => s.takeEnd
  | some x => takeToken fuel s x

theorem step_eq (fuel : Nat) (s : Scanner) :
    step fuel s = (arrive fuel s).bind fun a => (take fuel a).bind dropStale := by
  unfold step arrive
  cases (skipToToken fuel s).dropStale with
  | none => rfl
  | some s =>
    show _ = (take fuel (s.unwind s.column)).bind dropStale
    unfold take
    simp only [Option.bind_eq_bind, Option.bind_some]
    cases (s.unwind s.column).cursor.peek 0 with
    | none => rfl
    | some x => rfl

/-- The scan arrives at a place, whatever its fuel, if it has enough. -/
structure Ready (s a : Scanner) : Prop where
  arrive_eq : ∀ fuel, s.cursor.rest.length + 2 ≤ fuel → arrive fuel s = some a
  length_le : a.cursor.rest.length ≤ s.cursor.rest.length

/-! ## Runs -/

/-- The run from one scan goes on as a run from the other. -/
def Leads (s s' : Scanner) : Prop :=
  ∀ fuel, s.cursor.rest.length + 2 ≤ fuel →
    ∃ fuel', s'.cursor.rest.length + 2 ≤ fuel' ∧ run fuel s = run fuel' s'

theorem Leads.refl (s : Scanner) : Leads s s := fun fuel hfuel => ⟨fuel, hfuel, rfl⟩

theorem Leads.trans (h : Leads s s') (h' : Leads s' s'') : Leads s s'' := by
  intro fuel hfuel
  obtain ⟨fuel', hfuel', heq⟩ := h fuel hfuel
  obtain ⟨fuel'', hfuel'', heq'⟩ := h' fuel' hfuel'
  exact ⟨fuel'', hfuel'', heq.trans heq'⟩

/-- A step leads from a scan to the next one. -/
theorem Leads.of_step (hready : Ready s a)
    (htake : ∀ fuel, a.cursor.rest.length + 1 < fuel → (take fuel a).bind dropStale = some s')
    (hlength : s'.cursor.rest.length < a.cursor.rest.length)
    (hend : s'.found.head? ≠ some .streamEnd) : Leads s s' := by
  intro fuel hfuel
  have hle := hready.length_le
  obtain ⟨fuel, rfl⟩ : ∃ k, fuel = k + 1 := ⟨fuel - 1, by omega⟩
  refine ⟨fuel, by omega, ?_⟩
  have hstep : step (fuel + 1) s = some s' := by
    rw [step_eq, hready.arrive_eq (fuel + 1) hfuel]
    exact htake (fuel + 1) (by omega)
  rw [run, hstep]
  have hnot : (s'.found.head? == some .streamEnd) = false := by simpa using hend
  simp only [hnot, Bool.false_eq_true, if_false]

/-! ## Between tokens -/

/-- A scan outside flow collections, without a candidate for a key. -/
def between (c : Cursor) (allowed : Bool) (indent : Int) (outer : List Int) (found : List Token) :
    Scanner :=
  ⟨c, 0, indent, outer, allowed, [none], found, found.length⟩

@[simp] theorem between_cursor : (between c allowed indent outer found).cursor = c := rfl

@[simp] theorem between_found : (between c allowed indent outer found).found = found := rfl

@[simp] theorem between_inFlow : (between c allowed indent outer found).inFlow = false := rfl

@[simp] theorem between_keyAllowed : (between c allowed indent outer found).keyAllowed = allowed :=
  rfl

/-- No block ends at a column that is not left of it. -/
theorem unwind_self {column : Int} (h : indent ≤ column) :
    (between c allowed indent outer found).unwind column = between c allowed indent outer found := by
  have hnot : ¬column < indent := by omega
  show closeBlocks column (outer.length + 1) (between c allowed indent outer found) = _
  rw [closeBlocks]
  exact if_neg hnot

/-- A block right of the column ends, and then perhaps the one around it. -/
theorem unwind_pop {column : Int} (h : column < indent) :
    (between c allowed indent (outerIndent :: outer) found).unwind column =
      (between c allowed outerIndent outer (.blockEnd :: found)).unwind column := by
  show closeBlocks column (outer.length + 1 + 1) (between c allowed indent _ found) = _
  rw [closeBlocks]
  exact if_pos h

/-! ## Gaps between tokens -/

/-- The scan moves over the spaces before a token. -/
theorem skipToToken_spaces {n : Nat} {text : List Char} (hc : s.cursor.rest = spaces n ++ text)
    (htext : StartsToken text) :
    skipToToken (fuel + 1) s = s.moveTo (s.cursor.walk (spaces n)) := by
  have hmark : (decide (s.cursor.column = 0) && s.cursor.has 0 byteOrderMark) = false := by
    have hhas : s.cursor.has 0 byteOrderMark = false := by
      cases n with
      | zero =>
        have hc' : s.cursor.rest = text := hc
        cases text with
        | nil => simp [Cursor.has, Cursor.peek, hc']
        | cons x text =>
          simpa [Cursor.has, Cursor.peek_zero hc'] using (htext x (by simp)).2.2.2
      | succ n =>
        have hc' : s.cursor.rest = ' ' :: (spaces n ++ text) := hc
        rw [Cursor.has, Cursor.peek_zero hc']
        rfl
    rw [hhas, Bool.and_false]
  have hskip : (s.cursor.skipWhile fun x => x == ' ' || ((s.inFlow || !s.keyAllowed) && x == '\t')) =
      s.cursor.walk (spaces n) := by
    refine Cursor.skipWhile_eq hc _ ?_ ?_
    · intro x hx
      rw [List.eq_of_mem_replicate hx]
      exact ⟨rfl, rfl⟩
    · intro x hx
      have hgap := (htext x hx).1
      simp only [isGap, Bool.or_eq_false_iff] at hgap
      simp [hgap.1, hgap.2]
  have hplace : (s.cursor.walk (spaces n)).rest = text := Cursor.rest_walk hc
  -- what comes then neither starts a comment nor ends the line
  have hsign : (s.cursor.walk (spaces n)).has 0 '#' = false := by
    cases text with
    | nil => simp [Cursor.has, Cursor.peek, hplace]
    | cons x text => simpa [Cursor.has, Cursor.peek_zero hplace] using (htext x (by simp)).2.2.1
  have hbreak : (s.cursor.walk (spaces n)).test 0 isBreak = false := by
    cases text with
    | nil => simp [Cursor.test, Cursor.peek, hplace]
    | cons x text => simp [Cursor.test, Cursor.peek_zero hplace, (htext x (by simp)).2.1]
  rw [skipToToken]
  simp only [hmark, hskip, hsign, hbreak, Bool.false_eq_true, if_false]

/-- The scan moves over the end of a line and the indentation of the next one, where a key may
start. -/
theorem skipToToken_line {n : Nat} {text : List Char} (hc : c.rest = '\n' :: (spaces n ++ text))
    (htext : StartsToken text) :
    skipToToken (fuel + 2) (between c allowed indent outer found) =
      between (c.walk ('\n' :: spaces n)) true indent outer found := by
  have hmark : c.has 0 byteOrderMark = false := by
    rw [Cursor.has, Cursor.peek_zero hc]
    rfl
  have hnone : c.rest = [] ++ '\n' :: (spaces n ++ text) := hc
  have hskip : (c.skipWhile fun x => x == ' ' || ((false || !allowed) && x == '\t')) = c :=
    Cursor.skipWhile_eq hnone _ (by simp) (by simp)
  have hsign : c.has 0 '#' = false := by
    rw [Cursor.has, Cursor.peek_zero hc]
    rfl
  have hbreak : c.test 0 isBreak = true := by
    rw [Cursor.test, Cursor.peek_zero hc]
    rfl
  have hnext : c.skipBreak = c.walk ['\n'] := by
    rw [Cursor.skipBreak, Cursor.takeBreak_eq hc rfl]
  have hone : c.rest = ['\n'] ++ (spaces n ++ text) := hc
  -- the break is passed first, and then the line after it like the rest of any line
  have hfirst : skipToToken (fuel + 2) (between c allowed indent outer found) =
      skipToToken (fuel + 1) (between (c.walk ['\n']) true indent outer found) := by
    rw [skipToToken]
    simp only [between_cursor, between_inFlow, between_keyAllowed, hmark, hskip, hsign, hbreak, hnext,
      Bool.and_false, Bool.false_eq_true, if_false, if_true, Bool.not_false, Bool.or_true]
    rfl
  rw [hfirst, skipToToken_spaces (Cursor.rest_walk hone) htext, Cursor.walk_cons]
  rfl

/-! ## Being ready for a token -/

theorem cursor_closeBlocks (column : Int) (n : Nat) (s : Scanner) :
    (closeBlocks column n s).cursor = s.cursor := by
  induction n generalizing s with
  | zero => rfl
  | succ n ih =>
    rw [closeBlocks]
    split
    · rw [ih]; rfl
    · rfl

/-- In a line the scan arrives at the token after the spaces. -/
theorem Ready.of_spaces {n : Nat} {text : List Char} (hc : c.rest = spaces n ++ text)
    (htext : StartsToken text) :
    Ready (between c allowed indent outer found)
      ((between (c.walk (spaces n)) allowed indent outer found).unwind (c.walk (spaces n)).column) := by
  refine ⟨?_, ?_⟩
  · intro fuel hfuel
    obtain ⟨fuel, rfl⟩ : ∃ k, fuel = k + 1 := ⟨fuel - 1, by omega⟩
    have hskip : skipToToken (fuel + 1) (between c allowed indent outer found) =
        between (c.walk (spaces n)) allowed indent outer found := skipToToken_spaces hc htext
    rw [arrive, hskip]
    rfl
  · show (closeBlocks _ _ _).cursor.rest.length ≤ c.rest.length
    rw [cursor_closeBlocks, between_cursor, Cursor.rest_walk hc, hc, List.length_append]
    omega

/-- Whether the scan arrives at a line: at its first token, after closing the blocks that end left
of it. -/
def ReadyAt (s : Scanner) (text : List Char) (indent : Int) (outer : List Int)
    (found : List Token) : Prop :=
  ∃ c : Cursor, c.rest = unindented text ∧ c.column = indentation text ∧
    Ready s ((between c true indent outer found).unwind (indentation text))

/-- At the end of a line the scan is ready for the next line. -/
theorem ReadyAt.of_line {text : List Char} (hc : c.rest = '\n' :: text)
    (htext : StartsToken (unindented text)) :
    ReadyAt (between c allowed indent outer found) text indent outer found := by
  let place := c.walk ('\n' :: spaces (indentation text))
  have hc' : c.rest = '\n' :: spaces (indentation text) ++ unindented text := by
    rw [List.cons_append, spaces_append_unindented, hc]
  have hcolumn : place.column = indentation text :=
    Cursor.column_walk_break c [] rfl (indentation text)
  refine ⟨place, Cursor.rest_walk hc', hcolumn, ?_, ?_⟩
  · intro fuel hfuel
    obtain ⟨fuel, rfl⟩ : ∃ k, fuel = k + 2 := ⟨fuel - 2, by omega⟩
    rw [arrive, skipToToken_line hc' htext]
    show some ((between place true indent outer found).unwind place.column) = _
    rw [hcolumn]
  · show (closeBlocks _ _ _).cursor.rest.length ≤ c.rest.length
    rw [cursor_closeBlocks, between_cursor, Cursor.rest_walk hc', hc', List.length_append]
    omega

/-- At the first token of a line the scan is ready for the line. -/
theorem ReadyAt.of_token {text : List Char} (hc : c.rest = unindented text)
    (hcolumn : c.column = indentation text) (htext : StartsToken (unindented text)) :
    ReadyAt (between c true indent outer found) text indent outer found := by
  refine ⟨c, hc, hcolumn, ?_⟩
  rw [← hcolumn]
  exact Ready.of_spaces (n := 0) hc htext

/-- A block that ends left of the line is closed before it. -/
theorem ReadyAt.pop {text : List Char}
    (h : ReadyAt s text indent (outerIndent :: outer) found) (hlt : (indentation text : Int) < indent) :
    ReadyAt s text outerIndent outer (.blockEnd :: found) := by
  obtain ⟨c, hc, hcolumn, hready⟩ := h
  rw [unwind_pop hlt] at hready
  exact ⟨c, hc, hcolumn, hready⟩

/-- No block ends at a line that starts right of the current one or at it. -/
theorem ReadyAt.ready {n : Nat} {text : List Char}
    (h : ReadyAt s (spaces n ++ text) indent outer found) (htext : StartsToken text)
    (hle : indent ≤ n) :
    ∃ c : Cursor, c.rest = text ∧ c.column = n ∧ Ready s (between c true indent outer found) := by
  obtain ⟨c, hc, hcolumn, hready⟩ := h
  rw [unindented_spaces_append n htext] at hc
  rw [indentation_spaces_append n htext] at hcolumn hready
  rw [unwind_self hle] at hready
  exact ⟨c, hc, hcolumn, hready⟩

/-- After a dash and a space the scan is ready for a line that starts there. -/
theorem ReadyAt.of_space {n : Nat} {text : List Char} (hc : c.rest = spaces 1 ++ text)
    (hcolumn : c.column + 1 = n) (htext : StartsToken text) :
    ReadyAt (between c true indent outer found) (spaces n ++ text) indent outer found := by
  have hcolumn' : (c.walk (spaces 1)).column = n := by
    rw [Cursor.column_walk fun _ => not_isBreak_of_mem_spaces, length_spaces, hcolumn]
  refine ⟨c.walk (spaces 1), ?_, ?_, ?_⟩
  · rw [unindented_spaces_append n htext]
    exact Cursor.rest_walk hc
  · rw [indentation_spaces_append n htext, hcolumn']
  · rw [indentation_spaces_append n htext, ← hcolumn']
    exact Ready.of_spaces hc htext

end Scanner

end ReleaseCandidates.Yaml
