import ReleaseCandidates.Proofs.Yaml.Walking

set_option autoImplicit false

/-! # Reading literal blocks back

A text of several lines stands in a block of its own, every line indented. The reader takes a line,
then the breaks after it, and so on; what it makes of the breaks at the end hangs on the mark behind
the bar, which the writer chooses so that the very text comes back (`readBlock_literalLines`). -/

namespace ReleaseCandidates.Yaml

variable {c : Cursor} {n m : Nat} {tail : List Char}

/-! ## Lines as they are written -/

theorem literalLines_line (n : Nat) {line : List Char} (h : ∀ x ∈ line, isBreak x = false)
    (rest : List Char) :
    literalLines n false (line ++ rest) = line ++ literalLines n false rest := by
  induction line with
  | nil => rfl
  | cons x line ih =>
    rw [List.cons_append, literalLines, if_neg (by simp [h x (by simp)]),
      ih fun y hy => h y (by simp [hy])]
    rfl

theorem literalLines_breaks (n : Nat) (atStart : Bool) {breaks : List Char} (hne : breaks ≠ [])
    (h : ∀ x ∈ breaks, isBreak x = true) (rest : List Char) :
    literalLines n atStart (breaks ++ rest) = breaks ++ literalLines n true rest := by
  induction breaks generalizing atStart with
  | nil => exact absurd rfl hne
  | cons x breaks ih =>
    rw [List.cons_append, literalLines, if_pos (h x (by simp))]
    cases breaks with
    | nil => rfl
    | cons y breaks => rw [ih true (by simp) fun z hz => h z (by simp [hz])]; rfl

/-- A line starts with its indentation, unless it is empty. -/
theorem literalLines_start (n : Nat) {x : Char} (hx : isBreak x = false) (rest : List Char) :
    literalLines n true (x :: rest) = spaces n ++ literalLines n false (x :: rest) := by
  simp [literalLines, hx]

theorem literalLines_snoc (n : Nat) {b : Char} (hb : isBreak b = true) (atStart : Bool)
    (text : List Char) :
    literalLines n atStart (text ++ [b]) = literalLines n atStart text ++ [b] := by
  induction text generalizing atStart with
  | nil => simp [literalLines, hb]
  | cons x text ih =>
    rw [List.cons_append, literalLines, literalLines, ih, ih]
    split <;> simp

/-- A text with a break at its end. -/
def endLine (text : List Char) : List Char :=
  text ++ if text.getLast?.any isBreak then [] else ['\n']

theorem literalLines_endLine (n : Nat) (text : List Char) :
    literalLines n true (endLine text) =
      literalLines n true text ++ if text.getLast?.any isBreak then [] else ['\n'] := by
  unfold endLine
  split
  · simp
  · exact literalLines_snoc n rfl true text

theorem endLine_of_isBreak {text : List Char} (h : text.getLast?.any isBreak = true) :
    endLine text = text := by
  simp [endLine, h]

theorem exists_endLine_eq (text : List Char) :
    ∃ pre b, endLine text = pre ++ [b] ∧ isBreak b = true := by
  by_cases hbreak : text.getLast?.any isBreak = true
  · rw [endLine_of_isBreak hbreak]
    cases hlast : text.getLast? with
    | none =>
      rw [hlast] at hbreak
      cases hbreak
    | some b =>
      obtain ⟨pre, rfl⟩ := List.getLast?_eq_some_iff.mp hlast
      exact ⟨pre, b, rfl, by simpa using hbreak⟩
  · exact ⟨text, '\n', by rw [endLine, if_neg hbreak], rfl⟩

/-! ## Breaks and indentation -/

theorem length_takeWhile_room {room : Nat} (hm : m ≤ room)
    (htail : m < room → ∀ x ∈ tail.head?, isGap x = false) :
    (((spaces m ++ tail).take room).takeWhile (· == ' ')).length = m := by
  have hafter : (tail.take (room - m)).takeWhile (· == ' ') = [] := by
    cases tail with
    | nil => simp
    | cons x tail =>
      by_cases hroom : m < room
      · have hx : (x == ' ') = false := by
          have hgap := htail hroom x (by simp)
          simp only [isGap, Bool.or_eq_false_iff] at hgap
          exact hgap.1
        obtain ⟨k, hk⟩ : ∃ k, room - m = k + 1 := ⟨room - m - 1, by omega⟩
        simp [hk, hx]
      · have hzero : room - m = 0 := by omega
        simp [hzero]
  rw [List.take_append, length_spaces, List.take_of_length_le (by rw [length_spaces]; exact hm),
    List.takeWhile_append_of_pos fun x hx => by simp [List.eq_of_mem_replicate hx], hafter]
  simp

/-- The indentation of a line with something in it is read. An indentation of zero is not known
yet. -/
theorem readBlockBreaks_spaces {indent : Nat} (hm : indent = 0 ∨ m ≤ indent)
    (htail : ∀ x ∈ tail.head?, isBreak x = false ∧ (indent = 0 ∨ m < indent → isGap x = false))
    (fuel widest : Nat) (acc : List Char) (hcolumn : c.column = 0)
    (hc : c.rest = spaces m ++ tail) :
    readBlockBreaks indent (fuel + 1) c widest acc =
      some (acc, max widest m, c.walk (spaces m)) := by
  have hroom : ((c.rest.take (if indent = 0 then c.rest.length else indent - c.column)).takeWhile
      (· == ' ')).length = m := by
    rw [hcolumn, hc]
    split
    · next hzero => exact length_takeWhile_room (by simp) fun _ x hx => (htail x hx).2 (.inl hzero)
    · next hzero =>
      exact length_takeWhile_room (by omega) fun hlt x hx => (htail x hx).2 (.inr (by omega))
  have hskip : c.skip m = c.walk (spaces m) := by
    rw [Cursor.walk_eq_skip fun _ => not_isBreak_of_mem_spaces, length_spaces]
  have hplace : (c.walk (spaces m)).rest = tail := Cursor.rest_walk hc
  have hcolumn' : (c.walk (spaces m)).column = m := by
    rw [Cursor.column_walk fun _ => not_isBreak_of_mem_spaces, hcolumn, length_spaces, Nat.zero_add]
  have hbreak : (c.walk (spaces m)).test 0 isBreak = false := by
    cases tail with
    | nil => simp [Cursor.test, Cursor.peek, hplace]
    | cons x tail => simp [Cursor.test, Cursor.peek_zero hplace, (htail x (by simp)).1]
  have htab : ((indent = 0 || m < indent) && (c.walk (spaces m)).has 0 '\t') = false := by
    cases tail with
    | nil => simp [Cursor.has, Cursor.peek, hplace]
    | cons x tail =>
      by_cases hless : indent = 0 ∨ m < indent
      · have hgap : isGap x = false := (htail x (by simp)).2 hless
        simp only [isGap, Bool.or_eq_false_iff] at hgap
        simpa [Cursor.has, Cursor.peek_zero hplace] using fun _ => by simpa using hgap.2
      · simp only [not_or] at hless
        simp [hless.1, hless.2]
  rw [readBlockBreaks]
  simp only [hroom, hskip, hcolumn', htab, hbreak, Bool.false_eq_true, if_false]

/-- An empty line is read. -/
theorem readBlockBreaks_break {x : Char} {rest : List Char} (indent fuel widest : Nat)
    (acc : List Char) (hcolumn : c.column = 0) (hc : c.rest = x :: rest)
    (hx : isKeptBreak x = true) :
    readBlockBreaks indent (fuel + 1) c widest acc =
      readBlockBreaks indent fuel (c.walk [x]) widest (x :: acc) := by
  have hroom : ∀ room, ((c.rest.take room).takeWhile (· == ' ')).length = 0 := by
    intro room
    have hspace : (x == ' ') = false := by
      rw [beq_eq_false_iff_ne]
      rintro rfl
      cases hx
    rw [hc]
    cases room with
    | zero => rfl
    | succ room => simp [hspace]
  have hskip : c.skip 0 = c := by simp [Cursor.skip]
  have htab : c.has 0 '\t' = false := by
    have hne : x ≠ '\t' := by
      rintro rfl
      cases hx
    simpa [Cursor.has, Cursor.peek_zero hc] using hne
  have htest : c.test 0 isBreak = true := by
    simp [Cursor.test, Cursor.peek_zero hc, isBreak_of_isKeptBreak hx]
  rw [readBlockBreaks]
  simp only [hroom, hskip, hcolumn, htab, htest, Cursor.takeBreak_eq hc hx, Bool.and_false,
    Bool.false_eq_true, if_false, if_true, Nat.max_zero]
  rfl

/-- The reader walks over empty lines and the indentation of the line after them. -/
theorem readBlockBreaks_walk {indent : Nat} (hm : indent = 0 ∨ m ≤ indent)
    (htail : ∀ x ∈ tail.head?, isBreak x = false ∧ (indent = 0 ∨ m < indent → isGap x = false))
    {breaks : List Char} (hbreaks : ∀ x ∈ breaks, isKeptBreak x = true) :
    ∀ (fuel : Nat) (c : Cursor) (widest : Nat) (acc : List Char), c.column = 0 →
      c.rest = breaks ++ (spaces m ++ tail) → breaks.length < fuel →
      readBlockBreaks indent fuel c widest acc =
        some (breaks.reverse ++ acc, max widest m, c.walk (breaks ++ spaces m)) := by
  induction breaks with
  | nil =>
    intro fuel c widest acc hcolumn hc hfuel
    obtain ⟨fuel, rfl⟩ : ∃ k, fuel = k + 1 := ⟨fuel - 1, by simp at hfuel; omega⟩
    exact readBlockBreaks_spaces hm htail fuel widest acc hcolumn hc
  | cons x breaks ih =>
    intro fuel c widest acc hcolumn hc hfuel
    obtain ⟨fuel, rfl⟩ : ∃ k, fuel = k + 1 := ⟨fuel - 1, by simp at hfuel; omega⟩
    have hx := hbreaks x (by simp)
    have hnext : (c.walk [x]).column = 0 := by rw [Cursor.walk_break (isBreak_of_isKeptBreak hx)]
    rw [readBlockBreaks_break indent fuel widest acc hcolumn hc hx,
      ih (fun y hy => hbreaks y (by simp [hy])) fuel (c.walk [x]) widest _ hnext
        (Cursor.rest_walk hc) (by simpa using hfuel), ← Cursor.walk_append]
    simp

/-! ## Lines -/

/-- After a line, breaks and spaces, the column is the number of the spaces. -/
theorem column_walk_line {line empties : List Char} {b : Char}
    (hb : isBreak b = true) (hempties : ∀ x ∈ empties, isBreak x = true) (k : Nat) :
    (c.walk (line ++ (b :: empties ++ spaces k))).column = k := by
  obtain ⟨pre, x, heq⟩ := (List.eq_nil_or_concat (b :: empties)).resolve_left (by simp)
  have hx : isBreak x = true := by
    have hmem : x ∈ b :: empties := by simp [heq]
    rcases List.mem_cons.mp hmem with rfl | hmem
    · exact hb
    · exact hempties x hmem
  rw [heq, List.concat_eq_append, List.append_assoc, List.singleton_append, ← List.append_assoc]
  exact Cursor.column_walk_break c _ hx k

/-- One turn of the reader: a line, the breaks after it, and the indentation of the next line. -/
theorem readBlockLines_turn {line breaks lead acc : List Char} {b : Char} {empties : List Char}
    {startsWithGap : Bool} {fuel : Nat} (hcolumn : c.column = n)
    (hc : c.rest = line ++ (b :: empties ++ (spaces m ++ tail))) (hne : line ≠ [])
    (hline : ∀ x ∈ line, isBreak x = false) (hb : isKeptBreak b = true)
    (hempties : ∀ x ∈ empties, isKeptBreak x = true) (hn : 0 < n) (hm : m ≤ n)
    (htail : ∀ x ∈ tail.head?, isBreak x = false ∧ (m < n → isGap x = false))
    (hfuel : empties.length < fuel) :
    readBlockLines true n (fuel + 1) c lead breaks startsWithGap acc =
      readBlockLines true n fuel (c.walk (line ++ (b :: empties ++ spaces m))) [b] empties.reverse
        (c.test 0 isGap) (line.reverse ++ (breaks ++ (lead.reverse ++ acc))) := by
  have hend : c.endsAt 0 = false := by
    obtain ⟨x, line, rfl⟩ := List.exists_cons_of_ne_nil hne
    simp [Cursor.endsAt, Cursor.peek, hc]
  have hbreak := isBreak_of_isKeptBreak hb
  have htake : c.rest.takeWhile (fun x => !isBreak x) = line := by
    rw [hc, List.takeWhile_append_of_pos fun x hx => by simp [hline x hx]]
    simp [hbreak]
  have hskip : c.skipWhile (fun x => !isBreak x) = c.walk line :=
    Cursor.skipWhile_eq hc _ (fun x hx => by simp [hline x hx]) (by simp [hbreak])
  have hplace : (c.walk line).rest = b :: (empties ++ (spaces m ++ tail)) := Cursor.rest_walk hc
  have hone : (c.walk line).rest = [b] ++ (empties ++ (spaces m ++ tail)) := hplace
  have hnext : ((c.walk line).walk [b]).column = 0 := by rw [Cursor.walk_break hbreak]
  have hbreaks : readBlockBreaks n fuel ((c.walk line).walk [b]) 0 [] =
      some (empties.reverse ++ [], max 0 m, ((c.walk line).walk [b]).walk (empties ++ spaces m)) := by
    refine readBlockBreaks_walk (.inr hm) ?_ hempties fuel _ 0 [] hnext (Cursor.rest_walk hone) hfuel
    exact fun x hx => ⟨(htail x hx).1, fun h => (htail x hx).2 (h.resolve_left (by omega))⟩
  have hover : c.walk (line ++ (b :: empties ++ spaces m)) =
      ((c.walk line).walk [b]).walk (empties ++ spaces m) := by
    rw [Cursor.walk_append, List.cons_append, Cursor.walk_cons]
  rw [readBlockLines, hover]
  simp only [hcolumn, hend, htake, hskip, Cursor.takeBreak_eq hplace hb, hbreaks]
  simp

/-- The reader stops left of the block. -/
theorem readBlockLines_end {lead breaks acc : List Char} {startsWithGap : Bool} (fuel : Nat)
    (hcolumn : c.column ≠ n) :
    readBlockLines true n fuel c lead breaks startsWithGap acc = some (acc, lead, breaks, c) := by
  cases fuel with
  | zero => rfl
  | succ fuel => simp [readBlockLines, hcolumn]

/-- The last line of a block, and the breaks at its end. -/
theorem readBlockLines_last {line breaks lead acc : List Char} {b : Char} {empties : List Char}
    {startsWithGap : Bool} {fuel : Nat} (hcolumn : c.column = n)
    (hc : c.rest = line ++ (b :: empties ++ (spaces m ++ tail))) (hne : line ≠ [])
    (hline : ∀ x ∈ line, isBreak x = false) (hb : isKeptBreak b = true)
    (hempties : ∀ x ∈ empties, isKeptBreak x = true) (hm : m < n)
    (htail : ∀ x ∈ tail.head?, isBreak x = false ∧ isGap x = false)
    (hfuel : empties.length < fuel) :
    readBlockLines true n (fuel + 1) c lead breaks startsWithGap acc =
      some (line.reverse ++ (breaks ++ (lead.reverse ++ acc)), [b], empties.reverse,
        c.walk (line ++ (b :: empties ++ spaces m))) := by
  have hstop : (c.walk (line ++ (b :: empties ++ spaces m))).column ≠ n := by
    rw [column_walk_line (isBreak_of_isKeptBreak hb)
      (fun x hx => isBreak_of_isKeptBreak (hempties x hx)) m]
    omega
  rw [readBlockLines_turn hcolumn hc hne hline hb hempties (by omega) (by omega)
    (fun x hx => ⟨(htail x hx).1, fun _ => (htail x hx).2⟩) hfuel, readBlockLines_end fuel hstop]

/-- Lines are written from the first character of the text on. -/
theorem mem_head_of_mem_head_literalLines {text : List Char} (n : Nat) (hne : text ≠ [])
    (hhead : ∀ x ∈ text.head?, isBreak x = false) (tail : List Char) :
    ∀ x ∈ (literalLines n false text ++ tail).head?, x ∈ text.head? := by
  intro x hx
  obtain ⟨y, text, rfl⟩ := List.exists_cons_of_ne_nil hne
  rw [literalLines, if_neg (by simp [hhead y rfl])] at hx
  simpa using hx

/-- A text ends in breaks: the first one, and the others. -/
structure EndsInBreaks (text body : List Char) (b : Char) (empties : List Char) : Prop where
  text_eq : text = body ++ b :: empties
  first : isBreak b = true
  others : ∀ x ∈ empties, isBreak x = true

theorem EndsInBreaks.append {text body empties : List Char} {b : Char}
    (h : EndsInBreaks text body b empties) (front : List Char) :
    EndsInBreaks (front ++ text) (front ++ body) b empties :=
  ⟨by rw [h.text_eq, List.append_assoc], h.first, h.others⟩

/-- **The lines of a block are read back**, split before the breaks at the end. -/
theorem readBlockLines_literalLines (hm : m < n)
    (htail : ∀ x ∈ tail.head?, isBreak x = false ∧ isGap x = false) (text : List Char) :
    text ≠ [] → (∀ x ∈ text, isBreak x = true → isKeptBreak x = true) →
    (∀ x ∈ text.head?, isBreak x = false) → (∀ x ∈ text.getLast?, isBreak x = true) →
    ∀ (fuel : Nat) (c : Cursor) (lead breaks acc : List Char) (startsWithGap : Bool),
      c.column = n → c.rest = literalLines n false text ++ (spaces m ++ tail) →
      c.rest.length < fuel →
      ∃ body b empties, EndsInBreaks text body b empties ∧
        readBlockLines true n fuel c lead breaks startsWithGap acc =
          some (body.reverse ++ (breaks ++ (lead.reverse ++ acc)), [b], empties.reverse,
            c.walk (literalLines n false text ++ spaces m)) := by
  induction text using runs_induction isBreak with
  | last line hline =>
    intro hne _ _ hlast
    obtain ⟨pre, x, rfl⟩ := (List.eq_nil_or_concat line).resolve_left hne
    have hx := hlast x (by simp)
    rw [hline x (by simp)] at hx
    cases hx
  | next line gap rest hline hne hgap hrest ih =>
    intro _ hkept hhead hlast fuel c lead breaks acc startsWithGap hcolumn hc hfuel
    obtain ⟨b, empties, rfl⟩ := List.exists_cons_of_ne_nil hne
    have hline' : line ≠ [] := by
      rintro rfl
      have hb := hhead b (by simp)
      rw [hgap b (by simp)] at hb
      cases hb
    have hlines : literalLines n false (line ++ (b :: empties ++ rest)) =
        line ++ (b :: empties ++ literalLines n true rest) := by
      rw [literalLines_line n hline, literalLines_breaks n false hne hgap]
    have hkeptAll : ∀ x ∈ b :: empties, isKeptBreak x = true :=
      fun x hx => hkept x (by rw [List.mem_append, List.mem_append]; exact .inr (.inl hx)) (hgap x hx)
    obtain ⟨fuel, rfl⟩ : ∃ k, fuel = k + 1 := ⟨fuel - 1, by omega⟩
    rw [hlines] at hc ⊢
    have hlength : line.length + empties.length < fuel := by
      rw [hc] at hfuel
      simp only [List.length_append, List.length_cons] at hfuel
      omega
    cases hrestCases : rest with
    | nil =>
      have hc' : c.rest = line ++ (b :: empties ++ (spaces m ++ tail)) := by
        simpa [hrestCases, literalLines] using hc
      refine ⟨line, b, empties, ⟨by simp, hgap b (by simp), fun x hx => hgap x (by simp [hx])⟩, ?_⟩
      rw [readBlockLines_last hcolumn hc' hline' hline (hkeptAll b (by simp))
        (fun x hx => hkeptAll x (by simp [hx])) hm htail (by omega)]
      simp [literalLines]
    | cons y rest' =>
      -- the next line starts at the indentation of the block, so the reader takes another turn
      have hrestNe : rest ≠ [] := by simp [hrestCases]
      have hy : isBreak y = false := hrest y (by simp [hrestCases])
      have hwritten : literalLines n true rest = spaces n ++ literalLines n false rest := by
        rw [hrestCases, literalLines_start n hy]
      have hc' : c.rest = line ++ (b :: empties ++
          (spaces n ++ (literalLines n false rest ++ (spaces m ++ tail)))) := by
        rw [hc, hwritten]
        simp only [List.append_assoc]
      have hhead' : ∀ x ∈ (literalLines n false rest ++ (spaces m ++ tail)).head?,
          isBreak x = false ∧ (n < n → isGap x = false) := by
        intro x hx
        have hx' := mem_head_of_mem_head_literalLines n hrestNe hrest _ x hx
        exact ⟨hrest x hx', fun h => absurd h (Nat.lt_irrefl n)⟩
      have hplace : (c.walk (line ++ (b :: empties ++ spaces n))).rest =
          literalLines n false rest ++ (spaces m ++ tail) := by
        apply Cursor.rest_walk
        rw [hc']
        simp only [List.append_assoc]
      have hcolumn' : (c.walk (line ++ (b :: empties ++ spaces n))).column = n :=
        column_walk_line (hgap b (by simp)) (fun x hx => hgap x (by simp [hx])) n
      have hfuel' : (literalLines n false rest ++ (spaces m ++ tail)).length < fuel := by
        rw [hc'] at hfuel
        simp only [List.length_append, List.length_cons] at hfuel ⊢
        omega
      have hlast' : ∀ x ∈ rest.getLast?, isBreak x = true := by
        rwa [List.getLast?_append_of_ne_nil _ (by simp),
          List.getLast?_append_of_ne_nil _ hrestNe] at hlast
      obtain ⟨body, b', empties', hends, hread⟩ :=
        ih hrestNe (fun x hx => hkept x (by simp [hx])) hrest hlast' fuel
          (c.walk (line ++ (b :: empties ++ spaces n))) [b] empties.reverse
          (line.reverse ++ (breaks ++ (lead.reverse ++ acc))) (c.test 0 isGap) hcolumn' hplace
          (by rw [hplace]; exact hfuel')
      refine ⟨line ++ (b :: empties ++ body), b', empties', ?_, ?_⟩
      · rw [← hrestCases]
        exact (hends.append (b :: empties)).append line
      · rw [readBlockLines_turn hcolumn hc' hline' hline (hkeptAll b (by simp))
          (fun x hx => hkeptAll x (by simp [hx])) (by omega) (Nat.le_refl n) hhead' (by omega),
          hread, ← Cursor.walk_append, ← hrestCases, hwritten]
        simp only [List.reverse_append, List.reverse_cons, List.append_assoc, List.reverse_nil,
          List.nil_append, List.cons_append]

/-! ## Marks and breaks at the end -/

/-- What a chomping mark asks for. -/
def chompingOf (mark : List Char) : Chomping :=
  if mark = ['-'] then .strip else if mark = ['+'] then .keep else .clip

/-- The breaks that are kept of those at the end, the first one and the others. -/
def Chomping.kept (chomping : Chomping) (first others : List Char) : List Char :=
  match chomping with
  | .strip => []
  | .clip => first
  | .keep => first ++ others

theorem chompingMark_cases (text : List Char) :
    chompingMark text = ['-'] ∨ chompingMark text = ['+'] ∨ chompingMark text = [] := by
  unfold chompingMark
  split
  · exact .inl rfl
  · split <;> simp
  · split
    · exact .inl rfl
    · split <;> simp

theorem chompingMark_of_not_isBreak {text : List Char}
    (h : ∀ x ∈ text.getLast?, isBreak x = false) : chompingMark text = ['-'] := by
  rcases List.eq_nil_or_concat text with rfl | ⟨pre, x, rfl⟩
  · rfl
  · have hx : isBreak x = false := h x (by simp)
    rw [chompingMark, List.concat_eq_append, List.reverse_concat]
    cases pre.reverse with
    | nil => simp [hx]
    | cons y others => simp [hx]

/-- One break at the end goes without a mark, more than one do not. -/
theorem chompingMark_snoc (pre : List Char) {b : Char} (hb : isBreak b = true) :
    chompingMark (pre ++ [b]) = if pre.getLast?.all isBreak then ['+'] else [] := by
  rw [chompingMark, List.reverse_concat, List.getLast?_eq_head?_reverse]
  cases pre.reverse with
  | nil => simp [hb]
  | cons y others => by_cases hy : isBreak y = true <;> simp [hb, hy]

theorem chompingMark_of_all_breaks {text : List Char} (hne : text ≠ [])
    (h : ∀ x ∈ text, isBreak x = true) : chompingMark text = ['+'] := by
  obtain ⟨pre, x, rfl⟩ := (List.eq_nil_or_concat text).resolve_left hne
  rw [List.concat_eq_append] at h ⊢
  rw [chompingMark_snoc pre (h x (by simp)), if_pos]
  cases hlast : pre.getLast? with
  | none => rfl
  | some y => exact h y (List.mem_append_left _ (List.mem_of_getLast? hlast))

/-- A last character with no break in front of it is the only one of the breaks at the end. -/
theorem eq_of_single_break {text body empties : List Char} {b last : Char}
    (hends : EndsInBreaks (text ++ [last]) body b empties)
    (hfront : ∀ x ∈ text.getLast?, isBreak x = false) :
    empties = [] ∧ text = body ∧ last = b := by
  obtain ⟨h, hb, hempties⟩ := hends
  rcases List.eq_nil_or_concat empties with rfl | ⟨pre, z, rfl⟩
  · obtain ⟨htext, hlast⟩ := List.append_inj' h rfl
    exact ⟨rfl, htext, by simpa using hlast⟩
  · -- with one more break, the break before it would be in front
    have hbreaks : ∀ x ∈ b :: pre, isBreak x = true :=
      List.forall_mem_cons.2 ⟨hb, fun x hx => hempties x (by simp [hx])⟩
    have htext : text = body ++ b :: pre := by
      rw [List.concat_eq_append, ← List.cons_append, ← List.append_assoc] at h
      exact (List.append_inj' h rfl).1
    obtain ⟨init, x, hlast⟩ := (List.eq_nil_or_concat (b :: pre)).resolve_left (by simp)
    have hx := hfront x (by rw [htext, hlast]; simp)
    rw [hbreaks x (by simp [hlast])] at hx
    cases hx

/-- A text that ends in a break and is split before the breaks at its end: the mark asks for those
that belong to it. -/
theorem kept_of_endLine {text body empties : List Char} {b : Char}
    (h : EndsInBreaks (endLine text) body b empties) :
    body ++ (chompingOf (chompingMark text)).kept [b] empties = text := by
  by_cases hbreak : text.getLast?.any isBreak = true
  · obtain ⟨pre, x, heq, hx⟩ := exists_endLine_eq text
    rw [endLine_of_isBreak hbreak] at h heq
    subst heq
    rw [chompingMark_snoc pre hx]
    by_cases hfront : pre.getLast?.all isBreak = true
    · rw [if_pos hfront]
      exact h.text_eq.symm
    · rw [if_neg hfront]
      have hnone : ∀ y ∈ pre.getLast?, isBreak y = false := by
        intro y hy
        rw [Option.mem_def.1 hy] at hfront
        simpa using hfront
      obtain ⟨rfl, rfl, rfl⟩ := eq_of_single_break h hnone
      rfl
  · have hfront : ∀ x ∈ text.getLast?, isBreak x = false := by
      intro x hx
      rw [Option.mem_def.1 hx] at hbreak
      simpa using hbreak
    have hend : endLine text = text ++ ['\n'] := by
      unfold endLine
      rw [if_neg hbreak]
    rw [hend] at h
    obtain ⟨rfl, rfl, -⟩ := eq_of_single_break h hfront
    rw [chompingMark_of_not_isBreak hfront]
    exact List.append_nil text

/-! ## Blocks -/

/-- The mark for a block whose first line does not show its indentation. -/
def indentMark (text : List Char) : List Char :=
  if text.head?.any fun x => x == ' ' || isBreak x then ['2'] else []

/-- The marks behind the bar are read, whether the indentation is given or not. -/
theorem readBlockHeader_marks {text rest : List Char}
    (hc : c.rest = indentMark text ++ (chompingMark text ++ '\n' :: rest)) :
    readBlockHeader c =
      some (chompingOf (chompingMark text), if indentMark text = [] then 0 else 2,
        c.walk (indentMark text ++ chompingMark text)) := by
  have hindent : indentMark text = ['2'] ∨ indentMark text = [] := by
    unfold indentMark
    split <;> simp
  obtain ⟨cs, index, line, column⟩ := c
  rcases hindent with hi | hi
  all_goals
    rcases chompingMark_cases text with hm | hm | hm
    all_goals
      rw [hi, hm] at hc ⊢
      subst hc
      rfl

/-- The place after the marks behind the bar, at the start of the next line. -/
def afterMarks (c : Cursor) (text : List Char) : Cursor :=
  c.walk (indentMark text ++ (chompingMark text ++ ['\n']))

theorem rest_afterMarks {text rest : List Char}
    (hc : c.rest = indentMark text ++ (chompingMark text ++ '\n' :: rest)) :
    (afterMarks c text).rest = rest := by
  apply Cursor.rest_walk
  rw [hc]
  simp only [List.append_assoc, List.cons_append, List.nil_append]

theorem column_afterMarks (c : Cursor) (text : List Char) : (afterMarks c text).column = 0 := by
  rw [afterMarks, ← List.append_assoc]
  exact Cursor.column_walk_break c _ rfl 0

theorem walk_afterMarks (c : Cursor) (text text' : List Char) :
    (afterMarks c text).walk text' =
      c.walk (indentMark text ++ (chompingMark text ++ '\n' :: text')) := by
  rw [afterMarks, ← Cursor.walk_append]
  simp only [List.append_assoc, List.cons_append, List.nil_append]

/-- A block is read by reading its first breaks and then its lines. -/
theorem readBlock_eq {text rest acc lead breaks breaks' : List Char} {k fuel widest : Nat}
    {c' c'' : Cursor} (hc : c.rest = indentMark text ++ (chompingMark text ++ '\n' :: rest))
    (hbreaks : readBlockBreaks (if indentMark text = [] then 0 else k + 2) fuel
      (afterMarks c text) 0 [] = some (breaks, widest, c'))
    (hindent : indentMark text = [] → widest = k + 2)
    (hlines : readBlockLines true (k + 2) fuel c' [] breaks false [] =
      some (acc, lead, breaks', c'')) :
    readBlock true k fuel c =
      some (acc.reverse ++ (chompingOf (chompingMark text)).kept lead breaks'.reverse, c'') := by
  have hplace : (c.walk (indentMark text ++ chompingMark text)).rest = '\n' :: rest := by
    rw [Cursor.walk_append]
    exact Cursor.rest_walk (Cursor.rest_walk hc)
  have hgaps : (c.walk (indentMark text ++ chompingMark text)).skipWhile isGap =
      c.walk (indentMark text ++ chompingMark text) := by
    have hnone : (c.walk (indentMark text ++ chompingMark text)).rest = [] ++ '\n' :: rest := hplace
    exact Cursor.skipWhile_eq hnone isGap (by simp) (by simp [isGap])
  have hcomment : (c.walk (indentMark text ++ chompingMark text)).skipComment =
      c.walk (indentMark text ++ chompingMark text) := by
    unfold Cursor.skipComment
    rw [hgaps]
    simp [Cursor.has, Cursor.peek_zero hplace]
  have hend : (c.walk (indentMark text ++ chompingMark text)).breakOrEnd 0 = true := by
    simp [Cursor.breakOrEnd, Cursor.peek_zero hplace, isBreak]
  have hskip : (c.walk (indentMark text ++ chompingMark text)).skipBreak = afterMarks c text := by
    rw [Cursor.skipBreak, Cursor.takeBreak_eq hplace rfl, ← Cursor.walk_append, List.append_assoc,
      afterMarks]
  have hgiven : (if (if indentMark text = [] then 0 else 2) = 0 then 0
      else (max (k : Int) 0).toNat + (if indentMark text = [] then 0 else 2)) =
      if indentMark text = [] then 0 else k + 2 := by
    by_cases hmark : indentMark text = []
    · simp [hmark]
    · simp [hmark]
  have hindent' : (if (if indentMark text = [] then 0 else k + 2) = 0 then
      max (max widest ((k : Int) + 1).toNat) 1 else if indentMark text = [] then 0 else k + 2) =
      k + 2 := by
    by_cases hmark : indentMark text = []
    · rw [hindent hmark]
      simp [hmark]
    · simp [hmark]
  rw [readBlock, readBlockHeader_marks hc]
  simp only [hcomment, hend, hgiven, hskip, hbreaks, hindent', hlines]
  rfl

theorem getLast?_endLine (text : List Char) : ∀ x ∈ (endLine text).getLast?, isBreak x = true := by
  intro x hx
  obtain ⟨pre, b, hend, hb⟩ := exists_endLine_eq text
  rw [hend, List.getLast?_concat] at hx
  obtain rfl : b = x := by simpa using hx
  exact hb

theorem isKeptBreak_of_mem_endLine {text : List Char} (hprint : ∀ x ∈ text, isPrintable x = true)
    {x : Char} (hx : x ∈ endLine text) (hbreak : isBreak x = true) : isKeptBreak x = true := by
  rcases List.mem_append.mp hx with hx | hx
  · exact isKeptBreak_of_isPrintable hbreak (hprint x hx)
  · split at hx
    · cases hx
    · rw [List.mem_singleton.mp hx]
      rfl

theorem column_walk_breaks (hcolumn : c.column = 0) {breaks : List Char}
    (hbreaks : ∀ x ∈ breaks, isBreak x = true) : (c.walk (breaks ++ spaces m)).column = m := by
  cases breaks with
  | nil =>
    rw [List.nil_append, Cursor.column_walk fun _ => not_isBreak_of_mem_spaces, hcolumn,
      length_spaces, Nat.zero_add]
  | cons b breaks =>
    show (c.walk ([] ++ (b :: breaks ++ spaces m))).column = m
    exact column_walk_line (hbreaks b (by simp)) (fun x hx => hbreaks x (by simp [hx])) m

/-- A text whose first line shows its indentation starts with neither a gap nor a break. -/
theorem head_of_indentMark_eq_nil {text : List Char} (h : indentMark text = [])
    (hprint : ∀ x ∈ text, isPrintable x = true) :
    ∀ x ∈ text.head?, isBreak x = false ∧ isGap x = false := by
  intro x hx
  cases text with
  | nil => cases hx
  | cons y text =>
    obtain rfl : y = x := by simpa using hx
    have hmark : ¬(y = ' ' ∨ isBreak y = true) := by
      intro hy
      simp [indentMark, hy] at h
    rw [not_or, Bool.not_eq_true] at hmark
    refine ⟨hmark.2, ?_⟩
    rw [Bool.eq_false_iff]
    exact fun hgap => hmark.1 (eq_space_of_isPrintable hgap (hprint y (by simp)))

/-- The first line of a text shows its indentation if it does not start with a gap. -/
theorem isGap_head_of_indentMark_eq_nil {text empties lines : List Char} (hne : text ≠ [])
    (h : indentMark text = []) (hprint : ∀ x ∈ text, isPrintable x = true)
    (hsplit : endLine text = empties ++ lines) (hempties : ∀ x ∈ empties, isBreak x = true) :
    ∀ x ∈ lines.head?, isGap x = false := by
  intro x hx
  obtain ⟨z, text, rfl⟩ := List.exists_cons_of_ne_nil hne
  obtain ⟨hbreak, hgap⟩ := head_of_indentMark_eq_nil h hprint z (by simp)
  rw [endLine, List.cons_append] at hsplit
  cases empties with
  | nil =>
    rw [List.nil_append] at hsplit
    obtain rfl : z = x := by simpa [← hsplit] using hx
    exact hgap
  | cons e empties =>
    obtain ⟨rfl, -⟩ := List.cons.inj hsplit
    rw [hempties z (by simp)] at hbreak
    cases hbreak

/-- A block of nothing but breaks is read without a line, and all of them are kept. -/
theorem readBlock_of_breaks {text : List Char} (hne : text ≠ [])
    (htext : ∀ x ∈ text, isKeptBreak x = true) {k fuel : Nat} (hm : m < k + 2)
    (htail : ∀ x ∈ tail.head?, isBreak x = false ∧ isGap x = false)
    (hc : c.rest = indentMark text ++ (chompingMark text ++ '\n' :: (text ++ (spaces m ++ tail))))
    (hfuel : text.length < fuel) :
    readBlock true k fuel c =
      some (text, c.walk (indentMark text ++ (chompingMark text ++
        '\n' :: (text ++ spaces m)))) := by
  have hall : ∀ x ∈ text, isBreak x = true := fun x hx => isBreak_of_isKeptBreak (htext x hx)
  have hindent : indentMark text ≠ [] := by
    obtain ⟨x, text, rfl⟩ := List.exists_cons_of_ne_nil hne
    simp [indentMark, hall x (by simp)]
  have hbreaks : readBlockBreaks (if indentMark text = [] then 0 else k + 2) fuel
      (afterMarks c text) 0 [] =
      some (text.reverse ++ [], max 0 m, (afterMarks c text).walk (text ++ spaces m)) := by
    rw [if_neg hindent]
    exact readBlockBreaks_walk (.inr (by omega))
      (fun x hx => ⟨(htail x hx).1, fun _ => (htail x hx).2⟩) htext fuel _ 0 []
      (column_afterMarks c text) (rest_afterMarks hc) hfuel
  have hstop : ((afterMarks c text).walk (text ++ spaces m)).column ≠ k + 2 := by
    rw [column_walk_breaks (column_afterMarks c text) hall]
    omega
  have hkeep : (chompingOf ['+']).kept [] (text.reverse ++ []).reverse = text := by
    rw [List.append_nil, List.reverse_reverse]
    rfl
  rw [readBlock_eq hc hbreaks (fun h => absurd h hindent) (readBlockLines_end fuel hstop),
    walk_afterMarks, chompingMark_of_all_breaks hne hall, hkeep]
  rfl

/-- The breaks before the first line of a block are read, and its indentation: that is the one
behind the bar, or else the one found at the line. -/
theorem readBlockBreaks_afterMarks {text empties lines rest : List Char} (hne : text ≠ [])
    (hprint : ∀ x ∈ text, isPrintable x = true) (hsplit : endLine text = empties ++ lines)
    (hempties : ∀ x ∈ empties, isBreak x = true) (hhead : ∀ x ∈ lines.head?, isBreak x = false)
    (hrest : ∀ x ∈ rest.head?, x ∈ lines.head?) {k fuel : Nat}
    (hc : c.rest = indentMark text ++ (chompingMark text ++ '\n' ::
      (empties ++ (spaces (k + 2) ++ rest)))) (hfuel : empties.length < fuel) :
    readBlockBreaks (if indentMark text = [] then 0 else k + 2) fuel (afterMarks c text) 0 [] =
      some (empties.reverse ++ [], max 0 (k + 2),
        (afterMarks c text).walk (empties ++ spaces (k + 2))) := by
  have hkept : ∀ x ∈ empties, isKeptBreak x = true := by
    intro x hx
    apply isKeptBreak_of_mem_endLine hprint _ (hempties x hx)
    rw [hsplit]
    exact List.mem_append_left _ hx
  -- without a mark the indentation is found, and so the line may not start with a gap
  by_cases hindent : indentMark text = []
  · rw [if_pos hindent]
    refine readBlockBreaks_walk (.inl rfl) ?_ hkept fuel _ 0 [] (column_afterMarks c text)
      (rest_afterMarks hc) hfuel
    intro y hy
    exact ⟨hhead y (hrest y hy), fun _ =>
      isGap_head_of_indentMark_eq_nil hne hindent hprint hsplit hempties y (hrest y hy)⟩
  · rw [if_neg hindent]
    refine readBlockBreaks_walk (.inr (Nat.le_refl _)) ?_ hkept fuel _ 0 []
      (column_afterMarks c text) (rest_afterMarks hc) hfuel
    intro y hy
    exact ⟨hhead y (hrest y hy), fun h => by omega⟩

/-- A block with a line is read from its first line on, after the breaks before that. -/
theorem readBlock_of_lines {text empties lines : List Char} (hne : text ≠ [])
    (hprint : ∀ x ∈ text, isPrintable x = true) (hsplit : endLine text = empties ++ lines)
    (hempties : ∀ x ∈ empties, isBreak x = true) (hlines : lines ≠ [])
    (hhead : ∀ x ∈ lines.head?, isBreak x = false) {k fuel : Nat} (hm : m < k + 2)
    (htail : ∀ x ∈ tail.head?, isBreak x = false ∧ isGap x = false)
    (hc : c.rest = indentMark text ++ (chompingMark text ++ '\n' ::
      (empties ++ (spaces (k + 2) ++ (literalLines (k + 2) false lines ++ (spaces m ++ tail))))))
    (hfuel : c.rest.length < fuel) :
    readBlock true k fuel c =
      some (text, c.walk (indentMark text ++ (chompingMark text ++ '\n' ::
        (empties ++ (spaces (k + 2) ++ (literalLines (k + 2) false lines ++ spaces m)))))) := by
  have hkept : ∀ x ∈ lines, isBreak x = true → isKeptBreak x = true := by
    intro x hx
    apply isKeptBreak_of_mem_endLine hprint
    rw [hsplit]
    exact List.mem_append_right _ hx
  have hlength := congrArg List.length hc
  simp only [List.length_append, List.length_cons] at hlength
  have hfirst : ∀ y ∈ (literalLines (k + 2) false lines ++ (spaces m ++ tail)).head?,
      y ∈ lines.head? := mem_head_of_mem_head_literalLines (k + 2) hlines hhead _
  have hbreaks := readBlockBreaks_afterMarks hne hprint hsplit hempties hhead hfirst hc
    (show empties.length < fuel by omega)
  have hplace : ((afterMarks c text).walk (empties ++ spaces (k + 2))).rest =
      literalLines (k + 2) false lines ++ (spaces m ++ tail) := by
    apply Cursor.rest_walk
    rw [rest_afterMarks hc]
    simp only [List.append_assoc]
  have hcolumn : ((afterMarks c text).walk (empties ++ spaces (k + 2))).column = k + 2 :=
    column_walk_breaks (column_afterMarks c text) hempties
  have hlast : ∀ y ∈ lines.getLast?, isBreak y = true := by
    intro y hy
    apply getLast?_endLine text
    rw [hsplit, List.getLast?_append_of_ne_nil _ hlines]
    exact hy
  have hfuel' : (literalLines (k + 2) false lines ++ (spaces m ++ tail)).length < fuel := by
    simp only [List.length_append]
    omega
  obtain ⟨body, b, empties', hends, hread⟩ :=
    readBlockLines_literalLines (show m < k + 2 from hm) htail lines hlines
      hkept hhead hlast fuel _ [] (empties.reverse ++ []) [] false hcolumn hplace
      (by rw [hplace]; exact hfuel')
  have hend : EndsInBreaks (endLine text) (empties ++ body) b empties' := by
    rw [hsplit]
    exact hends.append empties
  have htext := kept_of_endLine hend
  rw [readBlock_eq hc hbreaks (fun _ => by simp) hread, ← Cursor.walk_append, walk_afterMarks]
  simp only [List.append_nil, List.reverse_nil, List.reverse_append, List.reverse_reverse,
    htext, List.append_assoc]

/-- **A literal block is read back**, with the indentation of the line after it. -/
theorem readBlock_literalLines {text : List Char} (hne : text ≠ [])
    (hprint : ∀ x ∈ text, isPrintable x = true) {k fuel : Nat} (hm : m < k + 2)
    (htail : ∀ x ∈ tail.head?, isBreak x = false ∧ isGap x = false)
    (hc : c.rest = indentMark text ++ (chompingMark text ++
      '\n' :: (literalLines (k + 2) true (endLine text) ++ (spaces m ++ tail))))
    (hfuel : c.rest.length < fuel) :
    readBlock true k fuel c =
      some (text, c.walk (indentMark text ++ (chompingMark text ++
        '\n' :: (literalLines (k + 2) true (endLine text) ++ spaces m)))) := by
  obtain ⟨empties, lines, hsplit, hempties, hhead⟩ : ∃ empties lines,
      endLine text = empties ++ lines ∧ (∀ x ∈ empties, isBreak x = true) ∧
        ∀ x ∈ lines.head?, isBreak x = false :=
    ⟨(endLine text).takeWhile isBreak, (endLine text).dropWhile isBreak,
      List.takeWhile_append_dropWhile.symm, fun x hx => List.mem_takeWhile_imp hx,
      fun x => eq_false_of_mem_head_dropWhile⟩
  have hwritten : literalLines (k + 2) true (endLine text) =
      empties ++ literalLines (k + 2) true lines := by
    rw [hsplit]
    by_cases hnone : empties = []
    · rw [hnone]
      rfl
    · exact literalLines_breaks (k + 2) true hnone hempties lines
  cases hlines : lines with
  | nil =>
    rw [hlines, List.append_nil] at hsplit
    have htext : endLine text = text := by
      apply endLine_of_isBreak
      obtain ⟨pre, x, rfl⟩ := (List.eq_nil_or_concat text).resolve_left hne
      have hx : isBreak x = true := hempties x (by rw [← hsplit, endLine]; simp)
      simp [hx]
    obtain rfl : text = empties := htext.symm.trans hsplit
    rw [hwritten, hlines, literalLines, List.append_nil] at hc ⊢
    have hkept : ∀ x ∈ text, isKeptBreak x = true :=
      fun x hx => isKeptBreak_of_isPrintable (hempties x hx) (hprint x hx)
    refine readBlock_of_breaks hne hkept hm htail hc ?_
    rw [hc] at hfuel
    simp only [List.length_append, List.length_cons] at hfuel
    omega
  | cons x lines' =>
    have hx : isBreak x = false := hhead x (by simp [hlines])
    have hindented : literalLines (k + 2) true lines =
        spaces (k + 2) ++ literalLines (k + 2) false lines := by
      rw [hlines, literalLines_start (k + 2) hx]
    rw [hwritten, hindented, List.append_assoc, List.append_assoc] at hc ⊢
    exact readBlock_of_lines hne hprint hsplit hempties (by simp [hlines]) hhead hm htail hc hfuel

end ReleaseCandidates.Yaml
