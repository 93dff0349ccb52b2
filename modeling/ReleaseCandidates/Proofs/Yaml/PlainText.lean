import ReleaseCandidates.Proofs.Yaml.QuotedText

set_option autoImplicit false

/-! # Reading plain text back

A text stands plain where nothing in it could be taken for a mark: no word of it ends in a colon or
starts with a number sign. Such a text is read back up to the end of its line (`readPlain_line`), and
a key is read up to the colon after it (`readPlain_key`). -/

namespace ReleaseCandidates.Yaml

variable {c : Cursor} {acc : List Char} {fuel : Nat} {indent : Int}

/-! ## Words -/

/-- What ends a plain word: a gap, a line break, or a colon before one of these. -/
def EndsPlainWord (rest : List Char) : Prop :=
  (∃ x tail, rest = x :: tail ∧ isBlank x = true) ∨
    ∃ x tail, rest = ':' :: x :: tail ∧ isBlank x = true

theorem readPlainRun_of_endsPlainWord {rest : List Char} (hc : c.rest = rest)
    (hrest : EndsPlainWord rest) : readPlainRun false fuel c acc = some (acc, c) := by
  cases fuel with
  | zero => rfl
  | succ fuel =>
    rcases hrest with ⟨x, tail, rfl, hx⟩ | ⟨x, tail, rfl, hx⟩
    · have hx' : (isGap x || isBreak x) = true := hx
      rw [readPlainRun, Cursor.peek_zero hc]
      simp only [hx', if_true]
    · have hnext : c.gapOrEnd 1 = true := by
        simpa [Cursor.gapOrEnd, Cursor.peek, hc, isBlank] using hx
      rw [readPlainRun, Cursor.peek_zero hc]
      simp [isGap, isBreak, nextLine, lineSeparator, paragraphSeparator, hnext]

/-- The reader takes the characters of a word that does not end in a colon. -/
theorem readPlainRun_word {word rest : List Char} (hword : ∀ x ∈ word, isBlank x = false)
    (hcolon : word.getLast? ≠ some ':') (hrest : EndsPlainWord rest) :
    ∀ {fuel : Nat} {c : Cursor} {acc : List Char}, c.rest = word ++ rest → word.length ≤ fuel →
      readPlainRun false fuel c acc = some (word.reverse ++ acc, c.walk word) := by
  induction word with
  | nil =>
    intro fuel c acc hc _
    exact readPlainRun_of_endsPlainWord hc hrest
  | cons x word ih =>
    intro fuel c acc hc hfuel
    obtain ⟨fuel, rfl⟩ : ∃ k, fuel = k + 1 := ⟨fuel - 1, by simp at hfuel; omega⟩
    have hx := hword x (by simp)
    have hbreak := (isBlank_eq_false.mp hx).2
    have hblank : (isGap x || isBreak x) = false := hx
    have hnext : (x == ':' && c.gapOrEnd 1) = false := by
      cases word with
      | nil =>
        have hne : x ≠ ':' := by simpa using hcolon
        simp [hne]
      | cons y word =>
        have hy : (isGap y || isBreak y) = false := hword y (by simp)
        simp [Cursor.gapOrEnd, Cursor.peek, hc, hy]
    have hcolon' : word.getLast? ≠ some ':' := by
      cases word with
      | nil => simp
      | cons y word => simpa using hcolon
    have hc' : (c.walk [x]).rest = word ++ rest := Cursor.rest_walk hc
    rw [readPlainRun, Cursor.peek_zero hc, ← Cursor.walk_singleton hbreak]
    simp only [hblank, hnext, Bool.false_and, Bool.or_self, Bool.false_eq_true, if_false]
    rw [ih (fun y hy => hword y (by simp [hy])) hcolon' hc' (by simpa using hfuel),
      ← Cursor.walk_append, List.reverse_cons, List.append_assoc]
    rfl

/-! ## Texts without marks -/

/-- Whether nothing in the text can be taken for a mark: no colon comes before a gap, no number sign
after one, and none comes first. -/
structure MarkFree (text : List Char) : Prop where
  colon : ∀ before after, text = before ++ ':' :: after → startsWithGap after = false
  sign : ∀ before x after, text = before ++ x :: '#' :: after → isBlank x = false
  head : text.head? ≠ some '#'

theorem startsWithGap_cons {x : Char} {rest : List Char}
    (h : startsWithGap (x :: rest) = false) : isBlank x = false := by
  simp only [startsWithGap, Bool.or_eq_false_iff] at h
  exact isBlank_eq_false.mpr h.1

theorem not_hasInnerMark {before : Char} {text : List Char} (h : hasInnerMark before text = false) :
    (∀ pre after, text = pre ++ ':' :: after → startsWithGap after = false) ∧
      ∀ pre x after, before :: text = pre ++ x :: '#' :: after → isBlank x = false := by
  induction text generalizing before with
  | nil =>
    refine ⟨?_, ?_⟩
    · intro pre after heq
      simp at heq
    · intro pre x after heq
      have := congrArg List.length heq
      simp at this
      omega
  | cons y text ih =>
    simp only [hasInnerMark, Bool.or_eq_false_iff, Bool.and_eq_false_iff] at h
    obtain ⟨⟨hcolon, hsign⟩, hrest⟩ := h
    obtain ⟨ihcolon, ihsign⟩ := ih hrest
    refine ⟨?_, ?_⟩
    · intro pre after heq
      cases pre with
      | nil =>
        obtain ⟨rfl, rfl⟩ : y = ':' ∧ text = after := by simpa using heq
        simpa using hcolon
      | cons z pre => exact ihcolon pre after (by simp at heq; exact heq.2)
    · intro pre x after heq
      cases pre with
      | nil =>
        obtain ⟨rfl, rfl, rfl⟩ : before = x ∧ y = '#' ∧ text = after := by simpa using heq
        exact startsWithGap_cons (by simpa using hsign)
      | cons z pre => exact ihsign pre x after (by simp at heq; simpa using heq.2)

theorem markFree_of_not_hasMark {text : List Char} (h : hasMark text = false) : MarkFree text := by
  cases text with
  | nil => exact ⟨by simp, by simp, by simp⟩
  | cons x text =>
    simp only [hasMark, Bool.or_eq_false_iff] at h
    obtain ⟨⟨⟨-, hchar⟩, hfirst⟩, hinner⟩ := h
    obtain ⟨hcolon, hsign⟩ := not_hasInnerMark hinner
    refine ⟨?_, ?_, ?_⟩
    · intro before after heq
      cases before with
      | nil =>
        obtain ⟨rfl, rfl⟩ : x = ':' ∧ text = after := by simpa using heq
        simpa using hfirst
      | cons y before => exact hcolon before after (by simp at heq; exact heq.2)
    · exact hsign
    · intro hhead
      obtain rfl : x = '#' := by simpa using hhead
      exact absurd hchar (by decide)

/-- The words of a text without marks are such that the reader takes each as a whole, and after a
gap comes a text without marks again. -/
theorem MarkFree.of_append {word gap rest : List Char} (h : MarkFree (word ++ (gap ++ rest)))
    (hne : gap ≠ []) (hgap : ∀ x ∈ gap, isBlank x = true) :
    word.getLast? ≠ some ':' ∧ MarkFree rest := by
  refine ⟨?_, ?_, ?_, ?_⟩
  · intro hlast
    obtain ⟨pre, rfl⟩ := List.getLast?_eq_some_iff.mp hlast
    obtain ⟨x, gap, rfl⟩ := List.exists_cons_of_ne_nil hne
    have hx := startsWithGap_cons (h.colon pre (x :: gap ++ rest) (by simp))
    rw [hgap x (by simp)] at hx
    cases hx
  · intro before after heq
    exact h.colon (word ++ (gap ++ before)) after (by simp [heq])
  · intro before x after heq
    exact h.sign (word ++ (gap ++ before)) x after (by simp [heq])
  · intro hhead
    obtain ⟨after, rfl⟩ : ∃ after, rest = '#' :: after := by
      cases rest with
      | nil => cases hhead
      | cons y rest => exact ⟨rest, by simpa using hhead⟩
    obtain ⟨pre, x, rfl⟩ := (List.eq_nil_or_concat gap).resolve_left hne
    have hx := h.sign (word ++ pre) x after (by simp)
    rw [hgap x (by simp)] at hx
    cases hx

theorem MarkFree.getLast? {word : List Char} (h : MarkFree word) : word.getLast? ≠ some ':' := by
  intro hlast
  obtain ⟨pre, rfl⟩ := List.getLast?_eq_some_iff.mp hlast
  cases h.colon pre [] rfl

/-! ## Turns of the reader -/

/-- After a word the reader stops, unless a gap follows. -/
theorem readPlain_run {run : List Char} {after : Cursor} (gap : Gap) (hmark : c.atDocumentMark = false)
    (hsign : c.has 0 '#' = false) (hrun : readPlainRun false fuel c [] = some (run, after))
    (hne : run ≠ []) :
    readPlain false indent (fuel + 1) c gap acc =
      if !(after.test 0 isBlank) then
        some ((run ++ gap.text.reverse ++ acc).reverse, false, after)
      else
        match Gap.read (some indent) fuel after Gap.none with
        | none => none
        | some (gap', c) =>
          if (c.column : Int) < indent then
            some ((run ++ gap.text.reverse ++ acc).reverse, gap'.broken, c)
          else readPlain false indent fuel c gap' (run ++ gap.text.reverse ++ acc) := by
  have hempty : run.isEmpty = false := by simpa using hne
  rw [readPlain]
  simp only [hmark, hsign, hrun, hempty, Bool.or_self, Bool.false_eq_true, if_false, Bool.not_false,
    Bool.true_and, decide_eq_true_eq]
  rfl

/-- A word, and where the reader stands before it. -/
structure AtWord (c : Cursor) (word rest : List Char) : Prop where
  rest_eq : c.rest = word ++ rest
  mark : c.atDocumentMark = false
  ne_nil : word ≠ []
  not_blank : ∀ x ∈ word, isBlank x = false
  head : word.head? ≠ some '#'
  colon : word.getLast? ≠ some ':'

namespace AtWord

variable {word rest : List Char}

theorem has_sign (h : AtWord c word rest) : c.has 0 '#' = false := by
  obtain ⟨x, word, rfl⟩ := List.exists_cons_of_ne_nil h.ne_nil
  have hx : x ≠ '#' := by simpa using h.head
  simpa [Cursor.has, Cursor.peek, h.rest_eq] using hx

theorem run (h : AtWord c word rest) (hrest : EndsPlainWord rest) (hfuel : word.length ≤ fuel) :
    readPlainRun false fuel c [] = some (word.reverse, c.walk word) := by
  rw [readPlainRun_word h.not_blank h.colon hrest h.rest_eq hfuel, List.append_nil]

theorem not_isBreak (h : AtWord c word rest) : ∀ x ∈ word, isBreak x = false :=
  fun x hx => (isBlank_eq_false.mp (h.not_blank x hx)).2

end AtWord

/-- A key is read up to the colon after it. -/
theorem readPlain_key {key tail : List Char} {x : Char} (h : AtWord c key (':' :: x :: tail))
    (hx : isBlank x = true) (hfuel : key.length ≤ fuel) :
    readPlain false indent (fuel + 1) c Gap.none [] = some (key, false, c.walk key) := by
  have hrun := h.run (.inr ⟨x, tail, rfl, hx⟩) hfuel
  have hafter : (c.walk key).test 0 isBlank = false := by
    simp [Cursor.test, Cursor.peek_zero (Cursor.rest_walk h.rest_eq), isBlank, isGap, isBreak,
      nextLine, lineSeparator, paragraphSeparator]
  rw [readPlain_run Gap.none h.mark h.has_sign hrun (by simpa using h.ne_nil), hafter]
  simp [Gap.none, Gap.text]

/-- The last word of a line ends a text, with the line and the indentation of the next one. -/
theorem readPlain_last {word tail : List Char} {n : Nat} (gap : Gap)
    (h : AtWord c word ('\n' :: (spaces n ++ tail))) (hn : (n : Int) < indent)
    (htail : ∀ x ∈ tail.head?, isGap x = false ∧ isBreak x = false)
    (hfuel : word.length + n < fuel) :
    readPlain false indent (fuel + 1) c gap acc =
      some (acc.reverse ++ gap.text ++ word, true, c.walk (word ++ '\n' :: spaces n)) := by
  have hrest : (c.walk word).rest = ('\n' :: spaces n) ++ tail := Cursor.rest_walk h.rest_eq
  have hafter : (c.walk word).test 0 isBlank = true := by
    simp [Cursor.test, Cursor.peek_zero hrest, isBlank, isBreak]
  have hgap : Gap.read (some indent) fuel (c.walk word) Gap.none =
      some (('\n' :: spaces n).foldl Gap.add Gap.none, c.walk (word ++ '\n' :: spaces n)) := by
    rw [Cursor.walk_append]
    refine Gap.read_walk _ ?_ htail _ hrest (by simp; omega)
    intro x hx
    rcases List.mem_cons.mp hx with rfl | hx
    · exact .inr rfl
    · exact .inl (List.eq_of_mem_replicate hx)
  have hcolumn : (c.walk (word ++ '\n' :: spaces n)).column = n :=
    Cursor.column_walk_break c word rfl n
  rw [readPlain_run gap h.mark h.has_sign (h.run (.inl ⟨_, _, rfl, rfl⟩) (by omega))
    (by simpa using h.ne_nil), hafter, hgap]
  simp only [hcolumn, hn, if_true, Gap.broken_line_end]
  simp

/-- After a word and spaces the reader goes on. -/
theorem readPlain_next {word tail : List Char} {k : Nat} (gap : Gap)
    (h : AtWord c word (spaces k ++ tail)) (hk : 0 < k) (hcolumn : indent ≤ c.column)
    (htail : ∀ x ∈ tail.head?, isGap x = false ∧ isBreak x = false)
    (hfuel : word.length + k ≤ fuel) :
    readPlain false indent (fuel + 1) c gap acc =
      readPlain false indent fuel (c.walk (word ++ spaces k)) ((spaces k).foldl Gap.add Gap.none)
        (acc.reverse ++ gap.text ++ word).reverse := by
  obtain ⟨k, rfl⟩ : ∃ j, k = j + 1 := ⟨k - 1, by omega⟩
  have hrest : (c.walk word).rest = spaces (k + 1) ++ tail := Cursor.rest_walk h.rest_eq
  have hafter : (c.walk word).test 0 isBlank = true := by
    have hrest' : (c.walk word).rest = ' ' :: (spaces k ++ tail) := hrest
    simp [Cursor.test, Cursor.peek_zero hrest', isBlank, isGap]
  have hgap : Gap.read (some indent) fuel (c.walk word) Gap.none =
      some ((spaces (k + 1)).foldl Gap.add Gap.none, c.walk (word ++ spaces (k + 1))) := by
    rw [Cursor.walk_append]
    refine Gap.read_walk _ ?_ htail _ hrest (by rw [length_spaces]; omega)
    exact fun x hx => .inl (List.eq_of_mem_replicate hx)
  have hcolumn' : ¬((c.walk (word ++ spaces (k + 1))).column : Int) < indent := by
    rw [Cursor.walk_append, Cursor.column_walk fun _ => not_isBreak_of_mem_spaces,
      Cursor.column_walk h.not_isBreak]
    omega
  rw [readPlain_run gap h.mark h.has_sign
    (h.run (.inl ⟨' ', spaces k ++ tail, rfl, rfl⟩) (by omega)) (by simpa using h.ne_nil),
    hafter, hgap]
  simp only [hcolumn', if_false]
  simp

/-- **A plain text is read back** up to the end of its line. -/
theorem readPlain_line {n : Nat} {tail : List Char} (hn : (n : Int) < indent)
    (htail : ∀ x ∈ tail.head?, isGap x = false ∧ isBreak x = false) (text : List Char) :
    text ≠ [] → MarkFree text → (∀ x ∈ text, isPrintable x = true ∧ isBreak x = false) →
    text.head? ≠ some ' ' → text.getLast? ≠ some ' ' →
    ∀ (fuel : Nat) (c : Cursor) (gap : Gap) (acc : List Char), 0 < c.column → indent ≤ c.column →
      c.rest = text ++ '\n' :: (spaces n ++ tail) → c.rest.length < fuel →
      readPlain false indent fuel c gap acc =
        some (acc.reverse ++ gap.text ++ text, true, c.walk (text ++ '\n' :: spaces n)) := by
  induction text using runs_induction isBlank with
  | last word hword =>
    intro hne hmark _ _ _ fuel c gap acc hcolumn _ hc hfuel
    rw [hc] at hfuel
    simp only [List.length_append, List.length_cons, length_spaces] at hfuel
    obtain ⟨fuel, rfl⟩ : ∃ k, fuel = k + 1 := ⟨fuel - 1, by omega⟩
    exact readPlain_last gap
      ⟨hc, atDocumentMark_eq_false hcolumn, hne, hword, hmark.head, hmark.getLast?⟩ hn htail
      (by omega)
  | next word gap rest hword hne hblank hrest ih =>
    intro _ hmark hprint hhead hlast fuel c before acc hcolumn hindent hc hfuel
    -- in one line of printable characters every gap is made of spaces
    have hspace : ∀ x ∈ gap, x = ' ' := by
      intro x hx
      have hx' := hprint x (by simp [hx])
      rcases Bool.or_eq_true _ _ ▸ hblank x hx with hgap | hbreak
      · exact eq_space_of_isPrintable hgap hx'.1
      · rw [hx'.2] at hbreak
        cases hbreak
    obtain ⟨j, rfl⟩ := exists_eq_spaces hne hspace
    have hword' : word ≠ [] := by
      rintro rfl
      exact hhead rfl
    have hrest' : rest ≠ [] := by
      rintro rfl
      apply hlast
      rw [List.append_nil, List.getLast?_append]
      simp [spaces, List.replicate_succ']
    obtain ⟨hcolon, hmarkRest⟩ := hmark.of_append hne hblank
    have hheadWord : word.head? ≠ some '#' := by
      obtain ⟨x, word, rfl⟩ := List.exists_cons_of_ne_nil hword'
      exact hmark.head
    have hheadRest : rest.head? ≠ some ' ' := by
      intro h
      cases hrest ' ' h
    have hlastRest : rest.getLast? ≠ some ' ' := by
      rwa [List.getLast?_append_of_ne_nil _ (by simp [hrest']),
        List.getLast?_append_of_ne_nil _ hrest'] at hlast
    have hc' : c.rest = word ++ (spaces (j + 1) ++ (rest ++ '\n' :: (spaces n ++ tail))) := by
      rw [hc]
      simp only [List.append_assoc]
    have hlength : c.rest.length =
        word.length + ((j + 1) + (rest.length + ((n + tail.length) + 1))) := by
      rw [hc']
      simp only [List.length_append, List.length_cons, length_spaces]
    obtain ⟨fuel, rfl⟩ : ∃ k, fuel = k + 1 := ⟨fuel - 1, by omega⟩
    have hat : AtWord c word (spaces (j + 1) ++ (rest ++ '\n' :: (spaces n ++ tail))) :=
      ⟨hc', atDocumentMark_eq_false hcolumn, hword', hword, hheadWord, hcolon⟩
    have hplace : (c.walk (word ++ spaces (j + 1))).rest = rest ++ '\n' :: (spaces n ++ tail) := by
      rw [Cursor.walk_append]
      exact Cursor.rest_walk (Cursor.rest_walk hc')
    have hcolumn' : (c.walk (word ++ spaces (j + 1))).column = c.column + word.length + (j + 1) := by
      rw [Cursor.walk_append, Cursor.column_walk fun _ => not_isBreak_of_mem_spaces,
        Cursor.column_walk hat.not_isBreak, length_spaces]
    have hheadAll : ∀ x ∈ (rest ++ '\n' :: (spaces n ++ tail)).head?,
        isGap x = false ∧ isBreak x = false := by
      obtain ⟨y, rest, rfl⟩ := List.exists_cons_of_ne_nil hrest'
      intro x hx
      exact isBlank_eq_false.mp (hrest x (by simpa using hx))
    rw [readPlain_next before hat (Nat.succ_pos j) hindent hheadAll (by omega),
      ih hrest' hmarkRest (fun x hx => hprint x (by simp [hx])) hheadRest hlastRest fuel _ _ _
        (by omega) (by omega) hplace (by rw [hplace]; simp; omega),
      Gap.text_spaces, ← Cursor.walk_append]
    simp only [List.reverse_reverse, List.append_assoc]

end ReleaseCandidates.Yaml
