import ReleaseCandidates.Proofs.Yaml.EscapedText
import ReleaseCandidates.Proofs.Yaml.LiteralText
import ReleaseCandidates.Proofs.Yaml.PlainText
import ReleaseCandidates.Proofs.Yaml.Stepping
import ReleaseCandidates.Proofs.Yaml.Storable

set_option autoImplicit false

/-! # The tokens of a line

What a line of a stored tree is made of: a key with its colon, the dash of an item, an empty list,
and the scalars in their four styles. Each lemma here takes one of them, from the place where the
scan has arrived at it. -/

namespace ReleaseCandidates.Yaml.Scanner

variable {s a : Scanner} {c : Cursor} {allowed : Bool} {indent : Int} {outer : List Int}
  {found : List Token} {fuel : Nat}

/-! ## Plain words -/

/-- The characters that never start a plain scalar. -/
def marks : List Char :=
  [',', '[', ']', '\x7b', '\x7d', '#', '&', '*', '!', '|', '>', '\x27', '"', '%', '@', '\x60']

theorem marks_eq : ",[]\x7b\x7d#&*!|>\x27\"%@\x60".toList = marks := rfl

/-- Whether a character at the cursor starts a plain scalar in a block. -/
structure StartsWord (c : Cursor) (x : Char) : Prop where
  not_mark : marks.contains x = false
  not_blank : isBlank x = false
  follows : x = '-' ∨ x = '?' ∨ x = ':' → c.gapOrEnd 1 = false
  line : c.atMark '-' = false
  dots : c.atMark '.' = false

theorem StartsWord.startsPlain {x : Char} {rest : List Char} (hc : c.rest = x :: rest)
    (h : StartsWord c x) : (between c allowed indent outer found).startsPlain x = true := by
  unfold Scanner.startsPlain
  by_cases hdash : x = '-'
  · have hnext : c.test 1 isGap = false := by
      have hfollows := h.follows (.inl hdash)
      cases rest with
      | nil => simp [Cursor.test, Cursor.peek, hc]
      | cons y rest =>
        have hy : isGap y = false ∧ isBreak y = false := by
          simpa [Cursor.gapOrEnd, Cursor.peek, hc] using hfollows
        simp [Cursor.test, Cursor.peek, hc, hy.1]
    simp [hdash, hnext]
  · by_cases hother : x = '?' ∨ x = ':'
    · have hfollows := h.follows (.inr hother)
      simp [hdash, hother, hfollows]
    · obtain ⟨hgap, hbreak⟩ := isBlank_eq_false.mp h.not_blank
      rw [not_or] at hother
      have hmark := h.not_mark
      simp only [marks_eq, beq_eq_false_iff_ne.mpr hdash, beq_eq_false_iff_ne.mpr hother.1,
        beq_eq_false_iff_ne.mpr hother.2, hgap, hbreak, hmark, Bool.or_self, Bool.false_eq_true,
        if_false, Bool.not_false]

theorem take_plain {x : Char} {rest : List Char} (hc : c.rest = x :: rest) (h : StartsWord c x) :
    take fuel (between c allowed indent outer found) =
      takePlain fuel (between c allowed indent outer found) := by
  have hpeek : (between c allowed indent outer found).cursor.peek 0 = some x := Cursor.peek_zero hc
  have hmark := h.not_mark
  simp only [marks, List.contains_cons, Bool.or_eq_false_iff, List.contains_nil] at hmark
  obtain ⟨hcomma, hopen, hclose, hbrace, hunbrace, -, hanchor, halias, htag, hliteral, hfolded,
    hsingle, hdouble, hpercent, -, -⟩ := hmark
  have hfollows : ∀ y, y = '-' ∨ y = '?' ∨ y = ':' → (x == y && c.gapOrEnd 1) = false := by
    intro y hy
    by_cases hxy : x = y
    · rw [h.follows (hxy ▸ hy), Bool.and_false]
    · simp [hxy]
  have hdash := hfollows '-' (.inl rfl)
  have hquestion := hfollows '?' (.inr (.inl rfl))
  have hcolon := hfollows ':' (.inr (.inr rfl))
  rw [take, hpeek]
  show takeToken fuel _ x = _
  unfold takeToken
  simp only [between_cursor, between_inFlow, h.line, h.dots, hcomma, hopen, hclose, hbrace, hunbrace,
    hanchor, halias, htag, hliteral, hfolded, hsingle, hdouble, hpercent, hdash, hquestion, hcolon,
    h.startsPlain hc, Bool.and_false, Bool.false_and, Bool.false_or, Bool.false_eq_true, if_false,
    if_true]

/-! ## Keys -/

/-- The characters of a key are part of a word, and neither marks nor colons. -/
theorem isKeyChar_facts {x : Char} (h : isKeyChar x = true) :
    marks.contains x = false ∧ isBlank x = false ∧ x ≠ '-' ∧ x ≠ '.' ∧ x ≠ '?' ∧ x ≠ ':' ∧ x ≠ '#' ∧
      x ≠ byteOrderMark := by
  have hne : ∀ y, isKeyChar y = false → x ≠ y := by
    rintro y hy rfl
    rw [h] at hy
    cases hy
  refine ⟨?_, ?_, hne _ rfl, hne _ rfl, hne _ rfl, hne _ rfl, hne _ rfl, hne _ rfl⟩
  · rw [Bool.eq_false_iff]
    intro hmark
    have hnone : marks.all (fun y => !isKeyChar y) = true := rfl
    have hx := List.all_eq_true.1 hnone x (by simpa using hmark)
    exact hne x (by simpa using hx) rfl
  · rw [Bool.eq_false_iff]
    intro hblank
    simp only [isBlank, isGap, isBreak, Bool.or_eq_true, beq_iff_eq] at hblank
    rcases hblank with (rfl | rfl) | (((rfl | rfl) | rfl) | rfl) | rfl
    all_goals cases h

/-- Where a key starts, and what comes after it. -/
structure AtKey (c : Cursor) (key : String) (rest : List Char) : Prop where
  rest_eq : c.rest = key.toList ++ ':' :: rest
  isKey : IsKey key
  blank : ∃ x tail, rest = x :: tail ∧ isBlank x = true

namespace AtKey

variable {key : String} {rest : List Char}

theorem exists_head (h : AtKey c key rest) :
    ∃ x tail, key.toList = x :: tail ∧ isKeyChar x = true := by
  obtain ⟨x, tail, hkey⟩ := List.exists_cons_of_ne_nil h.isKey.1
  exact ⟨x, tail, hkey, h.isKey.isKeyChar (by simp [hkey])⟩

theorem atMark_eq_false (h : AtKey c key rest) : c.atMark '-' = false ∧ c.atMark '.' = false := by
  obtain ⟨x, tail, hkey, hx⟩ := h.exists_head
  obtain ⟨-, -, hdash, hdot, -⟩ := isKeyChar_facts hx
  have hhead : c.rest = x :: (tail ++ ':' :: rest) := by rw [h.rest_eq, hkey]; rfl
  constructor
  · simp [Cursor.atMark, Cursor.has, Cursor.peek_zero hhead, hdash]
  · simp [Cursor.atMark, Cursor.has, Cursor.peek_zero hhead, hdot]

theorem startsWord (h : AtKey c key rest) :
    ∃ x tail, c.rest = x :: tail ∧ StartsWord c x := by
  obtain ⟨x, tail, hkey, hx⟩ := h.exists_head
  obtain ⟨hmark, hblank, hdash, -, hquestion, hcolon, -⟩ := isKeyChar_facts hx
  refine ⟨x, tail ++ ':' :: rest, by rw [h.rest_eq, hkey]; rfl, hmark, hblank, ?_,
    h.atMark_eq_false.1, h.atMark_eq_false.2⟩
  rintro (rfl | rfl | rfl)
  · exact absurd rfl hdash
  · exact absurd rfl hquestion
  · exact absurd rfl hcolon

theorem atWord (h : AtKey c key rest) : AtWord c key.toList (':' :: rest) where
  rest_eq := h.rest_eq
  mark := by simp [Cursor.atDocumentMark, h.atMark_eq_false.1, h.atMark_eq_false.2]
  ne_nil := h.isKey.1
  not_blank := fun x hx => (isKeyChar_facts (h.isKey.isKeyChar hx)).2.1
  head := by
    intro hhead
    have hx := h.isKey.isKeyChar (List.mem_of_head? hhead)
    cases hx
  colon := by
    intro hlast
    have hx := h.isKey.isKeyChar (List.mem_of_getLast? hlast)
    cases hx

end AtKey

/-- A scan after a word that may be a key. -/
def afterKey (c : Cursor) (key : String) (indent : Int) (outer : List Int) (found : List Token) :
    Scanner :=
  { between (c.walk key.toList) false indent outer (.scalar key .plain :: found) with
    keys := [some ⟨indent == c.column, found.length, c.index, c.line, c.column⟩] }

section Keys

variable {key : String} {rest : List Char}

theorem take_key (h : AtKey c key rest) (hfuel : key.toList.length < fuel) :
    take fuel (between c true indent outer found) = some (afterKey c key indent outer found) := by
  obtain ⟨x, tail, hc, hword⟩ := h.startsWord
  obtain ⟨fuel, rfl⟩ : ∃ k, fuel = k + 1 := ⟨fuel - 1, by omega⟩
  obtain ⟨y, rest', rfl, hy⟩ := h.blank
  have hread : readPlain false (indent + 1) (fuel + 1) c Gap.none [] =
      some (key.toList, false, c.walk key.toList) := readPlain_key h.atWord hy (by omega)
  have hnote : (between c true indent outer found).noteKey =
      some { between c true indent outer found with
        keys := [some ⟨indent == c.column, found.length, c.index, c.line, c.column⟩] } := rfl
  rw [take_plain hc hword, takePlain, hnote]
  show (readPlain false (indent + 1) (fuel + 1) c Gap.none []).bind _ = _
  simp only [hread, Option.bind_some, String.ofList_toList]
  rfl

/-- A word in the same line that is short enough stays a candidate for a key. -/
theorem dropStale_afterKey (h : AtKey c key rest) :
    (afterKey c key indent outer found).dropStale = some (afterKey c key indent outer found) := by
  have hstale : (afterKey c key indent outer found).isStale
      ⟨indent == c.column, found.length, c.index, c.line, c.column⟩ = false := by
    have hlength := h.isKey.2.1
    show (decide (c.line < (c.walk key.toList).line) ||
      decide (c.index + 1024 < (c.walk key.toList).index)) = false
    rw [Cursor.line_walk h.atWord.not_isBreak, Cursor.index_walk]
    simp only [maxKeyLength] at hlength
    simp
    omega
  have hkeys : (afterKey c key indent outer found).keys =
      [some ⟨indent == c.column, found.length, c.index, c.line, c.column⟩] := rfl
  unfold dropStale
  simp only [hkeys, List.any_cons, List.any_nil, Option.any_some, hstale, Bool.false_and, Bool.or_self,
    Bool.false_eq_true, if_false, List.map_cons, List.map_nil, Option.filter_some, Bool.not_false,
    if_true]
  rfl

/-- After a key the scan stands at the colon. -/
theorem ready_afterKey (h : AtKey c key rest) (hindent : indent ≤ c.column) :
    Ready (afterKey c key indent outer found) (afterKey c key indent outer found) := by
  have hplace : (c.walk key.toList).rest = spaces 0 ++ ':' :: rest := Cursor.rest_walk h.rest_eq
  have htext : StartsToken (':' :: rest) := by
    intro x hx
    obtain rfl : ':' = x := by simpa using hx
    exact ⟨rfl, rfl, by decide, by decide⟩
  refine ⟨?_, Nat.le_refl _⟩
  intro fuel hfuel
  obtain ⟨fuel, rfl⟩ : ∃ k, fuel = k + 1 := ⟨fuel - 1, by omega⟩
  have hskip : skipToToken (fuel + 1) (afterKey c key indent outer found) =
      afterKey c key indent outer found :=
    skipToToken_spaces (s := afterKey c key indent outer found) hplace htext
  have hcolumn : (c.walk key.toList).column = c.column + key.toList.length :=
    Cursor.column_walk h.atWord.not_isBreak
  rw [arrive, hskip, dropStale_afterKey h, Option.map_some]
  congr 1
  show closeBlocks ((c.walk key.toList).column : Int) (outer.length + 1) _ = _
  rw [closeBlocks]
  refine if_neg ?_
  show ¬((c.walk key.toList).column : Int) < indent
  omega

theorem take_afterKey (h : AtKey c key rest) :
    take fuel (afterKey c key indent outer found) =
      (afterKey c key indent outer found).takeValue := by
  obtain ⟨y, rest', rfl, hy⟩ := h.blank
  have hplace : (afterKey c key indent outer found).cursor.rest = ':' :: y :: rest' :=
    Cursor.rest_walk h.rest_eq
  have hgap : (afterKey c key indent outer found).cursor.gapOrEnd 1 = true := by
    simpa [Cursor.gapOrEnd, Cursor.peek, hplace, isBlank] using hy
  have hdash : (afterKey c key indent outer found).cursor.atMark '-' = false := by
    simp [Cursor.atMark, Cursor.has, Cursor.peek_zero hplace]
  have hdot : (afterKey c key indent outer found).cursor.atMark '.' = false := by
    simp [Cursor.atMark, Cursor.has, Cursor.peek_zero hplace]
  rw [take, Cursor.peek_zero hplace]
  show takeToken fuel _ ':' = _
  unfold takeToken
  simp [hgap, hdash, hdot]

/-- The colon makes a key of the candidate. -/
theorem take_colon (h : AtKey c key rest) (hindent : indent = c.column) :
    take fuel (afterKey c key indent outer found) =
      some (between (c.walk (key.toList ++ [':'])) false indent outer
        (.value :: .scalar key .plain :: .key :: found)) := by
  have hskip : (c.walk key.toList).skip 1 = c.walk (key.toList ++ [':']) := by
    rw [Cursor.walk_append, Cursor.walk_singleton rfl]
  have hback : found.length + 1 - found.length = 1 := by omega
  have hnot : ¬indent < c.column := by omega
  rw [take_afterKey h, ← hskip]
  simp only [takeValue, afterKey, between, List.length_cons, hback, emitBack, openBlock, inFlow,
    hnot]
  rfl

/-- A colon in a column of its own opens a block. -/
theorem take_colon_open (h : AtKey c key rest) (hindent : indent < c.column) :
    take fuel (afterKey c key indent outer found) =
      some (between (c.walk (key.toList ++ [':'])) false c.column (indent :: outer)
        (.value :: .scalar key .plain :: .key :: .blockMappingStart :: found)) := by
  have hskip : (c.walk key.toList).skip 1 = c.walk (key.toList ++ [':']) := by
    rw [Cursor.walk_append, Cursor.walk_singleton rfl]
  have hback : found.length + 1 - found.length = 1 := by omega
  rw [take_afterKey h, ← hskip]
  simp only [takeValue, afterKey, between, List.length_cons, hback, emitBack, openBlock, inFlow,
    hindent]
  rfl

theorem leads_afterKey (h : AtKey c key rest)
    (hready : Ready s (between c true indent outer found)) :
    Leads s (afterKey c key indent outer found) := by
  have hpos : 0 < key.toList.length := List.length_pos_iff.mpr h.isKey.1
  have hlength : c.rest.length = key.toList.length + (':' :: rest).length := by
    rw [h.rest_eq, List.length_append]
  refine Leads.of_step hready ?_ ?_ (by simp [afterKey])
  · intro fuel hfuel
    rw [between_cursor] at hfuel
    rw [take_key h (by omega)]
    exact dropStale_afterKey h
  · show (c.walk key.toList).rest.length < c.rest.length
    rw [Cursor.rest_walk h.rest_eq]
    omega

theorem rest_walk_colon (h : AtKey c key rest) : (c.walk (key.toList ++ [':'])).rest = rest := by
  apply Cursor.rest_walk
  rw [h.rest_eq, List.append_assoc, List.singleton_append]

theorem column_lt_walk_colon (h : AtKey c key rest) :
    c.column < (c.walk (key.toList ++ [':'])).column := by
  have hbreak : ∀ x ∈ key.toList ++ [':'], isBreak x = false := by
    intro x hx
    rcases List.mem_append.mp hx with hx | hx
    · exact h.atWord.not_isBreak x hx
    · rw [List.mem_singleton.mp hx]
      rfl
  rw [Cursor.column_walk hbreak, List.length_append, List.length_singleton]
  omega

/-- A key in the column of its block, with its colon. -/
theorem leads_key (h : AtKey c key rest) (hready : Ready s (between c true indent outer found))
    (hindent : indent = c.column) :
    Leads s (between (c.walk (key.toList ++ [':'])) false indent outer
      (.value :: .scalar key .plain :: .key :: found)) := by
  refine (leads_afterKey h hready).trans
    (Leads.of_step (ready_afterKey h (by omega)) ?_ ?_ (by simp))
  · intro fuel _
    rw [take_colon h hindent]
    rfl
  · show (c.walk (key.toList ++ [':'])).rest.length < (c.walk key.toList).rest.length
    rw [rest_walk_colon h, Cursor.rest_walk h.rest_eq, List.length_cons]
    omega

/-- A key right of the block around it, with its colon. -/
theorem leads_key_open (h : AtKey c key rest) (hready : Ready s (between c true indent outer found))
    (hindent : indent < c.column) :
    Leads s (between (c.walk (key.toList ++ [':'])) false c.column (indent :: outer)
      (.value :: .scalar key .plain :: .key :: .blockMappingStart :: found)) := by
  refine (leads_afterKey h hready).trans
    (Leads.of_step (ready_afterKey h (by omega)) ?_ ?_ (by simp))
  · intro fuel _
    rw [take_colon_open h hindent]
    rfl
  · show (c.walk (key.toList ++ [':'])).rest.length < (c.walk key.toList).rest.length
    rw [rest_walk_colon h, Cursor.rest_walk h.rest_eq, List.length_cons]
    omega

end Keys

/-! ## Items and empty lists -/

theorem take_item {rest : List Char} (hc : c.rest = '-' :: ' ' :: rest) (hindent : indent = c.column) :
    take fuel (between c true indent outer found) =
      some (between (c.walk ['-']) true indent outer (.item :: found)) := by
  have hgap : c.gapOrEnd 1 = true := by simp [Cursor.gapOrEnd, Cursor.peek, hc, isGap]
  have hdash : c.atMark '-' = false := by simp [Cursor.atMark, Cursor.has, Cursor.peek, hc]
  have hdot : c.atMark '.' = false := by simp [Cursor.atMark, Cursor.has, Cursor.peek, hc]
  have hopen : (between c true indent outer found).openBlock c.column 0 .blockSequenceStart =
      between c true indent outer found := by
    unfold openBlock
    have hnot : ¬indent < c.column := by omega
    refine if_neg ?_
    simp [between, hnot]
  have htake : takeToken fuel (between c true indent outer found) '-' =
      (between c true indent outer found).takeItem := by
    unfold takeToken
    simp [hgap, hdash, hdot]
  rw [take, between_cursor, Cursor.peek_zero hc]
  simp only [htake]
  rw [takeItem]
  show ((between c true indent outer found).openBlock c.column 0 .blockSequenceStart).dropKey.bind _ = _
  rw [hopen, Cursor.walk_singleton rfl]
  rfl

/-- The dash of an item in the column of the block around it. -/
theorem leads_item {rest : List Char} (hc : c.rest = '-' :: ' ' :: rest)
    (hready : Ready s (between c true indent outer found)) (hindent : indent = c.column) :
    Leads s (between (c.walk ['-']) true indent outer (.item :: found)) := by
  have hone : c.rest = ['-'] ++ ' ' :: rest := hc
  refine Leads.of_step hready ?_ ?_ (by simp)
  · intro fuel _
    rw [take_item hc hindent]
    rfl
  · show (c.walk ['-']).rest.length < c.rest.length
    rw [Cursor.rest_walk hone, hone, List.length_append, List.length_singleton]
    omega

/-- A scan after the bracket that opens a list. -/
def afterBracket (c : Cursor) (indent : Int) (outer : List Int) (found : List Token) : Scanner :=
  ⟨c, 1, indent, outer, true, [none, none], .flowSequenceStart :: found, found.length + 1⟩

theorem take_bracket {rest : List Char} (hc : c.rest = '[' :: rest) :
    take fuel (between c false indent outer found) =
      some (afterBracket (c.walk ['[']) indent outer found) := by
  have hdash : c.atMark '-' = false := by simp [Cursor.atMark, Cursor.has, Cursor.peek, hc]
  have hdot : c.atMark '.' = false := by simp [Cursor.atMark, Cursor.has, Cursor.peek, hc]
  have htake : takeToken fuel (between c false indent outer found) '[' =
      (between c false indent outer found).takeFlowStart .flowSequenceStart := by
    unfold takeToken
    simp [hdash, hdot]
  rw [take, between_cursor, Cursor.peek_zero hc]
  simp only [htake]
  rw [Cursor.walk_singleton rfl]
  rfl

theorem take_unbracket {rest : List Char} (hc : c.rest = ']' :: rest) :
    take fuel (afterBracket c indent outer found) =
      some (between (c.walk [']']) false indent outer
        (.flowSequenceEnd :: .flowSequenceStart :: found)) := by
  have hdash : c.atMark '-' = false := by simp [Cursor.atMark, Cursor.has, Cursor.peek, hc]
  have hdot : c.atMark '.' = false := by simp [Cursor.atMark, Cursor.has, Cursor.peek, hc]
  have htake : takeToken fuel (afterBracket c indent outer found) ']' =
      (afterBracket c indent outer found).takeFlowEnd .flowSequenceEnd := by
    unfold takeToken
    simp [afterBracket, hdash, hdot]
  have hpeek : (afterBracket c indent outer found).cursor.peek 0 = some ']' := Cursor.peek_zero hc
  rw [take, hpeek]
  simp only [htake]
  rw [Cursor.walk_singleton rfl]
  rfl

theorem ready_afterBracket {rest : List Char} (hc : c.rest = ']' :: rest) :
    Ready (afterBracket c indent outer found) (afterBracket c indent outer found) := by
  have htext : StartsToken (']' :: rest) := by
    intro x hx
    obtain rfl : ']' = x := by simpa using hx
    exact ⟨rfl, rfl, by decide, by decide⟩
  have hplace : (afterBracket c indent outer found).cursor.rest = spaces 0 ++ ']' :: rest := hc
  refine ⟨?_, Nat.le_refl _⟩
  intro fuel hfuel
  obtain ⟨fuel, rfl⟩ : ∃ k, fuel = k + 1 := ⟨fuel - 1, by omega⟩
  rw [arrive, skipToToken_spaces hplace htext]
  rfl

/-- An empty list. -/
theorem leads_empty_list {rest : List Char} (hc : c.rest = '[' :: ']' :: rest)
    (hready : Ready s (between c false indent outer found)) :
    Leads s (between (c.walk ['[', ']']) false indent outer
      (.flowSequenceEnd :: .flowSequenceStart :: found)) := by
  have hone : c.rest = ['['] ++ ']' :: rest := hc
  have hplace : (c.walk ['[']).rest = ']' :: rest := Cursor.rest_walk hone
  have htwo : (c.walk ['[']).rest = [']'] ++ rest := hplace
  have hopen : Leads s (afterBracket (c.walk ['[']) indent outer found) := by
    refine Leads.of_step hready ?_ ?_ (by simp [afterBracket])
    · intro fuel _
      rw [take_bracket hc]
      rfl
    · show (c.walk ['[']).rest.length < c.rest.length
      rw [hplace, hone, List.length_append, List.length_singleton]
      omega
  refine hopen.trans (Leads.of_step (ready_afterBracket hplace) ?_ ?_ (by simp))
  · intro fuel _
    rw [take_unbracket hplace]
    rfl
  · show (c.walk ['[', ']']).rest.length < (c.walk ['[']).rest.length
    rw [Cursor.walk_cons, Cursor.rest_walk htwo, hplace, List.length_cons]
    omega

end ReleaseCandidates.Yaml.Scanner
