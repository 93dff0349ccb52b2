import ReleaseCandidates.Proofs.Yaml.Building
import ReleaseCandidates.Proofs.Yaml.TreeLines

set_option autoImplicit false

/-! # Documents are read back

What the program writes for a stored tree is read back as the tree, whatever the texts in it
(`Document.read_render`). The characters of the document are all allowed, the scan finds the tokens of
the tree in its lines, and the builder makes the tree of them. Only line breaks kept at the end of a
document need the end mark: without it, nothing would tell them from the end of the text. -/

namespace ReleaseCandidates.Yaml

/-! ## Characters -/

theorem isAllowed_of_isPrintable {x : Char} (h : isPrintable x = true) : isAllowed x = true := by
  have hvalid := not_surrogate_toNat x
  simp only [isPrintable, isAllowed, Bool.or_eq_true, Bool.and_eq_true, beq_iff_eq, bne_iff_ne,
    decide_eq_true_eq] at h ⊢
  omega

/-- Whether a document may hold all characters of a text. -/
def AllAllowed (text : List Char) : Prop := ∀ x ∈ text, isAllowed x = true

theorem allAllowed_append {text text' : List Char} :
    AllAllowed (text ++ text') ↔ AllAllowed text ∧ AllAllowed text' := by
  simp only [AllAllowed, List.mem_append]
  exact ⟨fun h => ⟨fun x hx => h x (.inl hx), fun x hx => h x (.inr hx)⟩,
    fun h x hx => hx.elim (h.1 x) (h.2 x)⟩

theorem allAllowed_cons {x : Char} {text : List Char} :
    AllAllowed (x :: text) ↔ isAllowed x = true ∧ AllAllowed text := by
  simp [AllAllowed]

theorem allAllowed_nil : AllAllowed [] := by
  intro x hx
  cases hx

theorem allAllowed_spaces (n : Nat) : AllAllowed (spaces n) := by
  intro x hx
  rw [List.eq_of_mem_replicate hx]
  rfl

theorem allAllowed_of_printable {text : List Char} (h : ∀ x ∈ text, isPrintable x = true) :
    AllAllowed text := fun x hx => isAllowed_of_isPrintable (h x hx)

theorem allAllowed_of_all {text : List Char} (h : text.all isPrintable = true) : AllAllowed text :=
  allAllowed_of_printable (List.all_eq_true.1 h)

theorem allAllowed_singleQuoted (n : Nat) {text : List Char} (h : AllAllowed text)
    (broken : Bool) : AllAllowed (singleQuoted n broken text) := by
  have hindent : ∀ b : Bool, AllAllowed (if b then spaces n else []) := by
    intro b
    cases b
    · exact allAllowed_nil
    · exact allAllowed_spaces n
  induction text generalizing broken with
  | nil => exact hindent broken
  | cons x text ih =>
    obtain ⟨hx, htext⟩ := allAllowed_cons.mp h
    rw [singleQuoted]
    split
    · exact allAllowed_cons.mpr ⟨hx, ih htext true⟩
    · refine allAllowed_append.mpr ⟨allAllowed_append.mpr ⟨hindent broken, ?_⟩, ih htext false⟩
      split
      · exact allAllowed_of_all rfl
      · exact allAllowed_cons.mpr ⟨hx, allAllowed_nil⟩

theorem allAllowed_literalLines (n : Nat) {text : List Char} (h : AllAllowed text)
    (atStart : Bool) : AllAllowed (literalLines n atStart text) := by
  induction text generalizing atStart with
  | nil => exact allAllowed_nil
  | cons x text ih =>
    obtain ⟨hx, htext⟩ := allAllowed_cons.mp h
    rw [literalLines]
    split
    · exact allAllowed_cons.mpr ⟨hx, ih htext true⟩
    · refine allAllowed_append.mpr ⟨?_, allAllowed_cons.mpr ⟨hx, ih htext false⟩⟩
      cases atStart
      · exact allAllowed_nil
      · exact allAllowed_spaces n

/-- A scalar is written in allowed characters, whatever its own are. -/
theorem allAllowed_scalarLines (n : Nat) (text : String) : AllAllowed (scalarLines n text) := by
  have hend : ∀ x, isAllowed x = true → AllAllowed [x, '\n'] := by
    intro x hx
    exact allAllowed_cons.mpr ⟨hx, allAllowed_cons.mpr ⟨rfl, allAllowed_nil⟩⟩
  rcases writtenStyle_cases text with ⟨hstyle, -, hallows⟩ | ⟨hstyle, -, hallows⟩ |
    ⟨hstyle, -, hallows⟩ | hstyle
  · simp only [allowsLiteral, Bool.and_eq_true, Bool.not_eq_true'] at hallows
    have htext := allAllowed_of_printable (isPrintable_of_not_needsEscapes hallows.1)
    have hindent : AllAllowed (indentMark text.toList) := by
      unfold indentMark
      split <;> exact allAllowed_of_all rfl
    have hchomping : AllAllowed (chompingMark text.toList) := by
      rcases chompingMark_cases text.toList with h | h | h
      all_goals
        rw [h]
        exact allAllowed_of_all rfl
    have hlast : AllAllowed (if text.toList.getLast?.any isBreak then [] else ['\n']) := by
      split
      · exact allAllowed_nil
      · exact allAllowed_cons.mpr ⟨rfl, allAllowed_nil⟩
    simp only [scalarLines, hstyle, allAllowed_append, allAllowed_cons]
    exact ⟨⟨⟨⟨rfl, hindent⟩, hchomping⟩, rfl, allAllowed_literalLines n htext true⟩, hlast⟩
  · have htext := allAllowed_of_printable (plainText_of_allowsPlain hallows).printable
    simp only [scalarLines, hstyle]
    exact allAllowed_append.mpr ⟨htext, allAllowed_cons.mpr ⟨rfl, allAllowed_nil⟩⟩
  · simp only [allowsSingle, Bool.and_eq_true, Bool.not_eq_true'] at hallows
    have htext := allAllowed_of_printable (isPrintable_of_not_needsEscapes hallows.1)
    simp only [scalarLines, hstyle]
    exact allAllowed_append.mpr
      ⟨allAllowed_cons.mpr ⟨rfl, allAllowed_singleQuoted n htext false⟩, hend _ rfl⟩
  · simp only [scalarLines, hstyle]
    have htext : AllAllowed (doubleQuoted text.toList) :=
      allAllowed_of_printable fun x => isPrintable_of_mem_doubleQuoted
    exact allAllowed_append.mpr ⟨allAllowed_cons.mpr ⟨rfl, htext⟩, hend _ rfl⟩

namespace Tree

theorem allAllowed_key {key : String} (h : IsKey key) : AllAllowed key.toList := by
  intro x hx
  have hkey := h.isKeyChar hx
  apply isAllowed_of_isPrintable
  rw [isKeyChar, Bool.or_eq_true] at hkey
  rcases hkey with hkey | hkey
  · delta Char.isAlphanum Char.isAlpha Char.isUpper Char.isLower Char.isDigit at hkey
    simp only [Bool.or_eq_true, Bool.and_eq_true, decide_eq_true_eq,
      UInt32.le_iff_toNat_le] at hkey
    have hrange : 0x20 ≤ x.toNat ∧ x.toNat ≤ 0x7E := by
      simp at hkey
      omega
    simp [isPrintable, hrange]
  · obtain rfl : x = '_' := by simpa using hkey
    rfl

theorem allAllowed_emptyList : AllAllowed ['[', ']', '\n'] :=
  allAllowed_of_all rfl

mutual

theorem allAllowed_lines : ∀ (t : Tree) (n : Nat), t.Storable → AllAllowed (lines n t)
  | .text s, n, _ => allAllowed_scalarLines (n + 2) s
  | .list [], _, _ => allAllowed_emptyList
  | .list (t :: ts), n, h => by
    rw [lines, allAllowed_append, allAllowed_append]
    exact ⟨⟨allAllowed_of_all rfl, allAllowed_lines t (n + 2) h.2.1⟩,
      allAllowed_itemLines ts n h.2.2⟩
  | .record [], _, h => absurd rfl h.1
  | .record ((key, t) :: fields), n, h => by
    obtain ⟨-, hkey, ht, hfields⟩ := h
    rw [lines, allAllowed_append, allAllowed_append, allAllowed_cons]
    exact ⟨⟨allAllowed_key hkey, rfl, allAllowed_fieldLines t n ht⟩,
      allAllowed_recordLines fields n hfields⟩

theorem allAllowed_itemLines : ∀ (ts : List Tree) (n : Nat), ItemsStorable ts →
    AllAllowed (itemLines n ts)
  | [], _, _ => allAllowed_nil
  | t :: ts, n, h => by
    rw [itemLines, allAllowed_append, allAllowed_append, allAllowed_append]
    exact ⟨⟨⟨allAllowed_spaces n, allAllowed_of_all rfl⟩,
      allAllowed_lines t (n + 2) h.2.1⟩, allAllowed_itemLines ts n h.2.2⟩

theorem allAllowed_recordLines : ∀ (fields : List (String × Tree)) (n : Nat),
    FieldsStorable fields → AllAllowed (recordLines n fields)
  | [], _, _ => allAllowed_nil
  | (key, t) :: fields, n, h => by
    obtain ⟨hkey, ht, hfields⟩ := h
    rw [recordLines, allAllowed_append, allAllowed_append, allAllowed_append, allAllowed_cons]
    exact ⟨⟨⟨allAllowed_spaces n, allAllowed_key hkey⟩, rfl, allAllowed_fieldLines t n ht⟩,
      allAllowed_recordLines fields n hfields⟩

theorem allAllowed_fieldLines : ∀ (t : Tree) (n : Nat), t.Storable → AllAllowed (fieldLines n t)
  | .text s, n, _ => allAllowed_cons.mpr ⟨rfl, allAllowed_scalarLines (n + 2) s⟩
  | .list [], _, _ => allAllowed_cons.mpr ⟨rfl, allAllowed_emptyList⟩
  | .list (t :: ts), n, h => by
    rw [fieldLines, allAllowed_append, allAllowed_append, allAllowed_append, allAllowed_cons]
    exact ⟨⟨⟨⟨rfl, allAllowed_spaces n⟩, allAllowed_of_all rfl⟩,
      allAllowed_lines t (n + 2) h.2.1⟩, allAllowed_itemLines ts n h.2.2⟩
  | .record [], _, h => absurd rfl h.1
  | .record ((key, t) :: fields), n, h => by
    obtain ⟨-, hkey, ht, hfields⟩ := h
    rw [fieldLines, allAllowed_append, allAllowed_append, allAllowed_append, allAllowed_cons,
      allAllowed_cons]
    exact ⟨⟨⟨⟨rfl, allAllowed_spaces (n + 2)⟩, allAllowed_key hkey⟩, rfl,
      allAllowed_fieldLines t (n + 2) ht⟩, allAllowed_recordLines fields (n + 2) hfields⟩

end

end Tree

/-! ## Ends of documents -/

namespace Scanner

variable {s : Scanner} {c : Cursor} {indent : Int} {outer : List Int} {found found' : List Token}

/-- At the end of the text all blocks end, and the run with them. -/
theorem run_end (hready : ReadyAt s [] indent outer found) (hindent : indent ≤ 0)
    (hclose : ∀ c : Cursor, (between c true indent outer found).unwind (-1) =
      between c true (-1) [] found') {fuel : Nat} (hfuel : s.cursor.rest.length + 2 ≤ fuel) :
    run fuel s = (.streamEnd :: found').reverse := by
  obtain ⟨c, hc, hcolumn, hready⟩ := hready.ready (n := 0) startsToken_nil hindent
  obtain ⟨fuel, rfl⟩ : ∃ k, fuel = k + 1 := ⟨fuel - 1, by omega⟩
  have htake : take (fuel + 1) (between c true indent outer found) =
      some (between c false (-1) [] (.streamEnd :: found')) := by
    have hpeek : c.peek 0 = none := by simp [Cursor.peek, hc]
    rw [take, between_cursor, hpeek]
    show takeEnd _ = _
    unfold takeEnd
    simp only [between_cursor, hcolumn, if_true]
    show (((between c true indent outer found).unwind (-1)).dropKey).map _ = _
    rw [hclose]
    rfl
  have hstep : step (fuel + 1) s = some (between c false (-1) [] (.streamEnd :: found')) := by
    rw [step_eq, hready.arrive_eq (fuel + 1) hfuel, Option.bind_some, htake]
    rfl
  rw [run, hstep]
  simp

/-- The mark that ends a document ends all blocks. -/
theorem leads_endMark {rest : List Char} (hc : c.rest = '.' :: '.' :: '.' :: '\n' :: rest)
    (hcolumn : c.column = 0) (hready : Ready s (between c true indent outer found))
    (hclose : (between c true indent outer found).unwind (-1) = between c true (-1) [] found') :
    Leads s (between (c.skip 3) false (-1) [] (.documentEnd :: found')) := by
  have hdash : c.atMark '-' = false := by simp [Cursor.atMark, Cursor.has, Cursor.peek, hc]
  have hdot : c.atMark '.' = true := by
    simp [Cursor.atMark, Cursor.has, Cursor.peek, hc, hcolumn, Cursor.gapOrEnd, isBreak]
  have htake : ∀ fuel, take fuel (between c true indent outer found) =
      some (between (c.skip 3) false (-1) [] (.documentEnd :: found')) := by
    intro fuel
    have htoken : takeToken fuel (between c true indent outer found) '.' =
        (between c true indent outer found).takeDocumentMark .documentEnd := by
      unfold takeToken
      simp [hdash, hdot]
    rw [take, between_cursor, Cursor.peek_zero hc]
    simp only [htoken]
    rw [takeDocumentMark, hclose]
    rfl
  refine Leads.of_step hready ?_ ?_ (by simp)
  · intro fuel _
    rw [htake]
    rfl
  · show (c.skip 3).rest.length < c.rest.length
    simp [Cursor.skip, hc]

end Scanner

/-! ## Documents -/

namespace Tree

open Scanner

/-- What closes a document after the lines of its tree. -/
def endMark (t : Tree) : List Char :=
  if t.lastText.any keepsBreaks then ['.', '.', '.', '\n'] else []

/-- The tokens after those of the tree. -/
def endTokens (t : Tree) : List Token :=
  if t.lastText.any keepsBreaks then [.documentEnd, .streamEnd] else [.streamEnd]

theorem atEnd_endTokens (t : Tree) : Builder.atEnd t.endTokens = true := by
  unfold endTokens
  split <;> rfl

theorem nextLine_endMark (t : Tree) : NextLine 0 t.endMark := by
  unfold endMark
  split
  · have hstart : StartsToken ['.', '.', '.', '\n'] :=
      startsToken_cons rfl (by decide) (by decide) _
    exact nextLine_spaces_append (n := 0) hstart (Nat.le_refl 0)
  · exact nextLine_spaces_append (n := 0) startsToken_nil (Nat.le_refl 0)

/-- After the lines of a tree the run finds the tokens that end its document. -/
theorem run_endMark {t : Tree} {s : Scanner} {found : List Token}
    (hready : ReadyAt s t.endMark 0 [-1] found) {fuel : Nat}
    (hfuel : s.cursor.rest.length + 2 ≤ fuel) :
    Scanner.run fuel s = (Token.blockEnd :: found).reverse ++ t.endTokens := by
  have hclose : ∀ c : Cursor, (between c true 0 [-1] found).unwind (-1) =
      between c true (-1) [] (.blockEnd :: found) := by
    intro c
    rw [unwind_pop (by omega), unwind_self (by omega)]
  unfold endMark at hready
  unfold endTokens
  split at hready
  · next hkeeps =>
    rw [if_pos hkeeps]
    have hstart : StartsToken ['.', '.', '.', '\n'] :=
      startsToken_cons rfl (by decide) (by decide) _
    obtain ⟨c, hc, hcolumn, hready⟩ := ReadyAt.ready (n := 0) hready hstart (by omega)
    have hrest : (c.skip 3).rest = '\n' :: [] := by simp [Cursor.skip, hc]
    obtain ⟨fuel', hfuel', hrun⟩ := leads_endMark hc hcolumn hready (hclose c) fuel hfuel
    rw [hrun, run_end (ReadyAt.of_line hrest startsToken_nil) (by omega)
      (fun c => unwind_self (by omega)) hfuel']
    simp
  · next hkeeps =>
    rw [if_neg hkeeps, run_end hready (by omega) hclose hfuel]
    simp

/-- **The scan finds in a document the tokens of its tree.** -/
theorem scan_render {t : Tree} (hrecord : t.isRecord = true) (ht : t.Storable) :
    scan t.render = t.tokens ++ t.endTokens := by
  let text := lines 0 t ++ t.endMark
  have htext : t.render.toList = text := String.toList_ofList
  have hallowed : text.all isAllowed = true := by
    rw [List.all_eq_true]
    refine allAllowed_append.mpr ⟨allAllowed_lines t 0 ht, ?_⟩
    unfold endMark
    split
    · exact allAllowed_of_all rfl
    · exact allAllowed_nil
  have hstart : StartsToken text := startsToken_record hrecord ht 0 t.endMark
  have hmark : (text.head? == some byteOrderMark) = false := by
    rw [beq_eq_false_iff_ne]
    intro hhead
    exact (hstart byteOrderMark hhead).2.2.2 rfl
  have hready : ReadyAt (Scanner.start text) (spaces 0 ++ text) (-1) [] [] := by
    refine ReadyAt.of_token ?_ ?_ ?_
    · rw [unindented_spaces_append 0 hstart]
      rfl
    · rw [indentation_spaces_append 0 hstart]
      rfl
    · rw [unindented_spaces_append 0 hstart]
      exact hstart
  obtain ⟨s, found, hleads, hready', htokens⟩ :=
    scansRecord t hrecord ht 0 (-1) (Scanner.start text) [] [] t.endMark (by omega)
      (nextLine_endMark t) hready
  obtain ⟨fuel, hfuel, hrun⟩ := hleads (text.length + 2) (Nat.le_refl _)
  rw [scan_eq, htext, hallowed, if_pos rfl, scanAllowed, hmark]
  simp only [Bool.false_eq_true, if_false]
  rw [hrun, run_endMark hready' hfuel, htokens]
  simp

end Tree

/-- **A document is read back**: its root is the tree that was written, and nothing follows it. -/
theorem Document.read_render {t : Tree} (hrecord : t.isRecord = true) (ht : t.Storable) :
    (Document.read t.render).root = t.node ∧ (Document.read t.render).complete = true := by
  unfold Document.read
  rw [Tree.scan_render hrecord ht]
  exact Builder.document_tokens hrecord ht t.endTokens t.atEnd_endTokens

end ReleaseCandidates.Yaml
