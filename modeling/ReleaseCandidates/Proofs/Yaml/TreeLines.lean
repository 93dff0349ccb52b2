import ReleaseCandidates.Proofs.Yaml.LineScalars

set_option autoImplicit false

/-! # The lines of a tree

The scan finds in the lines of a stored tree exactly the tokens of the tree. This is shown along the
tree: the value of a field leads from its colon to the next line, the fields of a record and the items
of a list lead from their first line to the line after them, and a record right of the block around
it opens a block of its own. What the next line is does not matter, as long as it belongs to no
deeper column. -/

namespace ReleaseCandidates.Yaml

open Scanner

/-! ## First characters -/

theorem startsToken_cons {x : Char} (h : isBlank x = false) (hsign : x ≠ '#')
    (hmark : x ≠ byteOrderMark) (rest : List Char) : StartsToken (x :: rest) := by
  intro y hy
  obtain rfl : x = y := by simpa using hy
  obtain ⟨hgap, hbreak⟩ := isBlank_eq_false.mp h
  exact ⟨hgap, hbreak, hsign, hmark⟩

theorem startsToken_nil : StartsToken [] := by
  intro x hx
  cases hx

theorem startsToken_key {key : String} (h : IsKey key) (rest : List Char) :
    StartsToken (key.toList ++ rest) := by
  obtain ⟨x, tail, hkey⟩ := List.exists_cons_of_ne_nil h.1
  obtain ⟨-, hblank, -, -, -, -, hsign, hmark⟩ :=
    isKeyChar_facts (h.isKeyChar (c := x) (by simp [hkey]))
  rw [hkey]
  exact startsToken_cons hblank hsign hmark _

theorem startsToken_scalarLines (n : Nat) (text : String) (rest : List Char) :
    StartsToken (scalarLines n text ++ rest) := by
  rcases writtenStyle_cases text with ⟨hstyle, -⟩ | ⟨hstyle, hne, hallows⟩ | ⟨hstyle, -⟩ | hstyle
  · simp only [scalarLines, hstyle, List.cons_append]
    exact startsToken_cons rfl (by decide) (by decide) _
  · obtain ⟨x, tail, htext⟩ := List.exists_cons_of_ne_nil hne
    have hplain := plainText_of_allowsPlain hallows
    have hsign := (markFree_of_not_hasMark hplain.not_mark).head
    have hmark : x ≠ byteOrderMark := by
      rintro rfl
      cases hplain.printable byteOrderMark (by simp [htext])
    simp only [scalarLines, hstyle, htext, List.cons_append]
    exact startsToken_cons (htext ▸ hplain).not_isBlank_head (by simpa [htext] using hsign) hmark _
  · simp only [scalarLines, hstyle, List.cons_append]
    exact startsToken_cons rfl (by decide) (by decide) _
  · simp only [scalarLines, hstyle, List.cons_append]
    exact startsToken_cons rfl (by decide) (by decide) _

namespace Tree

theorem nextLine_recordLines {n : Nat} {fields : List (String × Tree)} (h : FieldsStorable fields)
    {next : List Char} (hnext : NextLine n next) : NextLine n (recordLines n fields ++ next) := by
  cases fields with
  | nil => exact hnext
  | cons field fields =>
    obtain ⟨key, t⟩ := field
    have hstart : StartsToken (key.toList ++ (':' :: fieldLines n t ++ (recordLines n fields ++ next))) :=
      startsToken_key h.1 _
    have hlines : recordLines n ((key, t) :: fields) ++ next =
        spaces n ++ (key.toList ++ (':' :: fieldLines n t ++ (recordLines n fields ++ next))) := by
      simp only [recordLines, List.append_assoc, List.cons_append]
    rw [hlines]
    exact nextLine_spaces_append hstart (Nat.le_refl n)

theorem startsToken_record {t : Tree} (hrecord : t.isRecord = true) (ht : t.Storable) (n : Nat)
    (rest : List Char) : StartsToken (lines n t ++ rest) := by
  obtain ⟨key, value, fields, rfl⟩ := exists_fields_of_isRecord hrecord
  simp only [lines, List.append_assoc]
  exact startsToken_key ht.2.1 _

theorem nextLine_itemLines {n : Nat} (ts : List Tree) {next : List Char} (hnext : NextLine n next) :
    NextLine n (itemLines n ts ++ next) := by
  cases ts with
  | nil => exact hnext
  | cons t ts =>
    have hstart : StartsToken ('-' :: (' ' :: lines (n + 2) t ++ (itemLines n ts ++ next))) :=
      startsToken_cons rfl (by decide) (by decide) _
    have hlines : itemLines n (t :: ts) ++ next =
        spaces n ++ ('-' :: (' ' :: lines (n + 2) t ++ (itemLines n ts ++ next))) := by
      simp [itemLines]
    rw [hlines]
    exact nextLine_spaces_append hstart (Nat.le_refl n)

/-- After the colon of a field comes a gap or the end of the line. -/
theorem exists_fieldLines_eq (n : Nat) (t : Tree) (rest : List Char) :
    ∃ x tail, fieldLines n t ++ rest = x :: tail ∧ isBlank x = true := by
  cases t with
  | text s => exact ⟨_, _, rfl, rfl⟩
  | list items =>
    cases items with
    | nil => exact ⟨' ', _, rfl, rfl⟩
    | cons t ts => exact ⟨'\n', _, rfl, rfl⟩
  | record fields =>
    cases fields with
    | nil => exact ⟨' ', _, rfl, rfl⟩
    | cons field fields => exact ⟨'\n', _, rfl, rfl⟩

/-! ## What scanning the lines means -/

/-- After its colon, the value of a field leads to the next line. -/
def ScansField (t : Tree) : Prop :=
  ∀ (n : Nat) (c : Cursor) (outer : List Int) (found : List Token) (next : List Char),
    NextLine n next → n < c.column → c.rest = fieldLines n t ++ next →
    ∃ s, Leads (between c false n outer found) s ∧
      ReadyAt s next n outer (t.tokens.reverse ++ found)

/-- Fields lead from their first line to the next one, in the block that is open. -/
def ScansFields (fields : List (String × Tree)) : Prop :=
  ∀ (n : Nat) (s : Scanner) (outer : List Int) (found : List Token) (next : List Char),
    NextLine n next → ReadyAt s (recordLines n fields ++ next) n outer found →
    ∃ s', Leads s s' ∧ ReadyAt s' next n outer ((fieldTokens fields).reverse ++ found)

/-- Items lead from their first line to the next one, at the column of the record around them. -/
def ScansItems (ts : List Tree) : Prop :=
  ∀ (n : Nat) (s : Scanner) (outer : List Int) (found : List Token) (next : List Char),
    NextLine n next → ReadyAt s (itemLines n ts ++ next) n outer found →
    ∃ s', Leads s s' ∧ ReadyAt s' next n outer ((itemTokens ts).reverse ++ found)

/-- A record right of the block around it leads to the next line and stays open until then. -/
def ScansRecord (t : Tree) : Prop :=
  ∀ (n : Nat) (indent : Int) (s : Scanner) (outer : List Int) (found : List Token)
    (next : List Char), indent < n → NextLine n next →
    ReadyAt s (spaces n ++ (lines n t ++ next)) indent outer found →
    ∃ s' found', Leads s s' ∧ ReadyAt s' next n (indent :: outer) found' ∧
      .blockEnd :: found' = t.tokens.reverse ++ found

/-! ## Fields -/

/-- A value in the line of its key stands after a space. -/
theorem ready_value {n : Nat} {c : Cursor} {outer : List Int} {found : List Token}
    {value : List Char} (hc : c.rest = spaces 1 ++ value) (hvalue : StartsToken value)
    (hcolumn : n < c.column) :
    Ready (between c false n outer found) (between (c.walk (spaces 1)) false n outer found) := by
  have hcolumn' : (c.walk (spaces 1)).column = c.column + 1 :=
    Cursor.column_walk fun _ => not_isBreak_of_mem_spaces
  have hself : (between (c.walk (spaces 1)) false n outer found).unwind (c.walk (spaces 1)).column =
      between (c.walk (spaces 1)) false n outer found := unwind_self (by omega)
  rw [← hself]
  exact Ready.of_spaces hc hvalue

theorem scansField_text (text : String) : ScansField (.text text) := by
  intro n c outer found next hnext hcolumn hc
  have hc' : c.rest = spaces 1 ++ (scalarLines (n + 2) text ++ next) := hc
  have hready : Ready (between c false n outer found) (between (c.walk (spaces 1)) false n outer found) :=
    ready_value hc' (startsToken_scalarLines (n + 2) text next) hcolumn
  have hcolumn' : n < (c.walk (spaces 1)).column := by
    rw [Cursor.column_walk fun _ => not_isBreak_of_mem_spaces]
    omega
  exact leads_scalar (Cursor.rest_walk hc') hcolumn' hnext hready

theorem scansField_nil : ScansField (.list []) := by
  intro n c outer found next hnext hcolumn hc
  have hc' : c.rest = spaces 1 ++ ('[' :: ']' :: '\n' :: next) := hc
  have hready : Ready (between c false n outer found) (between (c.walk (spaces 1)) false n outer found) :=
    ready_value hc' (startsToken_cons rfl (by decide) (by decide) _) hcolumn
  have hlist : (c.walk (spaces 1)).rest = ['[', ']'] ++ '\n' :: next := Cursor.rest_walk hc'
  exact ⟨_, leads_empty_list hlist hready, ReadyAt.of_line (Cursor.rest_walk hlist) hnext.starts⟩

theorem scansField_list {t : Tree} {ts : List Tree} (h : ScansItems (t :: ts)) :
    ScansField (.list (t :: ts)) := by
  intro n c outer found next hnext _ hc
  have hc' : c.rest = '\n' :: (itemLines n (t :: ts) ++ next) := by
    rw [hc]
    simp [fieldLines, itemLines]
  exact h n _ outer found next hnext
    (ReadyAt.of_line hc' (nextLine_itemLines (t :: ts) hnext).starts)

theorem scansField_record {key : String} {t : Tree} {fields : List (String × Tree)}
    (hkey : IsKey key) (h : ScansRecord (.record ((key, t) :: fields))) :
    ScansField (.record ((key, t) :: fields)) := by
  intro n c outer found next hnext _ hc
  have hc' : c.rest =
      '\n' :: (spaces (n + 2) ++ (lines (n + 2) (.record ((key, t) :: fields)) ++ next)) := by
    rw [hc]
    simp [fieldLines, lines]
  have hstart : StartsToken (lines (n + 2) (.record ((key, t) :: fields)) ++ next) := by
    simp only [lines, List.append_assoc]
    exact startsToken_key hkey _
  have hunindented : StartsToken (unindented
      (spaces (n + 2) ++ (lines (n + 2) (.record ((key, t) :: fields)) ++ next))) := by
    rw [unindented_spaces_append _ hstart]
    exact hstart
  obtain ⟨s', found', hleads, hready, htokens⟩ := h (n + 2) n _ outer found next (by omega)
    (hnext.mono (by omega)) (ReadyAt.of_line hc' hunindented)
  refine ⟨s', hleads, ?_⟩
  rw [← htokens]
  -- the next line starts left of the record, which closes it
  refine hready.pop ?_
  have := hnext.indentation_le
  omega

/-! ## Records and lists -/

theorem atKey_of_field {key : String} {t : Tree} {n : Nat} {c : Cursor} {rest : List Char}
    (hkey : IsKey key) (hc : c.rest = key.toList ++ ':' :: (fieldLines n t ++ rest)) :
    AtKey c key (fieldLines n t ++ rest) :=
  ⟨hc, hkey, exists_fieldLines_eq n t rest⟩

theorem scansFields_nil : ScansFields [] := by
  intro n s outer found next _ hready
  exact ⟨s, Leads.refl s, hready⟩

/-- After the colon of a field come its value and the other fields. -/
theorem scansFields_value {t : Tree} {fields : List (String × Tree)}
    (hstorable : FieldsStorable fields) (ht : ScansField t) (hfields : ScansFields fields)
    {n : Nat} {c : Cursor} {outer : List Int} {found : List Token} {next : List Char}
    (hnext : NextLine n next) (hcolumn : n < c.column)
    (hc : c.rest = fieldLines n t ++ (recordLines n fields ++ next)) :
    ∃ s, Leads (between c false n outer found) s ∧
      ReadyAt s next n outer ((fieldTokens fields).reverse ++ (t.tokens.reverse ++ found)) := by
  obtain ⟨s, hvalue, hready⟩ := ht n c outer found (recordLines n fields ++ next)
    (nextLine_recordLines hstorable hnext) hcolumn hc
  obtain ⟨s', hothers, hready'⟩ := hfields n s outer _ next hnext hready
  exact ⟨s', hvalue.trans hothers, hready'⟩

theorem scansFields_cons {key : String} {t : Tree} {fields : List (String × Tree)} (hkey : IsKey key)
    (hstorable : FieldsStorable fields) (ht : ScansField t) (hfields : ScansFields fields) :
    ScansFields ((key, t) :: fields) := by
  intro n s outer found next hnext hready
  let rest := fieldLines n t ++ (recordLines n fields ++ next)
  have hlines : recordLines n ((key, t) :: fields) ++ next =
      spaces n ++ (key.toList ++ ':' :: rest) := by
    simp [recordLines, rest]
  rw [hlines] at hready
  obtain ⟨c, hc, hcolumn, hready⟩ := hready.ready (startsToken_key hkey _) (Int.le_refl _)
  have hat : AtKey c key rest := atKey_of_field hkey hc
  obtain ⟨s', hleads, hready'⟩ := scansFields_value hstorable ht hfields hnext
    (hcolumn ▸ column_lt_walk_colon hat) (rest_walk_colon hat)
  refine ⟨s', (leads_key hat hready (by omega)).trans hleads, ?_⟩
  simpa [fieldTokens] using hready'

/-- A record opens a block at its first key. -/
theorem scansRecord_cons {key : String} {t : Tree} {fields : List (String × Tree)} (hkey : IsKey key)
    (hstorable : FieldsStorable fields) (ht : ScansField t) (hfields : ScansFields fields) :
    ScansRecord (.record ((key, t) :: fields)) := by
  intro n indent s outer found next hindent hnext hready
  let rest := fieldLines n t ++ (recordLines n fields ++ next)
  have hlines : spaces n ++ (lines n (.record ((key, t) :: fields)) ++ next) =
      spaces n ++ (key.toList ++ ':' :: rest) := by
    simp [lines, rest]
  rw [hlines] at hready
  obtain ⟨c, hc, hcolumn, hready⟩ := hready.ready (startsToken_key hkey _) (by omega)
  have hat : AtKey c key rest := atKey_of_field hkey hc
  have hopen := leads_key_open hat hready (by omega)
  rw [hcolumn] at hopen
  obtain ⟨s', hleads, hready'⟩ := scansFields_value hstorable ht hfields hnext
    (hcolumn ▸ column_lt_walk_colon hat) (rest_walk_colon hat)
  refine ⟨s', _, hopen.trans hleads, hready', ?_⟩
  simp [tokens, fieldTokens]

theorem scansItems_nil : ScansItems [] := by
  intro n s outer found next _ hready
  exact ⟨s, Leads.refl s, hready⟩

theorem scansItems_cons {t : Tree} {ts : List Tree} (hstart : ∀ n rest, StartsToken (lines n t ++ rest))
    (ht : ScansRecord t) (hts : ScansItems ts) : ScansItems (t :: ts) := by
  intro n s outer found next hnext hready
  let rest := lines (n + 2) t ++ (itemLines n ts ++ next)
  have hlines : itemLines n (t :: ts) ++ next = spaces n ++ ('-' :: ' ' :: rest) := by
    simp [itemLines, rest]
  have hdash : StartsToken ('-' :: ' ' :: rest) := startsToken_cons rfl (by decide) (by decide) _
  rw [hlines] at hready
  obtain ⟨c, hc, hcolumn, hready⟩ := hready.ready hdash (Int.le_refl _)
  have hone : c.rest = ['-'] ++ (spaces 1 ++ rest) := hc
  have hcolumn' : (c.walk ['-']).column + 1 = n + 2 := by
    rw [Cursor.walk_singleton rfl]
    show c.column + 1 + 1 = n + 2
    omega
  have hitem := leads_item hc hready (by omega)
  obtain ⟨s', found', hleads, hready', htokens⟩ := ht (n + 2) n _ outer (.item :: found)
    (itemLines n ts ++ next) (by omega) ((nextLine_itemLines ts hnext).mono (by omega))
    (ReadyAt.of_space (Cursor.rest_walk hone) hcolumn' (hstart (n + 2) _))
  -- the record of the item ends at the next dash, or left of it
  have hclosed : ReadyAt s' (itemLines n ts ++ next) n outer (.blockEnd :: found') := by
    refine hready'.pop ?_
    have := (nextLine_itemLines ts hnext).indentation_le
    omega
  obtain ⟨s'', hleads', hready''⟩ := hts n s' outer _ next hnext hclosed
  refine ⟨s'', (hitem.trans hleads).trans hleads', ?_⟩
  rw [htokens] at hready''
  simpa [itemTokens] using hready''

/-! ## Trees -/

mutual

theorem scansField : ∀ t : Tree, t.Storable → ScansField t
  | .text s, _ => scansField_text s
  | .list [], _ => scansField_nil
  | .list (t :: ts), h => scansField_list (scansItems (t :: ts) h)
  | .record [], h => absurd rfl h.1
  | .record ((_, t) :: fields), h => by
    obtain ⟨-, hkey, ht, hfields⟩ := h
    exact scansField_record hkey
      (scansRecord_cons hkey hfields (scansField t ht) (scansFields fields hfields))

theorem scansRecord : ∀ t : Tree, t.isRecord = true → t.Storable → ScansRecord t
  | .record ((_, t) :: fields), _, h => by
    obtain ⟨-, hkey, ht, hfields⟩ := h
    exact scansRecord_cons hkey hfields (scansField t ht) (scansFields fields hfields)

theorem scansItems : ∀ ts : List Tree, ItemsStorable ts → ScansItems ts
  | [], _ => scansItems_nil
  | t :: ts, h => by
    obtain ⟨hrecord, ht, hts⟩ := h
    exact scansItems_cons (startsToken_record hrecord ht) (scansRecord t hrecord ht)
      (scansItems ts hts)

theorem scansFields : ∀ fields : List (String × Tree), FieldsStorable fields → ScansFields fields
  | [], _ => scansFields_nil
  | (_, t) :: fields, h => by
    obtain ⟨hkey, ht, hfields⟩ := h
    exact scansFields_cons hkey hfields (scansField t ht) (scansFields fields hfields)

end

end Tree

end ReleaseCandidates.Yaml
