import Mathlib.Data.List.TakeWhile
import Mathlib.Tactic.SplitIfs
import ReleaseCandidates.Proofs.Http.Percent
import ReleaseCandidates.Proofs.Text.Cutting

set_option autoImplicit false

/-! # Addresses below another one

A client asks at addresses that start with a fixed text, a slash, and pieces of its own. How such an
address is read follows from how the fixed text and the slash are read: host and port are the same,
and the pieces are resolved from the place that the fixed text leads to
(`Url.exists_parse?_below`). That is so if the fixed text is all path; if it has a query or a
fragment, what follows becomes a part of that (`Url.exists_parse?_behind`). -/

namespace ReleaseCandidates.Http.Url

/-! ## Cleaning -/

theorem isBreak_eq_false {c : Char} (h : isOuterBlank c = false) : isBreak c = false := by
  simp only [isOuterBlank, decide_eq_false_iff_not] at h
  simp only [isBreak, Bool.or_eq_false_iff, beq_eq_false_iff_ne]
  refine ⟨⟨?_, ?_⟩, ?_⟩ <;> rintro rfl <;> exact h (by decide)

/-- Behind a slash, nothing is dropped from a text without blanks. -/
theorem clean_slash (cs : List Char) {tail : List Char} (h : ∀ c ∈ tail, isOuterBlank c = false) :
    clean (cs ++ '/' :: tail) =
      (cs.dropWhile isOuterBlank).filter (fun c => !isBreak c) ++ '/' :: tail := by
  have hrest : ∀ c ∈ '/' :: tail, isOuterBlank c = false :=
    List.forall_mem_cons.2 ⟨by decide, h⟩
  have hstart : (cs ++ '/' :: tail).dropWhile isOuterBlank =
      cs.dropWhile isOuterBlank ++ '/' :: tail := by
    rw [List.dropWhile_append]
    split
    · rename_i hempty
      rw [List.isEmpty_iff.1 hempty]
      rfl
    · rfl
  have hstop : ((cs.dropWhile isOuterBlank ++ '/' :: tail).reverse).dropWhile isOuterBlank =
      (cs.dropWhile isOuterBlank ++ '/' :: tail).reverse := by
    -- the last character is the slash or one of the tail
    rw [List.dropWhile_eq_self_iff]
    intro hpos
    rw [List.getElem_zero, List.head_reverse, List.getLast_append_of_ne_nil (by simp) (by simp),
      hrest _ (List.getLast_mem _)]
    exact Bool.false_ne_true
  rw [clean, hstart, hstop, List.reverse_reverse, List.filter_append]
  congr 1
  rw [List.filter_eq_self]
  intro c hc
  rw [isBreak_eq_false (hrest c hc), Bool.not_false]

/-! ## Where an address leads -/

/-- The server that an address leads to. -/
structure Place where
  secure : Bool
  host : String
  port : Option Nat
  deriving DecidableEq, Repr

/-- The server of an address. -/
def place (u : Url) : Place :=
  ⟨u.secure, u.host, u.port⟩

/-- The characters that end the part of an address that names the server. -/
def endsPlace (c : Char) : Bool :=
  isSlash c || c == '?' || c == '#'

/-- The server that a clean text leads to, and what follows it. -/
def place? (cs : List Char) : Option (Place × List Char) :=
  match dropScheme? cs with
  | none => none
  | some (secure, rest) =>
    let rest := rest.dropWhile isSlash
    match authorityOf secure (rest.takeWhile fun c => !endsPlace c) with
    | none => none
    | some (host, port) => some (⟨secure, host, port⟩, rest.dropWhile fun c => !endsPlace c)

/-- The address at a server that goes on with a text. -/
def Place.address (p : Place) (rest : List Char) : Url where
  secure := p.secure
  host := p.host
  port := p.port
  segments := segmentsOf ((rest.takeWhile (· ≠ '#')).takeWhile (· ≠ '?'))
  query := (Text.cutFirst '?' (rest.takeWhile (· ≠ '#'))).map fun (_, q) =>
    encodeClass isEncodedInQuery q
  fragment := (Text.cutFirst '#' rest).map fun (_, f) => encodeClass isEncodedInFragment f

/-- An address is read in two parts: the server, and what follows it. -/
theorem parse?_eq (address : String) :
    parse? address = (place? (clean address.toList)).map fun found => found.1.address found.2 := by
  simp only [parse?, place?, endsPlace]
  rcases dropScheme? (clean address.toList) with _ | ⟨secure, rest⟩
  · rfl
  · simp only
    cases authorityOf secure ((rest.dropWhile isSlash).takeWhile fun c =>
      !(isSlash c || c == '?' || c == '#')) <;> rfl

/-! ## Longer texts -/

theorem dropScheme?_eq_some {cs rest : List Char} {secure : Bool}
    (h : dropScheme? cs = some (secure, rest)) :
    (∃ scheme, cs = scheme ++ ':' :: rest) ∧
      ∀ tail, dropScheme? (cs ++ tail) = some (secure, rest ++ tail) := by
  rw [dropScheme?] at h
  rcases hcut : Text.cutFirst ':' cs with _ | ⟨scheme, after⟩
  · rw [hcut] at h
    cases h
  · obtain ⟨hscheme, rfl⟩ := Text.cutFirst_eq_some.1 hcut
    simp only [hcut] at h
    have hafter : after = rest := by
      split at h
      · exact (Prod.mk.inj (Option.some.inj h)).2
      · split at h
        · exact (Prod.mk.inj (Option.some.inj h)).2
        · cases h
    subst hafter
    refine ⟨⟨scheme, rfl⟩, fun tail => ?_⟩
    rw [List.append_assoc, List.cons_append, dropScheme?, Text.cutFirst_append hscheme]
    simp only
    split at h
    · rename_i hname
      cases h
      rw [if_pos hname]
    · rename_i hname
      split at h
      · rename_i hname'
        cases h
        rw [if_neg hname, if_pos hname']
      · cases h

theorem authorityOf_nil (secure : Bool) : authorityOf secure [] = none := by
  cases secure <;> rfl

variable {cs rest : List Char} {p : Place}

/-- Where a text leads is said before what follows the server. -/
theorem place?_append (h : place? cs = some (p, rest)) (hrest : rest ≠ []) (tail : List Char) :
    place? (cs ++ tail) = some (p, rest ++ tail) := by
  rw [place?] at h
  rcases hscheme : dropScheme? cs with _ | ⟨secure, after⟩
  · rw [hscheme] at h
    cases h
  · simp only [hscheme] at h
    rw [place?, (dropScheme?_eq_some hscheme).2 tail]
    simp only
    rcases hauthority : authorityOf secure ((after.dropWhile isSlash).takeWhile fun c =>
      !endsPlace c) with _ | ⟨host, port⟩
    · rw [hauthority] at h
      cases h
    · rw [hauthority] at h
      cases h
      have hafter : after.dropWhile isSlash ≠ [] := by
        intro hnil
        rw [hnil] at hrest
        exact hrest rfl
      rw [(Text.whiles_append hafter tail).2, (Text.whiles_append hrest tail).1, hauthority,
        (Text.whiles_append hrest tail).2]

/-- What follows the server in a text that ends in a slash ends in this slash. -/
theorem exists_rest_eq (h : place? (cs ++ ['/']) = some (p, rest)) : ∃ r, rest = r ++ ['/'] := by
  rw [place?] at h
  rcases hscheme : dropScheme? (cs ++ ['/']) with _ | ⟨secure, after⟩
  · rw [hscheme] at h
    cases h
  · simp only [hscheme] at h
    obtain ⟨scheme, hcs⟩ := (dropScheme?_eq_some hscheme).1
    have hsuffix : after.dropWhile isSlash <:+ cs ++ ['/'] :=
      (List.dropWhile_suffix _).trans (hcs ▸ (List.suffix_cons ':' after).trans
        (List.suffix_append scheme _))
    rcases hauthority : authorityOf secure ((after.dropWhile isSlash).takeWhile fun c =>
      !endsPlace c) with _ | ⟨host, port⟩
    · rw [hauthority] at h
      cases h
    · rw [hauthority] at h
      cases h
      rcases List.suffix_concat_iff.1 hsuffix with hnil | ⟨r, hr, -⟩
      · -- without a server there is nothing that could follow it
        rw [hnil, List.takeWhile_nil, authorityOf_nil] at hauthority
        cases hauthority
      · have hrest : (after.dropWhile isSlash).dropWhile (fun c => !endsPlace c) <:+ cs ++ ['/'] :=
          (List.dropWhile_suffix _).trans hsuffix
        rcases List.suffix_concat_iff.1 hrest with hnil | ⟨r', hr', -⟩
        · have hends := List.dropWhile_eq_nil_iff.1 hnil '/' (by simp [hr])
          exact absurd hends (by decide)
        · exact ⟨r', hr'⟩

/-! ## What follows the server -/

/-- An address is all path if it has neither a query nor a fragment. -/
def isAllPath (u : Url) : Bool :=
  u.query.isNone && u.fragment.isNone

theorem takeWhile_ne_of_not_mem {c : Char} {cs : List Char} (h : c ∉ cs) :
    cs.takeWhile (· ≠ c) = cs :=
  List.takeWhile_eq_self_iff.2 (Text.ne_of_not_mem h)

theorem dropWhile_ne_nil_of_mem {c : Char} {cs : List Char} (h : c ∈ cs) :
    cs.dropWhile (· ≠ c) ≠ [] := by
  intro hnil
  exact absurd (List.dropWhile_eq_nil_iff.1 hnil c h) (by simp)

theorem isAllPath_address : (p.address rest).isAllPath = true ↔ '?' ∉ rest ∧ '#' ∉ rest := by
  simp only [isAllPath, Place.address, Bool.and_eq_true, Option.isNone_iff_eq_none,
    Option.map_eq_none_iff, Text.cutFirst_eq_none]
  constructor
  · rintro ⟨hquery, hfragment⟩
    rw [takeWhile_ne_of_not_mem hfragment] at hquery
    exact ⟨hquery, hfragment⟩
  · rintro ⟨hquery, hfragment⟩
    rw [takeWhile_ne_of_not_mem hfragment]
    exact ⟨hquery, hfragment⟩

theorem address_path (hquery : '?' ∉ rest) (hfragment : '#' ∉ rest) :
    p.address rest = ⟨p.secure, p.host, p.port, segmentsOf rest, none, none⟩ := by
  rw [Place.address, takeWhile_ne_of_not_mem hfragment, takeWhile_ne_of_not_mem hquery,
    Text.cutFirst_eq_none.2 hquery, Text.cutFirst_eq_none.2 hfragment]
  rfl

theorem address_query {q : List Char} (hquery : '?' ∉ rest) (hfragment : '#' ∉ rest)
    (hq : '#' ∉ q) :
    p.address (rest ++ '?' :: q) =
      ⟨p.secure, p.host, p.port, segmentsOf rest, some (encodeClass isEncodedInQuery q), none⟩ := by
  have hboth : '#' ∉ rest ++ '?' :: q := by
    simp [hfragment, hq]
  rw [Place.address, takeWhile_ne_of_not_mem hboth, Text.cutFirst_append hquery,
    Text.cutFirst_eq_none.2 hboth,
    List.takeWhile_append_of_pos (Text.ne_of_not_mem hquery), List.takeWhile_cons_of_neg (by simp),
    List.append_nil]
  rfl

/-- Behind a query or a fragment no path goes on. -/
theorem address_behind (h : (p.address rest).isAllPath = false) (tail : List Char) :
    (p.address (rest ++ tail)).segments = (p.address rest).segments ∧
      (p.address (rest ++ tail)).query.isSome = (p.address rest).query.isSome := by
  by_cases hfragment : '#' ∈ rest
  · have hbefore := (Text.whiles_append (dropWhile_ne_nil_of_mem hfragment) tail).1
    simp only [Place.address, hbefore, Option.isSome_map, and_self]
  · have hquery : '?' ∈ rest := by
      by_contra hquery
      rw [isAllPath_address.2 ⟨hquery, hfragment⟩] at h
      cases h
    have hbefore : (rest ++ tail).takeWhile (· ≠ '#') = rest ++ tail.takeWhile (· ≠ '#') :=
      List.takeWhile_append_of_pos (Text.ne_of_not_mem hfragment)
    have hpath := (Text.whiles_append (dropWhile_ne_nil_of_mem hquery)
      (tail.takeWhile (· ≠ '#'))).1
    obtain ⟨path, q, rfl, hpathEnd⟩ := List.eq_append_cons_of_mem hquery
    simp only [Place.address, hbefore, hpath, takeWhile_ne_of_not_mem hfragment, Option.isSome_map,
      true_and]
    rw [List.append_assoc, List.cons_append, Text.cutFirst_append hpathEnd,
      Text.cutFirst_append hpathEnd]
    rfl

/-! ## Segments -/

/-- Goes down through segments that others follow, from the place that those before them lead to. -/
def descend : List (List Char) → List (List Char) → List (List Char)
  | above, [] => above
  | above, s :: rest =>
    if isDoubleDot s then descend above.dropLast rest
    else if isSingleDot s then descend above rest
    else descend (above ++ [s]) rest

theorem resolveFrom_cons (above : List (List Char)) (s : List Char) {rest : List (List Char)}
    (h : rest ≠ []) :
    resolveFrom above (s :: rest) =
      if isDoubleDot s then resolveFrom above.dropLast rest
      else if isSingleDot s then resolveFrom above rest
      else resolveFrom (above ++ [s]) rest := by
  cases rest with
  | nil => exact absurd rfl h
  | cons t rest => rfl

theorem resolveFrom_append (above first : List (List Char)) {rest : List (List Char)}
    (h : rest ≠ []) :
    resolveFrom above (first ++ rest) = resolveFrom (descend above first) rest := by
  induction first generalizing above with
  | nil => rfl
  | cons s first ih =>
    rw [List.cons_append, resolveFrom_cons above s (by simp [h]), ih, ih, ih, descend]
    split
    · rfl
    · split <;> rfl

theorem descend_of_no_dots (above : List (List Char)) {segments : List (List Char)}
    (h : ∀ s ∈ segments, isDots s = false) :
    descend above segments = above ++ segments := by
  induction segments generalizing above with
  | nil => exact (List.append_nil above).symm
  | cons s segments ih =>
    obtain ⟨hs, hsegments⟩ := List.forall_mem_cons.1 h
    obtain ⟨hsingle, hdouble⟩ := isDots_eq_false.1 hs
    rw [descend, hdouble, hsingle, if_neg (by simp), if_neg (by simp), ih _ hsegments,
      List.append_assoc, List.singleton_append]

/-- Segments without dots are the path. -/
theorem resolveFrom_of_no_dots (above : List (List Char)) {segments : List (List Char)}
    (h : ∀ s ∈ segments, isDots s = false) :
    resolveFrom above segments = above ++ segments := by
  induction segments generalizing above with
  | nil => exact (List.append_nil above).symm
  | cons s segments ih =>
    obtain ⟨hs, hsegments⟩ := List.forall_mem_cons.1 h
    obtain ⟨hsingle, hdouble⟩ := isDots_eq_false.1 hs
    cases segments with
    | nil => simp [resolveFrom, hsingle, hdouble]
    | cons t segments =>
      rw [resolveFrom_cons above s (by simp), hdouble, hsingle, if_neg (by simp), if_neg (by simp),
        ih _ hsegments, List.append_assoc, List.singleton_append]

theorem pathPieces_append (path rest : List Char) :
    pathPieces (path ++ '/' :: rest) = pathPieces path ++ pathPieces rest := by
  rw [pathPieces, List.map_append, List.map_cons, if_pos (by decide), Text.split_append]
  rfl

theorem pathPieces_eq_split {cs : List Char} (h : '\\' ∉ cs) :
    pathPieces cs = Text.split '/' cs := by
  have hsame : cs.map (fun c => if isSlash c then '/' else c) = cs.map id := by
    refine List.map_congr_left fun c hc => ?_
    by_cases hslash : c = '/'
    · rw [hslash]
      rfl
    · have hback : c ≠ '\\' := fun hback => h (hback ▸ hc)
      simp [isSlash, hslash, hback]
  rw [pathPieces, hsame, List.map_id]

theorem pathPieces_join {ps : List (List Char)} (hps : ps ≠ [])
    (h : ∀ piece ∈ ps, ∀ c ∈ piece, isSlash c = false) : pathPieces (Text.join '/' ps) = ps := by
  have hnot : ∀ x, isSlash x = true → ∀ piece ∈ ps, x ∉ piece := by
    intro x hx piece hpiece hmem
    rw [h piece hpiece x hmem] at hx
    cases hx
  rw [pathPieces_eq_split, Text.split_join hps (hnot '/' (by decide))]
  intro hback
  rcases Text.mem_join hback with heq | ⟨piece, hpiece, hmem⟩
  · exact absurd heq (by decide)
  · exact hnot '\\' (by decide) piece hpiece hmem

/-- Pieces behind a slash are resolved from one place, whatever they are. -/
theorem exists_segmentsOf_eq (r : List Char) :
    ∃ above, ∀ ps : List (List Char), ps ≠ [] → (∀ piece ∈ ps, ∀ c ∈ piece, isSlash c = false) →
      segmentsOf (r ++ '/' :: Text.join '/' ps) =
        (resolveFrom above ps).map (encodeClass isEncodedInPath) := by
  cases r with
  | nil =>
    refine ⟨[], fun ps hps hslash => ?_⟩
    rw [segmentsOf, List.nil_append, List.drop_one, List.tail_cons, pathPieces_join hps hslash]
  | cons c r =>
    refine ⟨descend [] (pathPieces r), fun ps hps hslash => ?_⟩
    rw [segmentsOf, List.cons_append, List.drop_one, List.tail_cons, pathPieces_append,
      pathPieces_join hps hslash, resolveFrom_append _ _ hps]

/-! ## Below an address -/

/-- A query, if there is one, behind its mark. -/
def marked : Option (List Char) → List Char
  | some q => '?' :: q
  | none => []

/-- What is written behind the slash: pieces of a path, and a query if there is one. -/
def continuation (ps : List (List Char)) (query : Option (List Char)) : List Char :=
  Text.join '/' ps ++ marked query

/-- What every inert character is not. -/
theorem isInert_iff {c : Char} :
    isInert c = true ↔ (isOuterBlank c = false ∧ isBreak c = false ∧ isSlash c = false) ∧
      (c ≠ ':' ∧ c ≠ '?' ∧ c ≠ '#') ∧ isEncodedInPath c = false ∧ isEncodedInQuery c = false := by
  simp only [isInert, Bool.and_eq_true, Bool.not_eq_true', bne_iff_ne, ne_eq, and_assoc]

theorem slash_not_mem_of_inert {ps : List (List Char)}
    (h : ∀ piece ∈ ps, ∀ c ∈ piece, isInert c = true) : ∀ piece ∈ ps, '/' ∉ piece := by
  intro piece hpiece hslash
  exact absurd (h piece hpiece '/' hslash) (by decide)

/-- What is written behind the slash tells the pieces. -/
theorem continuation_injective {ps qs : List (List Char)} {query : Option (List Char)}
    (hp : ps ≠ []) (hq : qs ≠ []) (hps : ∀ piece ∈ ps, ∀ c ∈ piece, isInert c = true)
    (hqs : ∀ piece ∈ qs, ∀ c ∈ piece, isInert c = true)
    (h : continuation ps query = continuation qs query) : ps = qs :=
  Text.join_injective hp hq (slash_not_mem_of_inert hps) (slash_not_mem_of_inert hqs)
    (List.append_cancel_right h)

theorem encodeClass_inert {encoded : Char → Bool} {cs : List Char}
    (h : ∀ c ∈ cs, encoded c = false) : encodeClass encoded cs = String.ofList cs := by
  rw [encodeClass]
  congr 1
  induction cs with
  | nil => rfl
  | cons c cs ih =>
    obtain ⟨hc, hcs⟩ := List.forall_mem_cons.1 h
    rw [List.flatMap_cons, hc, ih hcs]
    rfl

section Below

variable {base : String} {root : Url}

/-- An address that ends in a slash, in its two parts: what goes on behind the slash leads to the
same server. -/
theorem exists_address_eq (h : parse? (base ++ "/") = some root) :
    ∃ p r, root = Place.address p (r ++ ['/']) ∧
      ∀ tail : List Char, (∀ c ∈ tail, isOuterBlank c = false) →
        parse? (base ++ "/" ++ String.ofList tail) = some (p.address (r ++ '/' :: tail)) := by
  rw [parse?_eq, String.toList_append] at h
  obtain ⟨⟨p, rest⟩, hplace, rfl⟩ := Option.map_eq_some_iff.1 h
  rw [show "/".toList = ['/'] from rfl, clean_slash base.toList (by simp)] at hplace
  obtain ⟨r, rfl⟩ := exists_rest_eq hplace
  refine ⟨p, r, rfl, fun tail htail => ?_⟩
  have hclean : clean (base ++ "/" ++ String.ofList tail).toList =
      (base.toList.dropWhile isOuterBlank).filter (fun c => !isBreak c) ++ ['/'] ++ tail := by
    simp only [String.toList_append, String.toList_ofList, List.append_assoc]
    exact clean_slash base.toList htail
  rw [parse?_eq, hclean, place?_append hplace (by simp) tail, List.append_assoc]
  rfl

theorem not_isOuterBlank_of_mem_continuation {ps : List (List Char)} {query : Option (List Char)}
    (hps : ∀ piece ∈ ps, ∀ c ∈ piece, isInert c = true)
    (hquery : ∀ q ∈ query, ∀ c ∈ q, isInert c = true) :
    ∀ c ∈ continuation ps query, isOuterBlank c = false := by
  intro c hc
  rcases List.mem_append.1 hc with hc | hc
  · rcases Text.mem_join hc with rfl | ⟨piece, hpiece, hc⟩
    · decide
    · exact (isInert_iff.1 (hps piece hpiece c hc)).1.1
  · cases query with
    | none => cases hc
    | some q =>
      rcases List.mem_cons.1 hc with rfl | hc
      · decide
      · exact (isInert_iff.1 (hquery q rfl c hc)).1.1

/-- Below an address that is all path, pieces are resolved from the place it leads to, whatever the
pieces are. -/
theorem exists_parse?_below (h : parse? (base ++ "/") = some root) (hpath : root.isAllPath = true) :
    ∃ above, root.segments = (above ++ [[]]).map (encodeClass isEncodedInPath) ∧
      ∀ (ps : List (List Char)) (query : Option (List Char)), ps ≠ [] →
        (∀ piece ∈ ps, ∀ c ∈ piece, isInert c = true) →
        (∀ q ∈ query, ∀ c ∈ q, isInert c = true) →
        parse? (base ++ "/" ++ String.ofList (continuation ps query)) =
          some { root with
            segments := (resolveFrom above ps).map (encodeClass isEncodedInPath)
            query := query.map String.ofList } := by
  obtain ⟨p, r, rfl, hparse⟩ := exists_address_eq h
  obtain ⟨hquestion, hhash⟩ := isAllPath_address.1 hpath
  obtain ⟨above, habove⟩ := exists_segmentsOf_eq r
  refine ⟨above, ?_, fun ps query hps hinert hquery => ?_⟩
  · rw [address_path hquestion hhash]
    exact (habove [[]] (by simp) (by simp)).trans
      (congrArg _ (resolveFrom_of_no_dots above (by simp; decide)))
  · rw [hparse _ (not_isOuterBlank_of_mem_continuation hinert hquery), address_path hquestion hhash]
    have hslash : ∀ piece ∈ ps, ∀ c ∈ piece, isSlash c = false :=
      fun piece hpiece c hc => (isInert_iff.1 (hinert piece hpiece c hc)).1.2.2
    have hmark : ∀ x ∉ r ++ ['/'], isInert x = false → x ∉ r ++ '/' :: Text.join '/' ps := by
      intro x hr hx hmem
      rw [List.append_cons, List.mem_append] at hmem
      rcases hmem with hmem | hmem
      · exact hr hmem
      · rcases Text.mem_join hmem with rfl | ⟨piece, hpiece, hc⟩
        · exact hr (by simp)
        · exact absurd (hinert piece hpiece x hc) (by simp [hx])
    have hquestion' := hmark '?' hquestion (by decide)
    have hhash' := hmark '#' hhash (by decide)
    cases query with
    | none =>
      rw [continuation, marked, List.append_nil, address_path hquestion' hhash',
        habove ps hps hslash]
      rfl
    | some q =>
      have hq : '#' ∉ q := fun hmem => (isInert_iff.1 (hquery q rfl '#' hmem)).2.1.2.2 rfl
      have hplain : encodeClass isEncodedInQuery q = String.ofList q :=
        encodeClass_inert fun c hc => (isInert_iff.1 (hquery q rfl c hc)).2.2.2
      rw [continuation, marked, ← List.cons_append, ← List.append_assoc,
        address_query hquestion' hhash' hq, habove ps hps hslash, hplain]
      rfl

/-- Behind an address with a query or a fragment, nothing is added to its path. -/
theorem exists_parse?_behind (h : parse? (base ++ "/") = some root)
    (hpath : root.isAllPath = false) {ps : List (List Char)} {query : Option (List Char)}
    (hps : ∀ piece ∈ ps, ∀ c ∈ piece, isInert c = true)
    (hquery : ∀ q ∈ query, ∀ c ∈ q, isInert c = true) :
    ∃ url, parse? (base ++ "/" ++ String.ofList (continuation ps query)) = some url ∧
      url.place = root.place ∧ url.segments = root.segments ∧
      url.query.isSome = root.query.isSome := by
  obtain ⟨p, r, rfl, hparse⟩ := exists_address_eq h
  have hsame := address_behind hpath (continuation ps query)
  rw [List.append_assoc] at hsame
  exact ⟨_, hparse _ (not_isOuterBlank_of_mem_continuation hps hquery), rfl, hsame⟩

end Below

/-! ## As text -/

theorem toList_intercalate_slash (segments : List String) :
    (String.intercalate "/" segments).toList = Text.join '/' (segments.map String.toList) := by
  rw [String.toList_intercalate]
  induction segments with
  | nil => rfl
  | cons s segments ih =>
    cases segments with
    | nil => simp [Text.join]
    | cons t segments =>
      rw [List.map_cons, List.map_cons, List.intercalate_cons_cons, Text.join_cons '/' _ (by simp),
        ← List.map_cons, ih, List.append_assoc]
      rfl

theorem toList_path (u : Url) :
    u.path.toList = '/' :: Text.join '/' (u.segments.map String.toList) := by
  rw [path, String.toList_append, toList_intercalate_slash]
  rfl

theorem toList_target (u : Url) :
    u.target.toList = u.path.toList ++ marked (u.query.map String.toList) := by
  rw [target, String.toList_append]
  cases u.query with
  | none => rfl
  | some q => simp [marked]

theorem map_encodeClass_inert {ps : List (List Char)}
    (h : ∀ piece ∈ ps, ∀ c ∈ piece, isInert c = true) :
    ps.map (encodeClass isEncodedInPath) = ps.map String.ofList :=
  List.map_congr_left fun piece hpiece =>
    encodeClass_inert fun c hc => (isInert_iff.1 (h piece hpiece c hc)).2.2.1

theorem map_toList_encodeClass_inert {ps : List (List Char)}
    (h : ∀ piece ∈ ps, ∀ c ∈ piece, isInert c = true) :
    (ps.map (encodeClass isEncodedInPath)).map String.toList = ps := by
  rw [map_encodeClass_inert h, List.map_map]
  exact (List.map_congr_left fun piece _ => String.toList_ofList).trans (List.map_id ps)

/-- The path of an address below another one continues the text of its path. -/
theorem path_below {root : Url} {above ps : List (List Char)}
    (hroot : root.segments = (above ++ [[]]).map (encodeClass isEncodedInPath)) (hps : ps ≠ [])
    (hinert : ∀ piece ∈ ps, ∀ c ∈ piece, isInert c = true) (query : Option String) :
    path { root with
        segments := (above ++ ps).map (encodeClass isEncodedInPath)
        query := query } =
      root.path ++ String.ofList (Text.join '/' ps) := by
  have hempty : ([[]].map (encodeClass isEncodedInPath)).map String.toList = [[]] := by
    decide
  have hjoin := Text.join_append_empty '/'
    ((above.map (encodeClass isEncodedInPath)).map String.toList) hps
  apply String.toList_inj.1
  rw [String.toList_append, toList_path, toList_path, hroot, List.map_append, List.map_append,
    List.map_append, List.map_append, map_toList_encodeClass_inert hinert, hempty, ← hjoin,
    String.toList_ofList]
  rfl

/-- The path and the query of an address below another one continue the text of its path. -/
theorem target_below {root : Url} {above ps : List (List Char)}
    (hroot : root.segments = (above ++ [[]]).map (encodeClass isEncodedInPath)) (hps : ps ≠ [])
    (hinert : ∀ piece ∈ ps, ∀ c ∈ piece, isInert c = true) (query : Option (List Char)) :
    target { root with
        segments := (above ++ ps).map (encodeClass isEncodedInPath)
        query := query.map String.ofList } =
      root.path ++ String.ofList (continuation ps query) := by
  have hquery : (query.map String.ofList).map String.toList = query := by
    cases query <;> simp
  apply String.toList_inj.1
  rw [toList_target, path_below hroot hps hinert, hquery, String.toList_append,
    String.toList_append, String.toList_ofList, String.toList_ofList, continuation,
    List.append_assoc]

/-! ## What resolving keeps -/

/-- Of the place that the pieces are resolved from, a part is kept; what follows are pieces that are
not resolved away, and perhaps an empty one. -/
theorem exists_resolveFrom_eq (above qs : List (List Char)) :
    ∃ n kept, resolveFrom above qs = above.take n ++ kept ∧
      ∀ s ∈ kept, s = [] ∨ s ∈ qs ∧ isDots s = false := by
  -- the place changes with every piece: what is kept of the new place may reach into the old one
  induction qs generalizing above with
  | nil => exact ⟨above.length, [], by rw [List.take_length, List.append_nil]; rfl, by simp⟩
  | cons s rest ih =>
    have hother : ∀ {kept : List (List Char)},
        (∀ t ∈ kept, t = [] ∨ t ∈ rest ∧ isDots t = false) →
          ∀ t ∈ kept, t = [] ∨ t ∈ s :: rest ∧ isDots t = false :=
      fun h t ht => (h t ht).imp_right fun h => ⟨List.mem_cons_of_mem s h.1, h.2⟩
    rcases rest with _ | ⟨t, rest⟩
    · rw [resolveFrom]
      split_ifs with hdouble hsingle
      · exact ⟨above.length - 1, [[]], by rw [List.dropLast_eq_take], by simp⟩
      · exact ⟨above.length, [[]], by rw [List.take_length], by simp⟩
      · exact ⟨above.length, [s], by rw [List.take_length], by
          simp [isDots_eq_false, hdouble, hsingle]⟩
    · rw [resolveFrom_cons above s (List.cons_ne_nil t rest)]
      split_ifs with hdouble hsingle
      · obtain ⟨n, kept, heq, hkept⟩ := ih above.dropLast
        refine ⟨min n (above.length - 1), kept, ?_, hother hkept⟩
        rw [heq, List.dropLast_eq_take, List.take_take]
      · obtain ⟨n, kept, heq, hkept⟩ := ih above
        exact ⟨n, kept, heq, hother hkept⟩
      · obtain ⟨n, kept, heq, hkept⟩ := ih (above ++ [s])
        refine ⟨n, [s].take (n - above.length) ++ kept, ?_, ?_⟩
        · rw [heq, List.take_append, List.append_assoc]
        · intro u hu
          rcases List.mem_append.1 hu with hu | hu
          · rw [List.mem_singleton.1 (List.mem_of_mem_take hu)]
            exact .inr ⟨List.mem_cons_self, by simp [isDots_eq_false, hdouble, hsingle]⟩
          · exact hother hkept u hu

theorem resolveFrom_ne_nil (above : List (List Char)) {qs : List (List Char)} (h : qs ≠ []) :
    resolveFrom above qs ≠ [] := by
  induction qs generalizing above with
  | nil => exact absurd rfl h
  | cons s rest ih =>
    rcases rest with _ | ⟨t, rest⟩
    · rw [resolveFrom]
      split_ifs <;> simp
    · rw [resolveFrom_cons above s (List.cons_ne_nil t rest)]
      split_ifs
      · exact ih _ (List.cons_ne_nil t rest)
      · exact ih _ (List.cons_ne_nil t rest)
      · exact ih _ (List.cons_ne_nil t rest)

/-- Encoding brings no characters into a text but those of encoded texts. -/
theorem mem_of_mem_encodeClass {encoded : Char → Bool} {cs : List Char} {c : Char}
    (hc : Percent.isEncodedChar c = false) (h : c ∈ (encodeClass encoded cs).toList) : c ∈ cs := by
  rw [encodeClass, String.toList_ofList] at h
  obtain ⟨d, hd, hmem⟩ := List.mem_flatMap.1 h
  split at hmem
  · obtain ⟨b, -, hmem⟩ := List.mem_flatMap.1 hmem
    rw [Percent.isEncodedChar_of_mem_encodeByte hmem] at hc
    cases hc
  · rwa [List.mem_singleton.1 hmem]

/-- No segment of a path that was read holds a slash of either kind. -/
theorem isSlash_of_mem_segmentsOf {path : List Char} :
    ∀ s ∈ segmentsOf path, ∀ c ∈ s.toList, isSlash c = false := by
  intro s hs c hc
  by_contra hslash
  rw [Bool.not_eq_false] at hslash
  obtain ⟨piece, hpiece, rfl⟩ := List.mem_map.1 hs
  have hencoded : Percent.isEncodedChar c = false := by
    simp only [isSlash, Bool.or_eq_true, beq_iff_eq] at hslash
    rcases hslash with rfl | rfl <;> decide
  have hcpiece := mem_of_mem_encodeClass hencoded hc
  obtain ⟨n, kept, heq, hkept⟩ := exists_resolveFrom_eq [] (pathPieces (path.drop 1))
  rw [heq, List.take_nil, List.nil_append] at hpiece
  rcases hkept piece hpiece with rfl | ⟨hmem, -⟩
  · cases hcpiece
  · -- the pieces were cut where all slashes had become alike
    have hjoined : c ∈ (path.drop 1).map fun c => if isSlash c then '/' else c := by
      rw [← Text.join_split '/' ((path.drop 1).map _)]
      exact Text.mem_join_of_mem hmem hcpiece
    obtain ⟨d, -, hd⟩ := List.mem_map.1 hjoined
    have hc' : c = '/' := by
      split at hd
      · exact hd.symm
      · rename_i hnot
        rw [← hd] at hslash
        exact absurd hslash hnot
    exact Text.not_mem_of_mem_split hmem (hc' ▸ hcpiece)

/-- No segment of an address that was read holds a slash. -/
theorem slash_not_mem_segments {address : String} {u : Url} (h : parse? address = some u) :
    ∀ s ∈ u.segments, '/' ∉ s.toList := by
  rw [parse?_eq] at h
  obtain ⟨found, -, rfl⟩ := Option.map_eq_some_iff.1 h
  intro s hs hslash
  exact absurd (isSlash_of_mem_segmentsOf s hs '/' hslash) (by decide)

theorem suffix_of_take_append_eq {α : Type} {start kept rest : List α} {n : Nat}
    (h : start.take n ++ kept = start ++ rest) : rest <:+ kept := by
  have hlength : (start.take n).length ≤ start.length := by
    rw [List.length_take]
    exact Nat.min_le_right n start.length
  have hdrop := congrArg (List.drop start.length) h
  rw [List.drop_left, List.drop_append, List.drop_eq_nil_of_le hlength, List.nil_append] at hdrop
  rw [← hdrop]
  exact List.drop_suffix _ kept

/-- A resolved path that continues the text of the path it was resolved from does so by pieces that
were kept. -/
theorem suffix_of_path_eq {root : Url} {above kept rest : List (List Char)} {n : Nat}
    (hslash : ∀ s ∈ root.segments, '/' ∉ s.toList)
    (hroot : root.segments = (above ++ [[]]).map (encodeClass isEncodedInPath))
    (hne : above.take n ++ kept ≠ []) (hkept : ∀ piece ∈ kept, ∀ c ∈ piece, isInert c = true)
    (hrest : rest ≠ []) (hrestSlash : ∀ piece ∈ rest, '/' ∉ piece) {query : Option String}
    (h : path { root with
        segments := (above.take n ++ kept).map (encodeClass isEncodedInPath)
        query := query } = root.path ++ String.ofList (Text.join '/' rest)) :
    rest <:+ kept := by
  have hstart : root.segments.map String.toList =
      (above.map (encodeClass isEncodedInPath)).map String.toList ++ [[]] := by
    rw [hroot, List.map_append, List.map_append]
    rfl
  have hstartSlash : ∀ piece ∈ root.segments.map String.toList, '/' ∉ piece := by
    simpa using hslash
  rw [← String.toList_inj, String.toList_append, toList_path, toList_path, hstart, List.map_append,
    List.map_append, map_toList_encodeClass_inert hkept, List.map_take, List.map_take,
    String.toList_ofList, List.cons_append, Text.join_append_empty '/' _ hrest] at h
  rw [hstart] at hstartSlash
  -- no piece on either side holds a slash, so equal texts are equal pieces
  refine suffix_of_take_append_eq
    (Text.join_injective ?_ (by simp [hrest]) ?_ ?_ (List.cons.inj h).2)
  · intro hnil
    obtain ⟨htake, hnil⟩ := List.append_eq_nil_iff.1 hnil
    rw [hnil, List.append_nil] at hne
    exact hne (by simpa using htake)
  · intro piece hpiece
    rcases List.mem_append.1 hpiece with hpiece | hpiece
    · exact hstartSlash piece (List.mem_append_left _ (List.mem_of_mem_take hpiece))
    · exact slash_not_mem_of_inert hkept piece hpiece
  · intro piece hpiece
    rcases List.mem_append.1 hpiece with hpiece | hpiece
    · exact hstartSlash piece (List.mem_append_left _ hpiece)
    · exact hrestSlash piece hpiece

end ReleaseCandidates.Http.Url
