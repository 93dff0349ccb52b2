import ReleaseCandidates.Proofs.Http.Address

set_option autoImplicit false

/-! # Hosts in addresses

A text that names a server, with its port or without, has none of the marks in it that end the part
of an address that names the server (`Url.endsPlace_of_authorityOf`). So an address that is made of
a scheme, such a text and a path leads to the server that the text names (`Url.place?_secure`). -/

namespace ReleaseCandidates.Http

namespace Percent

/-- What is neither a percent sign nor a hexadecimal digit is decoded to itself. -/
theorem mem_decodeBytes {c : Char} (hpercent : c ≠ '%') (hhex : hexValue? c = none)
    {cs : List Char} (hc : c ∈ cs) : ∀ b ∈ String.utf8EncodeChar c, b ∈ decodeBytes cs := by
  intro byte hbyte
  induction cs using decodeBytes.induct with
  | case1 a b rest m n hb ha ih =>
    have hrest : c ∈ rest := by
      simp only [List.mem_cons] at hc
      rcases hc with rfl | rfl | rfl | hc
      · exact absurd rfl hpercent
      · cases hhex.symm.trans ha
      · cases hhex.symm.trans hb
      · exact hc
    simp only [decodeBytes, ha, hb]
    exact List.mem_cons_of_mem _ (ih hrest)
  | case2 a b rest hdigits ih =>
    have hrest : c ∈ a :: b :: rest := (List.mem_cons.1 hc).resolve_left hpercent
    rw [decodeBytes]
    split
    · rename_i ha hb
      exact (hdigits _ _ ha hb).elim
    · exact List.mem_append_right _ (ih hrest)
  | case3 d rest hplain ih =>
    rw [decodeBytes]
    · rcases List.mem_cons.1 hc with rfl | hc
      · exact List.mem_append_left _ hbyte
      · exact List.mem_append_right _ (ih hc)
    · exact hplain
  | case4 => cases hc

end Percent

namespace Url

/-! ## Marks that end the name of a server -/

theorem endsPlace_iff {c : Char} :
    endsPlace c = true ↔ c = '/' ∨ c = '\\' ∨ c = '?' ∨ c = '#' := by
  simp only [endsPlace, isSlash, Bool.or_eq_true, beq_iff_eq, or_assoc]

/-- The marks are characters of ASCII that no host may hold, and no digits. -/
theorem facts_of_endsPlace {c : Char} (h : endsPlace c = true) :
    (c ≠ '%' ∧ c ≠ ':' ∧ c ≠ '.' ∧ c ≠ '[' ∧ c ≠ ']') ∧ Percent.hexValue? c = none ∧
      c.isDigit = false ∧ ∃ b : UInt8, String.utf8EncodeChar c = [b] ∧
        Char.ofNat b.toNat = c ∧ isForbiddenInHost c.toLower = true := by
  rcases endsPlace_iff.1 h with rfl | rfl | rfl | rfl
  · exact ⟨by decide, by decide, by decide, 47, by decide⟩
  · exact ⟨by decide, by decide, by decide, 92, by decide⟩
  · exact ⟨by decide, by decide, by decide, 63, by decide⟩
  · exact ⟨by decide, by decide, by decide, 35, by decide⟩

theorem endsPlace_of_hostOf {cs : List Char} {host : String} (h : hostOf cs = some host) :
    ∀ c ∈ cs, endsPlace c = false := by
  intro c hc
  by_contra hends
  obtain ⟨⟨hpercent, hcolon, hdot, hopen, hclose⟩, hhex, -, b, hbytes, hchar, hforbidden⟩ :=
    facts_of_endsPlace (Bool.not_eq_false _ ▸ hends)
  unfold hostOf at h
  split at h
  · cases hc
  · -- between brackets there are digits, colons and dots
    rename_i rest
    split at h
    · rename_i hbrackets
      obtain ⟨hlast, hcontent⟩ := hbrackets
      have hrest := (List.mem_cons.1 hc).resolve_left hopen
      rw [← List.dropLast_append_getLast? _ hlast, List.mem_append, List.mem_singleton] at hrest
      have hinner := hrest.resolve_right hclose
      rw [isBracketContent, Bool.and_eq_true, List.all_eq_true] at hcontent
      have hone := hcontent.2 c hinner
      simp [hcolon, hdot, hhex] at hone
    · cases h
  · -- in a name the mark is decoded to itself, and forbidden
    split at h
    · cases h
    · rename_i decoded hascii
      rw [asciiChars?] at hascii
      split at hascii
      · have hmem : b ∈ Percent.decodeBytes cs :=
          Percent.mem_decodeBytes hpercent hhex hc b (by simp [hbytes])
        have hdecoded : c ∈ decoded := by
          rw [← Option.some.inj hascii, ← hchar]
          exact List.mem_map_of_mem hmem
        have hany : (decoded.map Char.toLower).any isForbiddenInHost = true :=
          List.any_eq_true.2 ⟨_, List.mem_map_of_mem hdecoded, hforbidden⟩
        simp [hany] at h
      · cases hascii

/-- A text that names a server has no marks in it. -/
theorem endsPlace_of_authorityOf {secure : Bool} {cs : List Char} {found : String × Option Nat}
    (h : authorityOf secure cs = some found) (hasker : '@' ∉ cs) :
    ∀ c ∈ cs, endsPlace c = false := by
  simp only [authorityOf, Text.afterLast_of_not_mem hasker] at h
  generalize (if cs.head? = some '[' then (cs.takeWhile (· ≠ ']')).length + 1
    else (cs.takeWhile (· ≠ ':')).length) = hostLength at h
  intro c hc
  rw [← List.take_append_drop hostLength cs, List.mem_append] at hc
  split at h
  · rename_i host hhost hafter
    rw [hafter] at hc
    exact endsPlace_of_hostOf hhost c (hc.resolve_right List.not_mem_nil)
  · rename_i host digits hhost hafter
    rw [hafter, List.mem_cons] at hc
    rcases hc with hc | rfl | hc
    · exact endsPlace_of_hostOf hhost c hc
    · rfl
    · -- behind the colon there are digits
      by_contra hends
      obtain ⟨-, -, hdigit, -⟩ := facts_of_endsPlace (Bool.not_eq_false _ ▸ hends)
      obtain ⟨port, hport, -⟩ := Option.map_eq_some_iff.1 h
      rw [portOf] at hport
      split at hport
      · rename_i hnone
        rw [List.isEmpty_iff.1 hnone] at hc
        cases hc
      · split at hport
        · rename_i hall
          rw [List.all_eq_true.1 hall c hc] at hdigit
          cases hdigit
        · cases hport
  · cases h

/-- Behind the scheme, a text that names a server leads to this server. -/
theorem place?_secure {host rest : List Char} {name : String} {port : Option Nat}
    (hname : authorityOf true host = some (name, port)) (hasker : '@' ∉ host) :
    place? ("https://".toList ++ (host ++ '/' :: rest)) = some (⟨true, name, port⟩, '/' :: rest) := by
  have hmarks := endsPlace_of_authorityOf hname hasker
  have hscheme : dropScheme? ("https://".toList ++ (host ++ '/' :: rest)) =
      some (true, '/' :: '/' :: (host ++ '/' :: rest)) := by
    have hcut : Text.cutFirst ':' ("https".toList ++ ':' :: '/' :: '/' :: (host ++ '/' :: rest)) =
        some ("https".toList, '/' :: '/' :: (host ++ '/' :: rest)) :=
      Text.cutFirst_append (by decide)
    have hlower : "https".toList.map Char.toLower = "https".toList := by decide
    show dropScheme? ("https".toList ++ ':' :: '/' :: '/' :: (host ++ '/' :: rest)) = _
    rw [dropScheme?, hcut]
    simp only [hlower, if_true]
  have hslashes : ('/' :: '/' :: (host ++ '/' :: rest)).dropWhile isSlash =
      host ++ '/' :: rest := by
    cases host with
    | nil =>
      rw [authorityOf_nil] at hname
      cases hname
    | cons c host =>
      have hslash : isSlash c = false := by
        have hmark := hmarks c List.mem_cons_self
        simp only [endsPlace, Bool.or_eq_false_iff] at hmark
        exact hmark.1.1
      simp [isSlash, show (c == '/' || c == '\\') = false from hslash]
  have hinside : ∀ c ∈ host, (!endsPlace c) = true := by
    intro c hc
    rw [hmarks c hc, Bool.not_false]
  simp only [place?, hscheme, hslashes]
  rw [List.takeWhile_append_of_pos hinside, List.dropWhile_append_of_pos hinside,
    List.takeWhile_cons_of_neg (by decide), List.dropWhile_cons_of_neg (by decide),
    List.append_nil, hname]

end Url

end ReleaseCandidates.Http
