import Mathlib.Data.List.Basic
import ReleaseCandidates.Http.Url

set_option autoImplicit false

/-! # Encoded texts in addresses

What percent encoding puts into an address is made of few characters (`Percent.isEncodedChar`), none
of which means anything to the reader of the address (`Url.isInert`), and it can be decoded again
(`Percent.decode?_encodeChars`). One thing encoding does not hide: dots stand for themselves, so `.`
and `..` are encoded as the very segments that an address resolves. They are the only texts to which
this happens (`Url.isDots_encodeChars`). -/

namespace ReleaseCandidates.Http

namespace Percent

/-! ## The characters of an encoded text -/

/-- The characters that occur in an encoded text. -/
def isEncodedChar (c : Char) : Bool :=
  isPlain c || c == '%'

theorem toNat_lt_of_isEncodedChar {c : Char} (h : isEncodedChar c = true) : c.toNat < 128 := by
  have halphanum : c.isAlphanum = ((c.isUpper || c.isLower) || c.isDigit) := rfl
  have hupper : c.isUpper = decide (65 ≤ c.val ∧ c.val ≤ 90) := rfl
  have hlower : c.isLower = (decide (97 ≤ c.val) && decide (c.val ≤ 122)) := rfl
  have hdigit : c.isDigit = (decide (48 ≤ c.val) && decide (c.val ≤ 57)) := rfl
  simp only [isEncodedChar, isPlain, halphanum, hupper, hlower, hdigit, Bool.or_eq_true,
    Bool.and_eq_true, decide_eq_true_eq, beq_iff_eq, UInt32.le_iff_toNat_le] at h
  change (((((((65 ≤ c.toNat ∧ c.toNat ≤ 90) ∨ (97 ≤ c.toNat ∧ c.toNat ≤ 122)) ∨
    (48 ≤ c.toNat ∧ c.toNat ≤ 57)) ∨ c = '-') ∨ c = '_') ∨ c = '.') ∨ c = '~') ∨ c = '%' at h
  rcases h with ((((h | rfl) | rfl) | rfl) | rfl) | rfl
  · omega
  all_goals decide

/-- What holds of the encoded characters among the first 128 holds of all of them. -/
theorem of_isEncodedChar {p : Char → Bool}
    (hp : ∀ n < 128, isEncodedChar (Char.ofNat n) = true → p (Char.ofNat n) = true) {c : Char}
    (hc : isEncodedChar c = true) : p c = true := by
  have h := hp c.toNat (toNat_lt_of_isEncodedChar hc)
  rw [Char.ofNat_toNat] at h
  exact h hc

theorem isPlain_hexDigit : ∀ n < 16, isPlain (hexDigit n) = true := by
  decide

theorem hexValue?_hexDigit : ∀ n < 16, hexValue? (hexDigit n) = some n := by
  decide

theorem isEncodedChar_of_mem_encodeByte {b : UInt8} {c : Char} (h : c ∈ encodeByte b) :
    isEncodedChar c = true := by
  have hb : b.toNat < 256 := b.toNat_lt
  simp only [encodeByte, List.mem_cons, List.not_mem_nil, or_false] at h
  rcases h with rfl | rfl | rfl
  · decide
  · simp [isEncodedChar, isPlain_hexDigit (b.toNat / 16) (by omega)]
  · simp [isEncodedChar, isPlain_hexDigit (b.toNat % 16) (by omega)]

theorem isEncodedChar_of_mem_encodeChars {cs : List Char} {c : Char} (h : c ∈ encodeChars cs) :
    isEncodedChar c = true := by
  obtain ⟨d, -, hc⟩ := List.mem_flatMap.1 h
  split at hc
  · rename_i hplain
    rw [List.mem_singleton.1 hc, isEncodedChar, hplain, Bool.true_or]
  · obtain ⟨b, -, hc⟩ := List.mem_flatMap.1 hc
    exact isEncodedChar_of_mem_encodeByte hc

theorem not_mem_encodeChars {c : Char} (hc : isEncodedChar c = false) (cs : List Char) :
    c ∉ encodeChars cs := by
  intro hmem
  rw [isEncodedChar_of_mem_encodeChars hmem] at hc
  cases hc

/-- A text of plain characters stands for itself. -/
theorem encodeChars_of_plain {cs : List Char} (h : ∀ c ∈ cs, isPlain c = true) :
    encodeChars cs = cs := by
  induction cs with
  | nil => rfl
  | cons c cs ih =>
    obtain ⟨hc, hcs⟩ := List.forall_mem_cons.1 h
    simp only [encodeChars, List.flatMap_cons, hc, if_true] at ih ⊢
    rw [ih hcs]
    rfl

/-! ## Decoding -/

/-- The text that an encoded text stands for, if its bytes are those of a text. -/
def decode? (s : String) : Option String :=
  String.fromUTF8? (decodeBytes s.toList).toByteArray

theorem decodeBytes_cons {c : Char} (h : c ≠ '%') (rest : List Char) :
    decodeBytes (c :: rest) = String.utf8EncodeChar c ++ decodeBytes rest := by
  rw [decodeBytes]
  rintro a b rest' rfl
  exact absurd rfl h

theorem decodeBytes_encodeByte (b : UInt8) (rest : List Char) :
    decodeBytes (encodeByte b ++ rest) = b :: decodeBytes rest := by
  have hb : b.toNat < 256 := b.toNat_lt
  show decodeBytes ('%' :: hexDigit (b.toNat / 16) :: hexDigit (b.toNat % 16) :: rest) = _
  rw [decodeBytes, hexValue?_hexDigit _ (by omega), hexValue?_hexDigit _ (by omega)]
  simp only [Nat.div_add_mod, UInt8.ofNat_toNat]

theorem decodeBytes_flatMap_encodeByte (bytes : List UInt8) (rest : List Char) :
    decodeBytes (bytes.flatMap encodeByte ++ rest) = bytes ++ decodeBytes rest := by
  induction bytes with
  | nil => rfl
  | cons b bytes ih =>
    rw [List.flatMap_cons, List.append_assoc, decodeBytes_encodeByte, ih, List.cons_append]

theorem ne_percent_of_isPlain {c : Char} (h : isPlain c = true) : c ≠ '%' := by
  rintro rfl
  exact absurd h (by decide)

/-- Decoding an encoded text gives its bytes back. -/
theorem decodeBytes_encodeChars (cs : List Char) :
    decodeBytes (encodeChars cs) = cs.flatMap String.utf8EncodeChar := by
  induction cs with
  | nil => rfl
  | cons c cs ih =>
    rw [encodeChars, List.flatMap_cons, List.flatMap_cons]
    split
    · rename_i hplain
      rw [List.singleton_append, decodeBytes_cons (ne_percent_of_isPlain hplain)]
      exact congrArg _ ih
    · exact (decodeBytes_flatMap_encodeByte _ _).trans (congrArg _ ih)

theorem decode?_encodeChars (cs : List Char) :
    decode? (String.ofList (encodeChars cs)) = some (String.ofList cs) := by
  have hbytes : (decodeBytes (encodeChars cs)).toByteArray = (String.ofList cs).toByteArray := by
    rw [decodeBytes_encodeChars, String.toByteArray_ofList, List.utf8Encode]
  rw [decode?, String.toList_ofList, hbytes, String.fromUTF8?,
    dif_pos (String.ofList cs).isValidUTF8]
  rfl

theorem encodeChars_injective {cs ds : List Char} (h : encodeChars cs = encodeChars ds) :
    cs = ds := by
  have hdecoded := congrArg (fun es => decode? (String.ofList es)) h
  simp only [decode?_encodeChars, Option.some.injEq] at hdecoded
  exact String.ofList_injective hdecoded

end Percent

namespace Url

/-! ## Characters without a meaning -/

/-- The characters that mean nothing in an address and are sent as they are. -/
def isInert (c : Char) : Bool :=
  !isOuterBlank c && !isBreak c && !isSlash c && c != ':' && c != '?' && c != '#' &&
    !isEncodedInPath c && !isEncodedInQuery c

theorem isInert_of_isEncodedChar {c : Char} (h : Percent.isEncodedChar c = true) :
    isInert c = true :=
  Percent.of_isEncodedChar (by decide) h

/-! ## Dots -/

theorem plainDots_cons {c : Char} (h : c ≠ '%') (rest : List Char) :
    plainDots (c :: rest) = c :: plainDots rest := by
  rw [plainDots]
  rintro e rest' rfl
  exact absurd rfl h

theorem plainDots_percent {c : Char} (h : c ≠ '2') (rest : List Char) :
    plainDots ('%' :: c :: rest) = '%' :: plainDots (c :: rest) := by
  rw [plainDots]
  rintro e rest' - heq
  exact h (List.cons.inj heq).1

/-- Only the byte of a dot is written as an encoded dot. -/
theorem plainDots_encodeByte {b : UInt8} (h : b ≠ 46) (rest : List Char) :
    plainDots (Percent.encodeByte b ++ rest) = Percent.encodeByte b ++ plainDots rest := by
  have hhigh : b.toNat / 16 < 16 := by have := b.toNat_lt; omega
  have hlow : b.toNat % 16 < 16 := by omega
  have hlast := Percent.ne_percent_of_isPlain (Percent.isPlain_hexDigit _ hlow)
  show plainDots ('%' :: Percent.hexDigit (b.toNat / 16) :: Percent.hexDigit (b.toNat % 16) :: rest)
    = '%' :: Percent.hexDigit (b.toNat / 16) :: Percent.hexDigit (b.toNat % 16) :: plainDots rest
  by_cases hfirst : Percent.hexDigit (b.toNat / 16) = '2'
  · -- the first digit is that of an encoded dot, so the second is not
    have htwo : b.toNat / 16 = 2 :=
      (by decide : ∀ n < 16, Percent.hexDigit n = '2' → n = 2) _ hhigh hfirst
    have hnot : ¬ (Percent.hexDigit (b.toNat % 16) = 'e' ∨
        Percent.hexDigit (b.toNat % 16) = 'E') := by
      intro hdot
      have hfourteen : b.toNat % 16 = 14 :=
        (by decide : ∀ n < 16, (Percent.hexDigit n = 'e' ∨ Percent.hexDigit n = 'E') → n = 14)
          _ hlow hdot
      exact h (UInt8.toNat_inj.1 (by simp; omega))
    rw [hfirst, plainDots, if_neg hnot, plainDots_cons hlast]
  · rw [plainDots_percent hfirst,
      plainDots_cons (Percent.ne_percent_of_isPlain (Percent.isPlain_hexDigit _ hhigh)),
      plainDots_cons hlast]

theorem plainDots_flatMap_encodeByte {bytes : List UInt8} (h : ∀ b ∈ bytes, b ≠ 46)
    (rest : List Char) :
    plainDots (bytes.flatMap Percent.encodeByte ++ rest) =
      bytes.flatMap Percent.encodeByte ++ plainDots rest := by
  induction bytes with
  | nil => rfl
  | cons b bytes ih =>
    obtain ⟨hb, hbytes⟩ := List.forall_mem_cons.1 h
    rw [List.flatMap_cons, List.append_assoc, plainDots_encodeByte hb, ih hbytes, List.append_assoc]

/-- The byte of a dot occurs in no other character. -/
theorem eq_dot_of_mem_utf8EncodeChar {c : Char} (h : 46 ∈ String.utf8EncodeChar c) : c = '.' := by
  have hbyte : ∀ n < 256, (46 : UInt8) = UInt8.ofNat n → n = 46 := by
    intro n hn heq
    simpa [Nat.mod_eq_of_lt hn] using (congrArg UInt8.toNat heq).symm
  rw [String.utf8EncodeChar] at h
  split at h
  · rename_i hascii
    have htoNat : c.toNat = 46 :=
      hbyte c.val.toNat (by omega) (List.mem_singleton.1 h)
    rw [← Char.ofNat_toNat c, htoNat]
  · -- all bytes of a longer form are 128 or more
    exfalso
    split at h
    · simp only [List.mem_cons, List.not_mem_nil, or_false] at h
      rcases h with h | h <;> have := hbyte _ (by omega) h <;> omega
    · split at h <;> simp only [List.mem_cons, List.not_mem_nil, or_false] at h
      · rcases h with h | h | h <;> have := hbyte _ (by omega) h <;> omega
      · rcases h with h | h | h | h <;> have := hbyte _ (by omega) h <;> omega

/-- Encoding writes no dot as anything but a dot. -/
theorem plainDots_encodeChars (cs : List Char) :
    plainDots (Percent.encodeChars cs) = Percent.encodeChars cs := by
  induction cs with
  | nil => rfl
  | cons c cs ih =>
    rw [Percent.encodeChars, List.flatMap_cons]
    split
    · rename_i hplain
      rw [List.singleton_append, plainDots_cons (Percent.ne_percent_of_isPlain hplain)]
      exact congrArg _ ih
    · rename_i hplain
      have hbytes : ∀ b ∈ String.utf8EncodeChar c, b ≠ 46 := by
        rintro b hb rfl
        rw [eq_dot_of_mem_utf8EncodeChar hb] at hplain
        exact hplain rfl
      exact (plainDots_flatMap_encodeByte hbytes _).trans (congrArg _ ih)

theorem isSingleDot_encodeChars {cs : List Char} :
    isSingleDot (Percent.encodeChars cs) = true ↔ cs = ['.'] := by
  rw [isSingleDot, plainDots_encodeChars, beq_iff_eq]
  constructor
  · exact fun h => Percent.encodeChars_injective (h.trans rfl)
  · rintro rfl
    rfl

theorem isDoubleDot_encodeChars {cs : List Char} :
    isDoubleDot (Percent.encodeChars cs) = true ↔ cs = ['.', '.'] := by
  rw [isDoubleDot, plainDots_encodeChars, beq_iff_eq]
  constructor
  · exact fun h => Percent.encodeChars_injective (h.trans rfl)
  · rintro rfl
    rfl

/-- Whether a segment is resolved away. -/
def isDots (segment : List Char) : Bool :=
  isSingleDot segment || isDoubleDot segment

theorem isDots_eq_false {segment : List Char} :
    isDots segment = false ↔ isSingleDot segment = false ∧ isDoubleDot segment = false :=
  Bool.or_eq_false_iff

theorem isDots_encodeChars {cs : List Char} :
    isDots (Percent.encodeChars cs) = false ↔ cs ≠ ['.'] ∧ cs ≠ ['.', '.'] := by
  rw [isDots_eq_false, ← Bool.not_eq_true, ← Bool.not_eq_true, isSingleDot_encodeChars,
    isDoubleDot_encodeChars]

theorem isDots_of_plain {cs : List Char} (h : ∀ c ∈ cs, Percent.isPlain c = true) :
    isDots cs = false ↔ cs ≠ ['.'] ∧ cs ≠ ['.', '.'] := by
  conv_lhs => rw [← Percent.encodeChars_of_plain h]
  exact isDots_encodeChars

end Url

end ReleaseCandidates.Http
