set_option autoImplicit false

/-! # Pieces: texts cut at a separator

Repository identifiers, image names, tags and paths are all lists of pieces between separators.
Cutting keeps empty pieces, so joining the pieces again gives the text back. -/

namespace ReleaseCandidates.Text

/-! ## Cutting and joining -/

/-- The pieces of `cs` between occurrences of `sep`, empty ones included; never the empty list. -/
def split (sep : Char) : List Char → List (List Char)
  | [] => [[]]
  | c :: cs =>
    if c = sep then [] :: split sep cs
    else match split sep cs with
      | [] => [[c]]
      | piece :: pieces => (c :: piece) :: pieces

/-- The pieces with `sep` between neighbours. -/
def join (sep : Char) : List (List Char) → List Char
  | [] => []
  | [piece] => piece
  | piece :: pieces => piece ++ sep :: join sep pieces

theorem split_ne_nil (sep : Char) (cs : List Char) : split sep cs ≠ [] := by
  cases cs with
  | nil => simp [split]
  | cons c cs =>
    unfold split
    split
    · simp
    · split <;> simp

/-- Joining the pieces of a text gives the text back. -/
theorem join_split (sep : Char) (cs : List Char) : join sep (split sep cs) = cs := by
  induction cs with
  | nil => rfl
  | cons c cs ih =>
    by_cases h : c = sep
    · subst h
      cases hs : split c cs with
      | nil => exact absurd hs (split_ne_nil c cs)
      | cons piece pieces =>
        rw [hs] at ih
        simp [split, hs, join, ih]
    · cases hs : split sep cs with
      | nil => exact absurd hs (split_ne_nil sep cs)
      | cons piece pieces =>
        rw [hs] at ih
        cases pieces with
        | nil => simp [split, h, hs, join] at ih ⊢; exact ih
        | cons q qs => simp [split, h, hs, join] at ih ⊢; exact ih

/-- No piece holds the separator. -/
theorem not_mem_of_mem_split {sep : Char} {cs piece : List Char} (h : piece ∈ split sep cs) :
    sep ∉ piece := by
  induction cs generalizing piece with
  | nil => simp [split] at h; simp [h]
  | cons c cs ih =>
    by_cases hc : c = sep
    · simp only [split, hc, if_true, List.mem_cons] at h
      rcases h with rfl | h
      · simp
      · exact ih h
    · cases hs : split sep cs with
      | nil => exact absurd hs (split_ne_nil sep cs)
      | cons p ps =>
        rw [hs] at ih
        simp only [split, hc, if_false, hs, List.mem_cons] at h
        rcases h with rfl | h
        · have : sep ∉ p := ih (by simp)
          simp [this, Ne.symm hc]
        · exact ih (by simp [h])

/-! ## Single cuts -/

/-- What stands before the first `sep`; the whole text when there is none. -/
def beforeFirst (sep : Char) (cs : List Char) : List Char :=
  cs.takeWhile (· ≠ sep)

/-- What stands after the last `sep`; the whole text when there is none. -/
def afterLast (sep : Char) (cs : List Char) : List Char :=
  (cs.reverse.takeWhile (· ≠ sep)).reverse

/-- The two sides of the first `sep`, if there is one. -/
def cutFirst (sep : Char) (cs : List Char) : Option (List Char × List Char) :=
  match cs.dropWhile (· ≠ sep) with
  | [] => none
  | _ :: after => some (beforeFirst sep cs, after)

/-- The two sides of the last `sep`, if there is one. -/
def cutLast (sep : Char) (cs : List Char) : Option (List Char × List Char) :=
  match cs.reverse.dropWhile (· ≠ sep) with
  | [] => none
  | _ :: before => some (before.reverse, afterLast sep cs)

/-- The rest of `cs` after `start`, if `cs` starts with it. -/
def dropStart? (start : List Char) (cs : List Char) : Option (List Char) :=
  match start, cs with
  | [], cs => some cs
  | _ :: _, [] => none
  | a :: start, c :: cs => if a = c then dropStart? start cs else none

theorem dropStart?_eq_some {start cs rest : List Char} :
    dropStart? start cs = some rest ↔ cs = start ++ rest := by
  induction start generalizing cs with
  | nil => simp [dropStart?]
  | cons a start ih =>
    cases cs with
    | nil => simp [dropStart?]
    | cons c cs =>
      by_cases h : a = c
      · subst h; simp [dropStart?, ih]
      · simp [dropStart?, h, Ne.symm h]

/-- Whether `needle` occurs in `cs`. -/
def containsRun (needle : List Char) : List Char → Bool
  | [] => needle.isEmpty
  | c :: cs => needle.isPrefixOf (c :: cs) || containsRun needle cs

/-- Every occurrence of `needle` replaced by `value`, left to right; an empty `needle` changes
nothing. The first argument counts the characters of a found occurrence still to be skipped. -/
def replaceRun (needle value : List Char) : Nat → List Char → List Char
  | _, [] => []
  | n + 1, _ :: cs => replaceRun needle value n cs
  | 0, c :: cs =>
    if needle ≠ [] ∧ needle.isPrefixOf (c :: cs) then
      value ++ replaceRun needle value (needle.length - 1) cs
    else c :: replaceRun needle value 0 cs

/-- Every occurrence of `needle` in the text replaced by `value`. -/
def replaceAll (s needle value : String) : String :=
  String.ofList (replaceRun needle.toList value.toList 0 s.toList)

/-- The text widened with spaces to `width` characters; a wider text is left alone. -/
def padRight (width : Nat) (s : String) : String :=
  s ++ String.ofList (List.replicate (width - s.length) ' ')

end ReleaseCandidates.Text
