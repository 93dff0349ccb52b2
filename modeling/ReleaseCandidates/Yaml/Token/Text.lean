import ReleaseCandidates.Yaml.Cursor

set_option autoImplicit false

/-! # Texts of scalars

A scalar is written plain, between quotes, or as an indented block. Each way has its own rule for
what happens to the line breaks inside: between quotes and in plain text a single break becomes a
space and further ones are kept; a literal block keeps all of them. Every function here starts at
the first character of the scalar and gives its text together with the place after it, or nothing
when the text breaks a rule. The `fuel` of the loops is more than the characters that are left. -/

namespace ReleaseCandidates.Yaml

/-! ## Gaps inside a scalar -/

/-- Spaces and line breaks between two words of a scalar. -/
structure Gap where
  /-- Spaces and tabs before the first line break, last one first. -/
  spaces : List Char
  /-- The first line break. -/
  firstBreak : List Char
  /-- The line breaks after it, last one first. -/
  moreBreaks : List Char
  /-- Whether a line break was found. -/
  broken : Bool

namespace Gap

/-- No gap. -/
def none : Gap := ⟨[], [], [], false⟩

/-- A gap that starts with a line break without a text of its own. -/
def afterBreak : Gap := ⟨[], [], [], true⟩

/-- The text that a gap stands for: its spaces, or its line breaks with the first one folded. -/
def text (g : Gap) : List Char :=
  if g.broken then
    if g.firstBreak = ['\n'] then
      if g.moreBreaks.isEmpty then [' '] else g.moreBreaks.reverse
    else g.firstBreak ++ g.moreBreaks.reverse
  else g.spaces.reverse

/-- Reads the gap at a place. With a `limit`, a tab left of that column is refused once a line has
been broken. -/
def read (limit : Option Int) : Nat → Cursor → Gap → Option (Gap × Cursor)
  | 0, c, g => some (g, c)
  | fuel + 1, c, g =>
    match c.peek 0 with
    | Option.none => some (g, c)
    | some x =>
      if isGap x then
        if g.broken then
          if x == '\t' && limit.any (fun l => decide ((c.column : Int) < l)) then Option.none
          else read limit fuel (c.skip 1) g
        else read limit fuel (c.skip 1) { g with spaces := x :: g.spaces }
      else if isBreak x then
        let (text, after) := c.takeBreak
        if g.broken then
          read limit fuel after { g with moreBreaks := text.reverse ++ g.moreBreaks }
        else read limit fuel after { g with firstBreak := text, spaces := [], broken := true }
      else some (g, c)

end Gap

/-! ## Quoted text -/

/-- The value of a hexadecimal digit. -/
def hexValue? (c : Char) : Option Nat :=
  if c.isDigit then some (c.toNat - 48)
  else if 'a' ≤ c ∧ c ≤ 'f' then some (c.toNat - 87)
  else if 'A' ≤ c ∧ c ≤ 'F' then some (c.toNat - 55)
  else none

/-- The value of exactly `n` hexadecimal digits at the start of a text, continuing from `acc`. -/
def hexDigits? (acc : Nat) : Nat → List Char → Option Nat
  | 0, _ => some acc
  | _ + 1, [] => none
  | n + 1, c :: cs => (hexValue? c).bind fun v => hexDigits? (16 * acc + v) n cs

/-- What a backslash and the character after it stand for, if that needs no digits. -/
def simpleEscape? : Char → Option Char
  | '0' => some (Char.ofNat 0)
  | 'a' => some (Char.ofNat 7)
  | 'b' => some (Char.ofNat 8)
  | 't' | '\t' => some '\t'
  | 'n' => some '\n'
  | 'v' => some (Char.ofNat 11)
  | 'f' => some (Char.ofNat 12)
  | 'r' => some '\r'
  | 'e' => some (Char.ofNat 27)
  | ' ' => some ' '
  | '"' => some '"'
  | '/' => some '/'
  | '\\' => some '\\'
  | 'N' => some nextLine
  | '_' => some (Char.ofNat 0xA0)
  | 'L' => some lineSeparator
  | 'P' => some paragraphSeparator
  | _ => none

/-- The number of hexadecimal digits that a backslash and a letter ask for. -/
def escapeWidth? : Char → Option Nat
  | 'x' => some 2
  | 'u' => some 4
  | 'U' => some 8
  | _ => none

/-- Reads an escape at its backslash: the character and the place after it. -/
def readEscape (c : Cursor) : Option (Char × Cursor) :=
  match c.peek 1 with
  | none => none
  | some letter =>
    match simpleEscape? letter with
    | some x => some (x, c.skip 2)
    | none =>
      match escapeWidth? letter with
      | none => none
      | some width =>
        match hexDigits? 0 width (c.rest.drop 2) with
        | none => none
        | some n =>
          if (0xD800 ≤ n ∧ n ≤ 0xDFFF) ∨ 0x10FFFF < n then none
          else some (Char.ofNat n, c.skip (2 + width))

/-- Reads the characters of a quoted scalar up to a gap or the closing quote. The flag says that
an escaped line break was passed last. -/
def readQuotedRun (single : Bool) : Nat → Cursor → List Char → Option (List Char × Bool × Cursor)
  | 0, c, acc => some (acc, false, c)
  | fuel + 1, c, acc =>
    match c.peek 0 with
    | none => some (acc, false, c)
    | some x =>
      if isGap x || isBreak x then some (acc, false, c)
      else if single && x == '\x27' && c.has 1 '\x27' then
        readQuotedRun single fuel (c.skip 2) ('\x27' :: acc)
      else if x == (if single then '\x27' else '"') then some (acc, false, c)
      else if !single && x == '\\' then
        if c.test 1 isBreak then some (acc, true, (c.skip 1).skipBreak)
        else
          match readEscape c with
          | none => none
          | some (y, after) => readQuotedRun single fuel after (y :: acc)
      else readQuotedRun single fuel (c.skip 1) (x :: acc)

/-- Reads a quoted scalar after its opening quote; `acc` holds the text so far, last character
first. -/
def readQuoted (single : Bool) : Nat → Cursor → List Char → Option (List Char × Cursor)
  | 0, _, _ => none
  | fuel + 1, c, acc =>
    if c.atDocumentMark || c.endsAt 0 then none
    else
      match readQuotedRun single fuel c acc with
      | none => none
      | some (acc, escapedBreak, c) =>
        if c.has 0 (if single then '\x27' else '"') then some (acc.reverse, c.skip 1)
        else
          match Gap.read none fuel c (if escapedBreak then Gap.afterBreak else Gap.none) with
          | none => none
          | some (gap, c) => readQuoted single fuel c (gap.text.reverse ++ acc)

/-! ## Plain text -/

/-- Whether the character ends a plain scalar inside a flow collection. -/
def endsInFlow (x : Char) : Bool :=
  x == ',' || x == '[' || x == ']' || x == '\x7b' || x == '\x7d'

/-- Reads the characters of a plain scalar up to a gap or a mark. -/
def readPlainRun (inFlow : Bool) : Nat → Cursor → List Char → Option (List Char × Cursor)
  | 0, c, acc => some (acc, c)
  | fuel + 1, c, acc =>
    match c.peek 0 with
    | none => some (acc, c)
    | some x =>
      if isGap x || isBreak x then some (acc, c)
      else if inFlow && x == ':' && c.test 1 (fun y => endsInFlow y || y == '?') then none
      else if (x == ':' && c.gapOrEnd 1) || (inFlow && endsInFlow x) then some (acc, c)
      else readPlainRun inFlow fuel (c.skip 1) (x :: acc)

/-- Reads a plain scalar: its text, whether a line break stands between it and the place after it,
and that place. `indent` is the column it must stay right of the start of. -/
def readPlain (inFlow : Bool) (indent : Int) :
    Nat → Cursor → Gap → List Char → Option (List Char × Bool × Cursor)
  | 0, c, gap, acc => some (acc.reverse, gap.broken, c)
  | fuel + 1, c, gap, acc =>
    if c.atDocumentMark || c.has 0 '#' then some (acc.reverse, gap.broken, c)
    else
      match readPlainRun inFlow fuel c [] with
      | none => none
      | some (run, after) =>
        let acc := if run.isEmpty then acc else run ++ gap.text.reverse ++ acc
        let gap := if run.isEmpty then gap else Gap.none
        if !(after.test 0 fun x => isGap x || isBreak x) then
          some (acc.reverse, gap.broken, after)
        else
          match Gap.read (some indent) fuel after gap with
          | none => none
          | some (gap, c) =>
            if !inFlow && decide ((c.column : Int) < indent) then
              some (acc.reverse, gap.broken, c)
            else readPlain inFlow indent fuel c gap acc

/-! ## Block text -/

/-- What happens to the line breaks at the end of a block scalar. -/
inductive Chomping where
  | strip
  | clip
  | keep
  deriving DecidableEq, Repr

/-- Reads the chomping mark, if there is one. -/
def readChomping (c : Cursor) : Option (Chomping × Cursor) :=
  if c.has 0 '+' then some (.keep, c.skip 1)
  else if c.has 0 '-' then some (.strip, c.skip 1)
  else none

/-- Reads the indentation of a block scalar, if it is given; zero is none. -/
def readIncrement (c : Cursor) : Option (Nat × Cursor) :=
  match c.peek 0 with
  | some x =>
    if x.isDigit then if x == '0' then none else some (x.toNat - 48, c.skip 1)
    else some (0, c)
  | none => some (0, c)

/-- Reads chomping and indentation in either order. -/
def readBlockHeader (c : Cursor) : Option (Chomping × Nat × Cursor) :=
  match readChomping c with
  | some (chomping, c) => (readIncrement c).map fun (n, c) => (chomping, n, c)
  | none =>
    match readIncrement c with
    | none => none
    | some (0, c) => some (.clip, 0, c)
    | some (n, c) =>
      match readChomping c with
      | some (chomping, c) => some (chomping, n, c)
      | none => some (.clip, n, c)

/-- Reads empty lines and the indentation of the next line of a block scalar. An `indent` of zero
is still unknown; `widest` is the widest indentation seen, and `acc` the line breaks, last one
first. -/
def readBlockBreaks (indent : Nat) :
    Nat → Cursor → Nat → List Char → Option (List Char × Nat × Cursor)
  | 0, c, widest, acc => some (acc, widest, c)
  | fuel + 1, c, widest, acc =>
    let room := if indent = 0 then c.rest.length else indent - c.column
    let spaces := ((c.rest.take room).takeWhile (· == ' ')).length
    let c := c.skip spaces
    let widest := max widest c.column
    if (indent = 0 || c.column < indent) && c.has 0 '\t' then none
    else if c.test 0 isBreak then
      let (text, after) := c.takeBreak
      readBlockBreaks indent fuel after widest (text.reverse ++ acc)
    else some (acc, widest, c)

/-- Reads the lines of a block scalar. `lead` is the break of the line before, `breaks` the empty
lines after that, last one first, and `leadGap` says that the line before started with a gap. -/
def readBlockLines (literal : Bool) (indent : Nat) :
    Nat → Cursor → List Char → List Char → Bool → List Char →
      Option (List Char × List Char × List Char × Cursor)
  | 0, c, lead, breaks, _, acc => some (acc, lead, breaks, c)
  | fuel + 1, c, lead, breaks, leadGap, acc =>
    if c.column = indent && !c.endsAt 0 then
      let startsWithGap := c.test 0 isGap
      let joint :=
        if !literal && lead == ['\n'] && !leadGap && !startsWithGap then
          if breaks.isEmpty then [' '] else []
        else lead
      let line := c.rest.takeWhile (fun x => !isBreak x)
      let acc := line.reverse ++ (breaks ++ (joint.reverse ++ acc))
      let (lead, c) := (c.skipWhile (fun x => !isBreak x)).takeBreak
      match readBlockBreaks indent fuel c 0 [] with
      | none => none
      | some (breaks, _, c) => readBlockLines literal indent fuel c lead breaks startsWithGap acc
    else some (acc, lead, breaks, c)

/-- Reads a block scalar after its mark. `outer` is the indentation around it. -/
def readBlock (literal : Bool) (outer : Int) (fuel : Nat) (c : Cursor) :
    Option (List Char × Cursor) :=
  match readBlockHeader c with
  | none => none
  | some (chomping, increment, c) =>
    let c := c.skipComment
    if !c.breakOrEnd 0 then none
    else
      let given := if increment = 0 then 0 else (max outer 0).toNat + increment
      match readBlockBreaks given fuel c.skipBreak 0 [] with
      | none => none
      | some (breaks, widest, c) =>
        let indent := if given = 0 then max (max widest (outer + 1).toNat) 1 else given
        match readBlockLines literal indent fuel c [] breaks false [] with
        | none => none
        | some (acc, lead, breaks, c) =>
          let tail :=
            match chomping with
            | .strip => []
            | .clip => lead
            | .keep => lead ++ breaks.reverse
          some (acc.reverse ++ tail, c)

end ReleaseCandidates.Yaml
