import ReleaseCandidates.Yaml.Token.Basic
import ReleaseCandidates.Yaml.Token.Tag

set_option autoImplicit false

/-! # From text to tokens

`scan` takes a text apart into tokens. A mapping key is only recognised by the colon after it, so
the scanner remembers for each open flow collection, and for the block around them, where a key may
have started; when the colon comes, a key token is put in at that place. Such a candidate is given
up when the line ends or after 1024 characters.

When a text breaks a rule, the tokens up to there are kept. A candidate for a key may still have
become one, so tokens from the first open candidate on are not: nobody could have acted on them. -/

namespace ReleaseCandidates.Yaml

/-- A place where a mapping key may have started. -/
structure KeyCandidate where
  /-- Whether the text breaks a rule if no colon follows. -/
  required : Bool
  /-- The number of tokens before it. -/
  number : Nat
  index : Nat
  line : Nat
  column : Nat

/-- Where a scan stands. -/
structure Scanner where
  cursor : Cursor
  /-- How many flow collections are open. -/
  flowDepth : Nat
  /-- The column of the innermost open block, -1 when none is open. -/
  indent : Int
  /-- The columns of the blocks around it, innermost first. -/
  outerIndents : List Int
  /-- Whether a key may start here. -/
  keyAllowed : Bool
  /-- The candidates, one place for each open flow collection and one for the block around them,
  innermost first. -/
  keys : List (Option KeyCandidate)
  /-- The tokens found, last one first. -/
  found : List Token
  /-- The number of tokens found. -/
  count : Nat

namespace Scanner

/-- The start of a scan. -/
def start (text : List Char) : Scanner where
  cursor := Cursor.start text
  flowDepth := 0
  indent := -1
  outerIndents := []
  keyAllowed := true
  keys := [none]
  found := []
  count := 0

/-- Whether the scan is inside a flow collection. -/
def inFlow (s : Scanner) : Bool := s.flowDepth != 0

/-- The column of the cursor. -/
def column (s : Scanner) : Int := s.cursor.column

/-- Adds a token. -/
def emit (s : Scanner) (t : Token) : Scanner :=
  { s with found := t :: s.found, count := s.count + 1 }

/-- Adds a token before the last `back` ones. -/
def emitBack (s : Scanner) (back : Nat) (t : Token) : Scanner :=
  { s with found := s.found.take back ++ t :: s.found.drop back, count := s.count + 1 }

/-- Moves the cursor. -/
def moveTo (s : Scanner) (c : Cursor) : Scanner := { s with cursor := c }

/-! ## Candidates for keys -/

/-- Whether a candidate lies on an earlier line, or too far back. -/
def isStale (s : Scanner) (k : KeyCandidate) : Bool :=
  k.line < s.cursor.line || k.index + 1024 < s.cursor.index

/-- Gives up stale candidates; one that was required breaks the text. -/
def dropStale (s : Scanner) : Option Scanner :=
  if s.keys.any fun k => k.any fun k => s.isStale k && k.required then none
  else some { s with keys := s.keys.map fun k => k.filter fun k => !s.isStale k }

/-- Gives up the innermost candidate; one that was required breaks the text. -/
def dropKey (s : Scanner) : Option Scanner :=
  match s.keys with
  | some k :: rest => if k.required then none else some { s with keys := none :: rest }
  | _ => some s

/-- Notes that a key may start at the cursor, if one is allowed there. -/
def noteKey (s : Scanner) : Option Scanner :=
  if s.keyAllowed then
    match s.dropKey with
    | none => none
    | some s =>
      some { s with keys := some {
        required := !s.inFlow && s.indent == s.column
        number := s.count
        index := s.cursor.index
        line := s.cursor.line
        column := s.cursor.column } :: s.keys.drop 1 }
  else some s

/-! ## Blocks -/

/-- Opens a block at a column right of the current one; `back` is how many tokens already found
belong to it. -/
def openBlock (s : Scanner) (column : Int) (back : Nat) (t : Token) : Scanner :=
  if !s.inFlow && s.indent < column then
    { s.emitBack back t with indent := column, outerIndents := s.indent :: s.outerIndents }
  else s

/-- Closes the blocks right of a column; there are at most `n`. -/
def closeBlocks (column : Int) : Nat → Scanner → Scanner
  | 0, s => s
  | n + 1, s =>
    if column < s.indent then
      closeBlocks column n
        { s.emit .blockEnd with
          indent := s.outerIndents.headD (-1), outerIndents := s.outerIndents.drop 1 }
    else s

/-- Closes the blocks right of a column, outside flow collections. -/
def unwind (s : Scanner) (column : Int) : Scanner :=
  if s.inFlow then s else closeBlocks column (s.outerIndents.length + 1) s

/-! ## Between tokens -/

/-- Moves to the next character that is part of a token. A new line outside flow collections
allows a key, and a tab may not stand where one is allowed. -/
def skipToToken : Nat → Scanner → Scanner
  | 0, s => s
  | fuel + 1, s =>
    let c := s.cursor
    let c := if c.column = 0 && c.has 0 byteOrderMark then c.skip 1 else c
    let c := c.skipWhile fun x => x == ' ' || ((s.inFlow || !s.keyAllowed) && x == '\t')
    let c := if c.has 0 '#' then c.skipWhile (fun x => !isBreak x) else c
    if c.test 0 isBreak then
      skipToToken fuel { s.moveTo c.skipBreak with keyAllowed := s.keyAllowed || !s.inFlow }
    else s.moveTo c

/-! ## Tokens -/

/-- Ends every block at the end of the text, as if on a new line. -/
def takeEnd (s : Scanner) : Option Scanner :=
  let c := s.cursor
  let c := if c.column = 0 then c else { c with column := 0, line := c.line + 1 }
  ((s.moveTo c).unwind (-1)).dropKey.map fun s =>
    { s.emit .streamEnd with keyAllowed := false }

/-- A directive line. -/
def takeDirective (fuel : Nat) (s : Scanner) : Option Scanner := do
  let s ← (s.unwind (-1)).dropKey
  let (directive, c) ← readDirective fuel s.cursor
  let t :=
    match directive with
    | .version major minor => Token.version major minor
    | .handle name replacement => Token.handle name replacement
  some { (s.moveTo c).emit t with keyAllowed := false }

/-- The mark that starts or ends a document. -/
def takeDocumentMark (s : Scanner) (t : Token) : Option Scanner := do
  let s ← (s.unwind (-1)).dropKey
  some { (s.moveTo (s.cursor.skip 3)).emit t with keyAllowed := false }

/-- The mark that opens a flow collection. -/
def takeFlowStart (s : Scanner) (t : Token) : Option Scanner := do
  let s ← s.noteKey
  some { (s.moveTo (s.cursor.skip 1)).emit t with
    flowDepth := s.flowDepth + 1, keys := none :: s.keys, keyAllowed := true }

/-- The mark that closes a flow collection. -/
def takeFlowEnd (s : Scanner) (t : Token) : Option Scanner := do
  let s ← s.dropKey
  some { (s.moveTo (s.cursor.skip 1)).emit t with
    flowDepth := s.flowDepth - 1
    keys := if s.inFlow then s.keys.drop 1 else s.keys
    keyAllowed := false }

/-- The comma of a flow collection. -/
def takeComma (s : Scanner) : Option Scanner := do
  let s ← s.dropKey
  some { (s.moveTo (s.cursor.skip 1)).emit .comma with keyAllowed := true }

/-- The dash of a block sequence. -/
def takeItem (s : Scanner) : Option Scanner :=
  if !s.inFlow && !s.keyAllowed then none
  else do
    let s ← (s.openBlock s.column 0 .blockSequenceStart).dropKey
    some { (s.moveTo (s.cursor.skip 1)).emit .item with keyAllowed := true }

/-- The question mark before a key. -/
def takeKey (s : Scanner) : Option Scanner :=
  if !s.inFlow && !s.keyAllowed then none
  else do
    let s ← (s.openBlock s.column 0 .blockMappingStart).dropKey
    some { (s.moveTo (s.cursor.skip 1)).emit .key with keyAllowed := !s.inFlow }

/-- The colon before a value. A candidate for a key becomes one; without any, the value has an
empty key or one that was marked. -/
def takeValue (s : Scanner) : Option Scanner :=
  let close (s : Scanner) (allowed : Bool) : Scanner :=
    { (s.moveTo (s.cursor.skip 1)).emit .value with keyAllowed := allowed }
  match s.keys with
  | some k :: rest =>
    let back := s.count - k.number
    let s := { s.emitBack back .key with keys := none :: rest }
    some (close (s.openBlock k.column (back + 1) .blockMappingStart) false)
  | _ =>
    if !s.inFlow && !s.keyAllowed then none
    else some (close (s.openBlock s.column 0 .blockMappingStart) (!s.inFlow))

/-- The name of an anchor or an alias. -/
def takeName (s : Scanner) (t : String → Token) : Option Scanner := do
  let s ← s.noteKey
  let (name, c) ← readName (s.cursor.skip 1)
  some { (s.moveTo c).emit (t name) with keyAllowed := false }

/-- A tag. -/
def takeTag (fuel : Nat) (s : Scanner) : Option Scanner := do
  let s ← s.noteKey
  let (handle, suffix, c) ← readTag s.inFlow fuel s.cursor
  some { (s.moveTo c).emit (.tag handle suffix) with keyAllowed := false }

/-- A block scalar. -/
def takeBlock (fuel : Nat) (s : Scanner) (literal : Bool) : Option Scanner := do
  let s ← s.dropKey
  let (text, c) ← readBlock literal s.indent fuel (s.cursor.skip 1)
  some { (s.moveTo c).emit
    (.scalar (String.ofList text) (if literal then .literal else .folded)) with keyAllowed := true }

/-- A quoted scalar. -/
def takeQuoted (fuel : Nat) (s : Scanner) (single : Bool) : Option Scanner := do
  let s ← s.noteKey
  let (text, c) ← readQuoted single fuel (s.cursor.skip 1) []
  some { (s.moveTo c).emit
    (.scalar (String.ofList text) (if single then .singleQuoted else .doubleQuoted)) with
    keyAllowed := false }

/-- A plain scalar; a line break after it allows a key. -/
def takePlain (fuel : Nat) (s : Scanner) : Option Scanner := do
  let s ← s.noteKey
  let (text, broken, c) ← readPlain s.inFlow (s.indent + 1) fuel s.cursor Gap.none []
  some { (s.moveTo c).emit (.scalar (String.ofList text) .plain) with keyAllowed := broken }

/-- Whether a plain scalar starts at the cursor with the given character. -/
def startsPlain (s : Scanner) (x : Char) : Bool :=
  if x == '-' then !(s.cursor.test 1 isGap)
  else if x == '?' || x == ':' then !s.inFlow && !s.cursor.gapOrEnd 1
  else !(isGap x || isBreak x || ",[]\x7b\x7d#&*!|>\x27\"%@\x60".toList.contains x)

/-- Takes the token that starts with the given character at the cursor. -/
def takeToken (fuel : Nat) (s : Scanner) (x : Char) : Option Scanner :=
  let c := s.cursor
  if c.column = 0 && x == '%' then takeDirective fuel s
  else if c.atMark '-' then s.takeDocumentMark .documentStart
  else if c.atMark '.' then s.takeDocumentMark .documentEnd
  else if x == '[' then s.takeFlowStart .flowSequenceStart
  else if x == '\x7b' then s.takeFlowStart .flowMappingStart
  else if x == ']' then s.takeFlowEnd .flowSequenceEnd
  else if x == '\x7d' then s.takeFlowEnd .flowMappingEnd
  else if x == ',' then s.takeComma
  else if x == '-' && c.gapOrEnd 1 then s.takeItem
  else if x == '?' && (s.inFlow || c.gapOrEnd 1) then s.takeKey
  else if x == ':' && (s.inFlow || c.gapOrEnd 1) then s.takeValue
  else if x == '*' then s.takeName .alias
  else if x == '&' then s.takeName .anchor
  else if x == '!' then takeTag fuel s
  else if x == '|' && !s.inFlow then takeBlock fuel s true
  else if x == '>' && !s.inFlow then takeBlock fuel s false
  else if x == '\x27' then takeQuoted fuel s true
  else if x == '"' then takeQuoted fuel s false
  else if s.startsPlain x then takePlain fuel s
  else none

/-- Takes the next token, together with the ends of the blocks that it closes. -/
def step (fuel : Nat) (s : Scanner) : Option Scanner := do
  let s ← (skipToToken fuel s).dropStale
  let s := s.unwind s.column
  let s ←
    match s.cursor.peek 0 with
    | none => s.takeEnd
    | some x => takeToken fuel s x
  s.dropStale

/-- The tokens found before the first open candidate for a key. -/
def settled (s : Scanner) : List Token :=
  let numbers := s.keys.filterMap fun k => k.map KeyCandidate.number
  (s.found.reverse).take (numbers.foldl min s.count)

/-- Takes tokens up to the end of the text, or to the place where it breaks a rule. -/
def run : Nat → Scanner → List Token
  | 0, s => s.settled
  | fuel + 1, s =>
    match step (fuel + 1) s with
    | none => s.settled
    | some s => if s.found.head? == some .streamEnd then s.found.reverse else run fuel s

end Scanner

/-- The tokens of characters that are all allowed; a byte order mark at the start is none of them. -/
def scanAllowed (text : List Char) : List Token :=
  let text := if text.head? == some byteOrderMark then text.drop 1 else text
  Scanner.run (text.length + 2) (Scanner.start text)

/-- The tokens of a text. They end with `streamEnd` unless the text breaks a rule. A text with a
character that no document may hold has no tokens. -/
def scan (text : String) : List Token :=
  if text.all isAllowed then scanAllowed text.toList else []

/-- Only the characters of a text matter to its tokens. -/
theorem scan_eq (text : String) :
    scan text = if text.toList.all isAllowed then scanAllowed text.toList else [] := by
  simp [scan, String.all_bool_eq]

end ReleaseCandidates.Yaml
