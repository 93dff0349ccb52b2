import ReleaseCandidates.Yaml.Token.Text

set_option autoImplicit false

/-! # Tags, anchors and directives

The short marks that stand before a node or before a document: `!handle!suffix` and `!<address>`,
`&name` and `*name`, and the lines that start with a percent sign. Each function starts at the mark
and gives what it says together with the place after it. -/

namespace ReleaseCandidates.Yaml

/-! ## Addresses -/

/-- Whether the character may stand in a tag; `full` allows the marks of flow collections too. -/
def isTagChar (full : Bool) (x : Char) : Bool :=
  isWordChar x || ";/?:@&=+$.%!~*\x27()".toList.contains x || (full && ",[]".toList.contains x)

/-- The number of bytes of a character whose first byte is given, and the bits of that byte that
count. -/
def leadByte? (b : Nat) : Option (Nat × Nat) :=
  if b < 0x80 then some (1, b)
  else if 0xC0 ≤ b ∧ b < 0xE0 then some (2, b - 0xC0)
  else if 0xE0 ≤ b ∧ b < 0xF0 then some (3, b - 0xE0)
  else if 0xF0 ≤ b ∧ b < 0xF8 then some (4, b - 0xF0)
  else none

/-- Reads `n` percent-encoded continuation bytes. -/
def readTailBytes (acc : Nat) : Nat → List Char → Option (Nat × List Char)
  | 0, cs => some (acc, cs)
  | n + 1, '%' :: a :: b :: cs =>
    match hexDigits? 0 2 [a, b] with
    | some byte =>
      if 0x80 ≤ byte ∧ byte < 0xC0 then readTailBytes (acc * 64 + (byte - 0x80)) n cs else none
    | none => none
  | _ + 1, _ => none

/-- Reads one percent-encoded character. -/
def readPercent : List Char → Option (Char × List Char)
  | '%' :: a :: b :: cs =>
    match (hexDigits? 0 2 [a, b]).bind leadByte? with
    | some (width, bits) =>
      (readTailBytes bits (width - 1) cs).map fun (n, rest) => (Char.ofNat n, rest)
    | none => none
  | _ => none

/-- Reads the characters of a tag, percent-encoded ones decoded; `acc` holds them last one
first. -/
def readTagChars (full : Bool) : Nat → Cursor → List Char → Option (List Char × Cursor)
  | 0, c, acc => some (acc.reverse, c)
  | fuel + 1, c, acc =>
    match c.peek 0 with
    | none => some (acc.reverse, c)
    | some x =>
      if !isTagChar full x then some (acc.reverse, c)
      else if x == '%' then
        match readPercent c.rest with
        | some (y, rest) =>
          readTagChars full fuel (c.skip (c.rest.length - rest.length)) (y :: acc)
        | none => none
      else readTagChars full fuel (c.skip 1) (x :: acc)

/-- Reads a handle: an exclamation mark, word characters, and a second exclamation mark if there
is one. -/
def readHandle (c : Cursor) : Option (List Char × Cursor) :=
  if !c.has 0 '!' then none
  else
    let word := (c.rest.drop 1).takeWhile isWordChar
    let after := c.skip (1 + word.length)
    if after.has 0 '!' then some ('!' :: word ++ ['!'], after.skip 1)
    else some ('!' :: word, after)

/-! ## Marks before a node -/

/-- Reads a tag: its handle, empty for a full address, and what follows the handle. -/
def readTag (inFlow : Bool) (fuel : Nat) (c : Cursor) : Option (String × String × Cursor) :=
  let closes (c : Cursor) : Bool := c.gapOrEnd 0 || (inFlow && c.has 0 ',')
  if c.has 1 '<' then
    match readTagChars true fuel (c.skip 2) [] with
    | some (suffix, c) =>
      if suffix.isEmpty || !c.has 0 '>' || !closes (c.skip 1) then none
      else some ("", String.ofList suffix, c.skip 1)
    | none => none
  else
    match readHandle c with
    | none => none
    | some (handle, c) =>
      if handle.length > 1 && handle.getLast? == some '!' then
        match readTagChars false fuel c [] with
        | some (suffix, c) =>
          if suffix.isEmpty || !closes c then none
          else some (String.ofList handle, String.ofList suffix, c)
        | none => none
      else
        match readTagChars false fuel c [] with
        | some (suffix, c) =>
          if !closes c then none
          else
            let suffix := handle.drop 1 ++ suffix
            if suffix.isEmpty then some ("", "!", c) else some ("!", String.ofList suffix, c)
        | none => none

/-- Reads the name of an anchor or an alias after its mark. -/
def readName (c : Cursor) : Option (String × Cursor) :=
  let name := c.rest.takeWhile isWordChar
  let after := c.skip name.length
  if name.isEmpty || !(after.gapOrEnd 0 || after.test 0 ("?:,]\x7d%@\x60".toList.contains ·)) then
    none
  else some (String.ofList name, after)

/-! ## Directives -/

/-- A line that says something about the document after it. -/
inductive Directive where
  | version (major minor : Nat)
  | handle (name replacement : String)

/-- Reads a number of at most nine digits. -/
def readVersionNumber (c : Cursor) : Option (Nat × Cursor) :=
  let digits := c.rest.takeWhile Char.isDigit
  if digits.isEmpty || digits.length > 9 then none
  else some (digits.foldl (fun n d => 10 * n + (d.toNat - 48)) 0, c.skip digits.length)

/-- Reads a directive at its percent sign. -/
def readDirective (fuel : Nat) (c : Cursor) : Option (Directive × Cursor) := do
  let c := c.skip 1
  let name := c.rest.takeWhile isWordChar
  let c := c.skip name.length
  if name.isEmpty || !c.gapOrEnd 0 then none
  else
    let c := c.skipWhile isGap
    let (directive, c) ←
      if name = "YAML".toList then do
        let (major, c) ← readVersionNumber c
        if !c.has 0 '.' then none
        else
          let (minor, c) ← readVersionNumber (c.skip 1)
          some (Directive.version major minor, c)
      else if name = "TAG".toList then do
        let (handle, c) ← readHandle c
        if (handle.getLast? != some '!') || !(c.test 0 isGap) then none
        else
          let (replacement, c) ← readTagChars true fuel (c.skipWhile isGap) []
          if replacement.isEmpty || !c.gapOrEnd 0 then none
          else some (Directive.handle (String.ofList handle) (String.ofList replacement), c)
      else none
    let c := c.skipComment
    if c.breakOrEnd 0 then some (directive, c.skipBreak) else none

end ReleaseCandidates.Yaml
