set_option autoImplicit false

/-! # Places in a YAML text

Which token starts at a place hangs on the column and on the line of the place, so a text is walked
with a cursor that keeps count of both. Five characters break a line; a carriage return with a line
feed after it breaks it once. -/

namespace ReleaseCandidates.Yaml

/-! ## Character classes -/

/-- The next-line character. -/
def nextLine : Char := Char.ofNat 0x85

/-- The line separator. -/
def lineSeparator : Char := Char.ofNat 0x2028

/-- The paragraph separator. -/
def paragraphSeparator : Char := Char.ofNat 0x2029

/-- The byte order mark. -/
def byteOrderMark : Char := Char.ofNat 0xFEFF

/-- Whether the character breaks a line. -/
def isBreak (c : Char) : Bool :=
  c == '\n' || c == '\r' || c == nextLine || c == lineSeparator || c == paragraphSeparator

/-- Whether the character is a space or a tab. -/
def isGap (c : Char) : Bool :=
  c == ' ' || c == '\t'

/-- Whether the character may stand in the name of an anchor, a directive or a tag handle. -/
def isWordChar (c : Char) : Bool :=
  c.isAlphanum || c == '_' || c == '-'

/-- Whether a document may hold the character. -/
def isAllowed (c : Char) : Bool :=
  let n := c.toNat
  n == 9 || n == 10 || n == 13 || (0x20 ≤ n && n ≤ 0x7E) || n == 0x85 ||
    (0xA0 ≤ n && n ≤ 0xD7FF) || (0xE000 ≤ n && n ≤ 0xFFFD) || 0x10000 ≤ n

/-! ## Cursors -/

/-- A place in a text: what follows, and how far from the start it is. -/
structure Cursor where
  rest : List Char
  index : Nat
  line : Nat
  column : Nat
  deriving Repr

namespace Cursor

/-- The start of a text. -/
def start (text : List Char) : Cursor := ⟨text, 0, 0, 0⟩

/-- The character `n` places on. -/
def peek (c : Cursor) (n : Nat) : Option Char := c.rest[n]?

/-- Whether the character `n` places on is the given one. -/
def has (c : Cursor) (n : Nat) (x : Char) : Bool := c.peek n == some x

/-- Whether the character `n` places on passes a test. -/
def test (c : Cursor) (n : Nat) (p : Char → Bool) : Bool := (c.peek n).any p

/-- Whether the text has no character `n` places on. -/
def endsAt (c : Cursor) (n : Nat) : Bool := (c.peek n).isNone

/-- Whether a line break or the end of the text is `n` places on. -/
def breakOrEnd (c : Cursor) (n : Nat) : Bool := (c.peek n).all isBreak

/-- Whether a gap, a line break or the end of the text is `n` places on. -/
def gapOrEnd (c : Cursor) (n : Nat) : Bool := (c.peek n).all fun x => isGap x || isBreak x

/-- The place `n` characters on in the same line. -/
def skip (c : Cursor) (n : Nat) : Cursor :=
  { rest := c.rest.drop n, index := c.index + n, line := c.line, column := c.column + n }

/-- The place after the characters that pass a test, all in the same line. -/
def skipWhile (c : Cursor) (p : Char → Bool) : Cursor :=
  let n := (c.rest.takeWhile p).length
  { rest := c.rest.dropWhile p, index := c.index + n, line := c.line, column := c.column + n }

/-- The place after a line break, and the text it stands for: a line feed, but for the two
separators, which stay themselves. Without a line break nothing happens. -/
def takeBreak (c : Cursor) : List Char × Cursor :=
  let next (n : Nat) (rest : List Char) : Cursor := ⟨rest, c.index + n, c.line + 1, 0⟩
  match c.rest with
  | '\r' :: '\n' :: rest => (['\n'], next 2 rest)
  | x :: rest =>
    if x == lineSeparator || x == paragraphSeparator then ([x], next 1 rest)
    else if isBreak x then (['\n'], next 1 rest)
    else ([], c)
  | [] => ([], c)

/-- The place after a line break, if one follows. -/
def skipBreak (c : Cursor) : Cursor := c.takeBreak.2

/-- Whether three given characters stand at the start of a line, with a gap or the end after
them. -/
def atMark (c : Cursor) (x : Char) : Bool :=
  c.column == 0 && c.has 0 x && c.has 1 x && c.has 2 x && c.gapOrEnd 3

/-- Whether a document starts or ends here by a mark of its own. -/
def atDocumentMark (c : Cursor) : Bool :=
  c.atMark '-' || c.atMark '.'

/-- The place after the gaps and the comment in the rest of a line. -/
def skipComment (c : Cursor) : Cursor :=
  let c := c.skipWhile isGap
  if c.has 0 '#' then c.skipWhile (fun x => !isBreak x) else c

end Cursor

end ReleaseCandidates.Yaml
