import ReleaseCandidates.Yaml.Cursor
import ReleaseCandidates.Yaml.Meaning
import ReleaseCandidates.Yaml.Node

set_option autoImplicit false

/-! # Writing YAML

What the program stores is a tree of texts, lists and records with plain keys. It is written in
block style, lists at the column of the record around them. A text stands plain where it then reads
back as the same text, else between single quotes; several lines make a literal block; what neither
can hold stands between double quotes, with escapes. -/

namespace ReleaseCandidates.Yaml

/-- What is written to a file. -/
inductive Tree where
  | text (s : String)
  | list (items : List Tree)
  | record (fields : List (String × Tree))
  deriving Repr

/-! ## How a text is set apart -/

/-- Whether the character may stand unescaped: a line feed or a visible character. -/
def isPrintable (c : Char) : Bool :=
  let n := c.toNat
  n == 10 || (0x20 ≤ n && n ≤ 0x7E) || (0xA0 ≤ n && n ≤ 0xFFFD && n != 0xFEFF) || 0x10000 ≤ n

/-- Whether a gap, a break or nothing stands first. -/
def startsWithGap (cs : List Char) : Bool :=
  match cs with
  | [] => true
  | c :: _ => isGap c || isBreak c || c.toNat == 0

/-- Whether the text holds, after its first character, a colon before a gap or a number sign after
one; `before` is the character in front. -/
def hasInnerMark (before : Char) : List Char → Bool
  | [] => false
  | c :: cs =>
    (c == ':' && startsWithGap cs) || (c == '#' && startsWithGap [before]) || hasInnerMark c cs

/-- Whether the text would be taken for something else if it stood plain in a block. -/
def hasMark (cs : List Char) : Bool :=
  match cs with
  | [] => false
  | c :: rest =>
    ['-', '-', '-'].isPrefixOf cs || ['.', '.', '.'].isPrefixOf cs ||
      "#,[]\x7b\x7d&*!|>\x27\"%@\x60".toList.contains c ||
      ((c == '?' || c == ':' || c == '-') && startsWithGap rest) || hasInnerMark c rest

/-- Whether two neighbours, the first passing `p` and the second `q`, occur in the text. -/
def hasNeighbours (p q : Char → Bool) : List Char → Bool
  | a :: b :: rest => (p a && q b) || hasNeighbours p q (b :: rest)
  | _ => false

/-- Whether no quoting but double quotes can hold the text: it has a character that must be
escaped, or a line that ends in a space. -/
def needsEscapes (cs : List Char) : Bool :=
  !cs.all isPrintable || hasNeighbours (· == ' ') isBreak cs

/-- Whether the text can stand plain in a block. -/
def allowsPlain (cs : List Char) : Bool :=
  let edge (c : Char) : Bool := c == ' ' || isBreak c
  !needsEscapes cs && !cs.any isBreak && !hasMark cs && !cs.head?.any edge && !cs.getLast?.any edge

/-- Whether the text can stand between single quotes: no line starts with a space. -/
def allowsSingle (cs : List Char) : Bool :=
  !needsEscapes cs && !hasNeighbours isBreak (· == ' ') cs

/-- Whether the text can stand in a block of its own. -/
def allowsLiteral (cs : List Char) : Bool :=
  !needsEscapes cs && !(cs.getLast? == some ' ')

/-- Whether the text is a row of two or more digits that starts with a zero, after a sign or
without one. It is a text, but other readers may take it for a number. -/
def looksNumeric (cs : List Char) : Bool :=
  let digits :=
    match cs with
    | '-' :: rest | '+' :: rest => rest
    | cs => cs
  match digits with
  | '0' :: d :: rest => (d :: rest).all Char.isDigit
  | _ => false

/-- How a text is written. -/
def writtenStyle (s : String) : Style :=
  let cs := s.toList
  if cs.contains '\n' then
    if allowsLiteral cs then .literal else .doubleQuoted
  else if meaning s = .text s && !looksNumeric cs && allowsPlain cs then .plain
  else if allowsSingle cs then .singleQuoted
  else .doubleQuoted

/-! ## Scalars -/

/-- Spaces up to a column. -/
def spaces (n : Nat) : List Char := List.replicate n ' '

/-- The text between single quotes, a quote doubled. After a line separator the next line is
indented; `broken` says that one was just written. -/
def singleQuoted (indent : Nat) (broken : Bool) : List Char → List Char
  | [] => if broken then spaces indent else []
  | c :: cs =>
    if isBreak c then c :: singleQuoted indent true cs
    else
      (if broken then spaces indent else []) ++
        (if c == '\x27' then ['\x27', '\x27'] else [c]) ++ singleQuoted indent false cs

/-- A hexadecimal digit in upper case. -/
def hexDigit (n : Nat) : Char :=
  if n < 10 then Char.ofNat (48 + n) else Char.ofNat (55 + n)

/-- The last `width` hexadecimal digits of a number. -/
def hexDigits : Nat → Nat → List Char
  | 0, _ => []
  | width + 1, n => hexDigits width (n / 16) ++ [hexDigit (n % 16)]

/-- What stands after the backslash for a character. -/
def escapeTail (c : Char) : List Char :=
  match c.toNat with
  | 0 => ['0']
  | 7 => ['a']
  | 8 => ['b']
  | 9 => ['t']
  | 10 => ['n']
  | 11 => ['v']
  | 12 => ['f']
  | 13 => ['r']
  | 0x1B => ['e']
  | 0x22 => ['"']
  | 0x5C => ['\\']
  | 0x85 => ['N']
  | 0xA0 => ['_']
  | 0x2028 => ['L']
  | 0x2029 => ['P']
  | n =>
    if n ≤ 0xFF then 'x' :: hexDigits 2 n
    else if n ≤ 0xFFFF then 'u' :: hexDigits 4 n
    else 'U' :: hexDigits 8 n

/-- The text between double quotes. -/
def doubleQuoted : List Char → List Char
  | [] => []
  | c :: cs =>
    (if !isPrintable c || isBreak c || c == '"' || c == '\\' then '\\' :: escapeTail c else [c]) ++
      doubleQuoted cs

/-- The mark that says how the line breaks at the end of a literal block are kept. -/
def chompingMark (cs : List Char) : List Char :=
  match cs.reverse with
  | [] => ['-']
  | [c] => if isBreak c then ['+'] else ['-']
  | c :: d :: _ => if !isBreak c then ['-'] else if isBreak d then ['+'] else []

/-- The lines of a literal block, each one indented; `atStart` says that a line starts. -/
def literalLines (indent : Nat) (atStart : Bool) : List Char → List Char
  | [] => []
  | c :: cs =>
    if isBreak c then c :: literalLines indent true cs
    else (if atStart then spaces indent else []) ++ c :: literalLines indent false cs

/-- A scalar in a line, with the end of the line. Further lines of it stand at `indent`. -/
def scalarLines (indent : Nat) (s : String) : List Char :=
  let cs := s.toList
  match writtenStyle s with
  | .plain => cs ++ ['\n']
  | .singleQuoted => '\x27' :: singleQuoted indent false cs ++ ['\x27', '\n']
  | .doubleQuoted => '"' :: doubleQuoted cs ++ ['"', '\n']
  | .literal | .folded =>
    let lead := if cs.head?.any fun c => c == ' ' || isBreak c then ['2'] else []
    '|' :: lead ++ chompingMark cs ++ '\n' :: literalLines indent true cs ++
      (if cs.getLast?.any isBreak then [] else ['\n'])

/-! ## Trees -/

namespace Tree

mutual

/-- The lines of a tree whose first line has already been indented to column `n`. -/
def lines (n : Nat) : Tree → List Char
  | .text s => scalarLines (n + 2) s
  | .list [] => "[]\n".toList
  | .list (t :: ts) => "- ".toList ++ lines (n + 2) t ++ itemLines n ts
  | .record [] => "\x7b\x7d\n".toList
  | .record ((k, t) :: fields) => k.toList ++ ':' :: fieldLines n t ++ recordLines n fields

/-- The lines of the items of a list at column `n`. -/
def itemLines (n : Nat) : List Tree → List Char
  | [] => []
  | t :: ts => spaces n ++ "- ".toList ++ lines (n + 2) t ++ itemLines n ts

/-- The lines of the fields of a record at column `n`. -/
def recordLines (n : Nat) : List (String × Tree) → List Char
  | [] => []
  | (k, t) :: fields => spaces n ++ k.toList ++ ':' :: fieldLines n t ++ recordLines n fields

/-- What follows the colon of a field in a record at column `n`. -/
def fieldLines (n : Nat) : Tree → List Char
  | .text s => ' ' :: scalarLines (n + 2) s
  | .list [] => " []\n".toList
  | .list (t :: ts) => '\n' :: spaces n ++ "- ".toList ++ lines (n + 2) t ++ itemLines n ts
  | .record [] => " \x7b\x7d\n".toList
  | .record ((k, t) :: fields) =>
    '\n' :: spaces (n + 2) ++ k.toList ++ ':' :: fieldLines (n + 2) t ++ recordLines (n + 2) fields

end

mutual

/-- The text that is written last. -/
def lastText : Tree → Option String
  | .text s => some s
  | .list items => lastOfItems items
  | .record fields => lastOfFields fields

/-- The text that is written last in a list. -/
def lastOfItems : List Tree → Option String
  | [] => none
  | [t] => t.lastText
  | _ :: t :: ts => lastOfItems (t :: ts)

/-- The text that is written last in a record. -/
def lastOfFields : List (String × Tree) → Option String
  | [] => none
  | [(_, t)] => t.lastText
  | _ :: f :: fs => lastOfFields (f :: fs)

end

/-- Whether a text is written as a block that keeps all its line breaks. -/
def keepsBreaks (s : String) : Bool :=
  writtenStyle s == .literal && chompingMark s.toList == ['+']

/-- The document that holds a tree. Line breaks kept at its end are closed by an end mark. -/
def render (t : Tree) : String :=
  String.ofList (t.lines 0 ++ if t.lastText.any keepsBreaks then "...\n".toList else [])

mutual

/-- The tree as it is read back. -/
def node : Tree → Node
  | .text s => .scalar ⟨s, writtenStyle s, none⟩
  | .list items => .sequence none (itemNodes items)
  | .record fields => .mapping none (fieldNodes fields)

/-- The items of a list as they are read back. -/
def itemNodes : List Tree → List Node
  | [] => []
  | t :: ts => t.node :: itemNodes ts

/-- The fields of a record as they are read back. -/
def fieldNodes : List (String × Tree) → List (Node × Node)
  | [] => []
  | (k, t) :: fields => (.scalar ⟨k, .plain, none⟩, t.node) :: fieldNodes fields

end

end Tree

end ReleaseCandidates.Yaml
