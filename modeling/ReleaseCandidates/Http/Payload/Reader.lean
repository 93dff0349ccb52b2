import ReleaseCandidates.Http.Payload
import ReleaseCandidates.Http.Percent

set_option autoImplicit false

/-! # Reading payloads

A value is read from the front of a text together with the text after it. The steps take a bound on
their number; the length of the text is one that is never reached. -/

namespace ReleaseCandidates.Http.Payload

/-- The blanks between the parts of a value. -/
def isBlank (c : Char) : Bool :=
  c == ' ' || c == '\t' || c == '\n' || c == '\r'

/-- The text from the first character that is no blank on. -/
def skipBlanks (cs : List Char) : List Char :=
  cs.dropWhile isBlank

/-- The number that four hexadecimal digits at the front stand for. -/
def readHex4 : List Char → Option (Nat × List Char)
  | a :: b :: c :: d :: rest =>
    match Percent.hexValue? a, Percent.hexValue? b, Percent.hexValue? c, Percent.hexValue? d with
    | some w, some x, some y, some z => some (4096 * w + 256 * x + 16 * y + z, rest)
    | _, _, _, _ => none
  | _ => none

/-- The character that a code after `\u` stands for; the two halves of a pair make one. -/
def readCode (cs : List Char) : Option (Char × List Char) :=
  match readHex4 cs with
  | none => none
  | some (n, rest) =>
    if 0xD800 ≤ n ∧ n < 0xDC00 then
      match rest with
      | '\\' :: 'u' :: rest =>
        match readHex4 rest with
        | some (m, rest) =>
          if 0xDC00 ≤ m ∧ m < 0xE000 then
            some (Char.ofNat (0x10000 + 1024 * (n - 0xD800) + (m - 0xDC00)), rest)
          else none
        | none => none
      | _ => none
    else if 0xDC00 ≤ n ∧ n < 0xE000 then none
    else some (Char.ofNat n, rest)

/-- The character that follows a backslash. -/
def readEscape : List Char → Option (Char × List Char)
  | '"' :: rest => some ('"', rest)
  | '\\' :: rest => some ('\\', rest)
  | '/' :: rest => some ('/', rest)
  | 'b' :: rest => some ('\x08', rest)
  | 'f' :: rest => some ('\x0c', rest)
  | 'n' :: rest => some ('\n', rest)
  | 'r' :: rest => some ('\r', rest)
  | 't' :: rest => some ('\t', rest)
  | 'u' :: rest => readCode rest
  | _ => none

/-- The text up to the closing quote; what was read before comes in reverse. -/
def readText : Nat → List Char → List Char → Option (String × List Char)
  | 0, _, _ => none
  | _ + 1, _, [] => none
  | _ + 1, acc, '"' :: rest => some (String.ofList acc.reverse, rest)
  | bound + 1, acc, '\\' :: rest =>
    match readEscape rest with
    | some (c, rest) => readText bound (c :: acc) rest
    | none => none
  | bound + 1, acc, c :: rest => if c.toNat < 0x20 then none else readText bound (c :: acc) rest

/-- One or more digits at the front. -/
def readDigits (cs : List Char) : Option (List Char × List Char) :=
  match cs.takeWhile Char.isDigit with
  | [] => none
  | digits => some (digits, cs.dropWhile Char.isDigit)

/-- The whole part of a number: a zero, or digits that do not start with one. -/
def readWhole : List Char → Option (List Char × List Char)
  | '0' :: rest => if rest.head?.any Char.isDigit then none else some (['0'], rest)
  | cs => readDigits cs

/-- The digits after a point, with the point, if there is one. -/
def readFraction : List Char → Option (List Char × List Char)
  | '.' :: rest => (readDigits rest).map fun (digits, rest) => ('.' :: digits, rest)
  | cs => some ([], cs)

/-- An exponent, if there is one. -/
def readExponent : List Char → Option (List Char × List Char)
  | c :: rest =>
    if c = 'e' ∨ c = 'E' then
      match rest with
      | '+' :: rest => (readDigits rest).map fun (digits, rest) => (c :: '+' :: digits, rest)
      | '-' :: rest => (readDigits rest).map fun (digits, rest) => (c :: '-' :: digits, rest)
      | rest => (readDigits rest).map fun (digits, rest) => (c :: digits, rest)
    else some ([], c :: rest)
  | [] => some ([], [])

/-- A number at the front. -/
def readNumber (cs : List Char) : Option (Payload × List Char) := do
  let (sign, cs) := if cs.head? = some '-' then (['-'], cs.drop 1) else ([], cs)
  let (whole, cs) ← readWhole cs
  let (fraction, cs) ← readFraction cs
  let (exponent, cs) ← readExponent cs
  return (.number (String.ofList (sign ++ whole ++ fraction ++ exponent)), cs)

/-- A word at the front, for the value it stands for. -/
def readWord (word : String) (value : Payload) (cs : List Char) : Option (Payload × List Char) :=
  if word.toList.isPrefixOf cs then some (value, cs.drop word.length) else none

mutual

/-- A value at the front of a text without blanks before it. -/
def readValue : Nat → List Char → Option (Payload × List Char)
  | 0, _ => none
  | bound + 1, cs =>
    match cs with
    | 'n' :: _ => readWord "null" .null cs
    | 't' :: _ => readWord "true" (.truth true) cs
    | 'f' :: _ => readWord "false" (.truth false) cs
    | '"' :: rest => (readText (rest.length + 1) [] rest).map fun (s, rest) => (.text s, rest)
    | '[' :: rest =>
      match skipBlanks rest with
      | ']' :: rest => some (.list [], rest)
      | rest => readItems bound [] rest
    | '\x7b' :: rest =>
      match skipBlanks rest with
      | '\x7d' :: rest => some (.record [], rest)
      | rest => readFields bound [] rest
    | cs => readNumber cs

/-- The items of a list up to its closing bracket. -/
def readItems : Nat → List Payload → List Char → Option (Payload × List Char)
  | 0, _, _ => none
  | bound + 1, acc, cs =>
    match readValue bound cs with
    | none => none
    | some (v, rest) =>
      match skipBlanks rest with
      | ',' :: rest => readItems bound (v :: acc) (skipBlanks rest)
      | ']' :: rest => some (.list (v :: acc).reverse, rest)
      | _ => none

/-- The fields of a record up to its closing brace. -/
def readFields : Nat → List (String × Payload) → List Char → Option (Payload × List Char)
  | 0, _, _ => none
  | bound + 1, acc, cs =>
    match cs with
    | '"' :: rest =>
      match readText (rest.length + 1) [] rest with
      | none => none
      | some (name, rest) =>
        match skipBlanks rest with
        | ':' :: rest =>
          match readValue bound (skipBlanks rest) with
          | none => none
          | some (v, rest) =>
            match skipBlanks rest with
            | ',' :: rest => readFields bound ((name, v) :: acc) (skipBlanks rest)
            | '\x7d' :: rest => some (.record ((name, v) :: acc).reverse, rest)
            | _ => none
        | _ => none
    | _ => none

end

/-- The value that a text holds, with nothing but blanks around it. -/
def parse? (s : String) : Option Payload :=
  let cs := skipBlanks s.toList
  match readValue (cs.length + 1) cs with
  | some (v, rest) => if (skipBlanks rest).isEmpty then some v else none
  | none => none

end ReleaseCandidates.Http.Payload
