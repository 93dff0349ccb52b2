import ReleaseCandidates.Http.Percent
import ReleaseCandidates.Text.Pieces

set_option autoImplicit false

/-! # Addresses of web services

An address is read as a browser reads it: blanks at its ends and line breaks in it are dropped,
backslashes count as slashes, and the segments `.` and `..`, percent-encoded or not, are resolved
before anything is sent. So what a client asks for is what `Url.target` gives, whatever the text of
the address looked like. -/

namespace ReleaseCandidates.Http

/-- An address that can be asked. -/
structure Url where
  /-- Whether the connection is encrypted. -/
  secure : Bool
  host : String
  /-- The port, where it is not the usual one. -/
  port : Option Nat
  /-- The segments of the path, at least one; the last is empty if the path ends in a slash. -/
  segments : List String
  query : Option String
  fragment : Option String
  deriving DecidableEq, Repr

namespace Url

/-! ## Characters -/

/-- Control characters and those beyond ASCII, which never stand for themselves in an address. -/
def isAlwaysEncoded (c : Char) : Bool :=
  c.toNat < 0x20 || c.toNat > 0x7E

/-- The characters that are encoded in a fragment. -/
def isEncodedInFragment (c : Char) : Bool :=
  isAlwaysEncoded c || " \"<>\x60".toList.contains c

/-- The characters that are encoded in a query. -/
def isEncodedInQuery (c : Char) : Bool :=
  isAlwaysEncoded c || " \"#<>\x27".toList.contains c

/-- The characters that are encoded in a path. -/
def isEncodedInPath (c : Char) : Bool :=
  isAlwaysEncoded c || " \"#<>?\x60\x7b\x7d".toList.contains c

/-- The text with the characters of a class encoded. -/
def encodeClass (encoded : Char → Bool) (cs : List Char) : String :=
  String.ofList (cs.flatMap fun c => if encoded c then Percent.encodeBytes c else [c])

/-- Control characters and the space, which are dropped at both ends. -/
def isOuterBlank (c : Char) : Bool :=
  c.toNat ≤ 0x20

/-- The characters that are dropped everywhere. -/
def isBreak (c : Char) : Bool :=
  c == '\t' || c == '\n' || c == '\r'

/-- The text without what is dropped before it is read. -/
def clean (cs : List Char) : List Char :=
  let started := cs.dropWhile isOuterBlank
  (started.reverse.dropWhile isOuterBlank).reverse.filter fun c => !isBreak c

/-- Both kinds of slash separate. -/
def isSlash (c : Char) : Bool :=
  c == '/' || c == '\\'

/-! ## Segments -/

/-- The text in lower case with encoded dots written as dots. -/
def plainDots : List Char → List Char
  | '%' :: '2' :: e :: rest =>
    if e = 'e' ∨ e = 'E' then '.' :: plainDots rest else '%' :: '2' :: plainDots (e :: rest)
  | c :: rest => c :: plainDots rest
  | [] => []

/-- Whether a segment means the place itself. -/
def isSingleDot (segment : List Char) : Bool :=
  plainDots segment == ['.']

/-- Whether a segment means the place above. -/
def isDoubleDot (segment : List Char) : Bool :=
  plainDots segment == ['.', '.']

/-- Resolves the segments of a path, given those before them. A dot segment at the end leaves the
path ending in a slash, and nothing lies above the top. -/
def resolveFrom : List (List Char) → List (List Char) → List (List Char)
  | above, [] => above
  | above, [last] =>
    if isDoubleDot last then above.dropLast ++ [[]]
    else if isSingleDot last then above ++ [[]]
    else above ++ [last]
  | above, s :: rest =>
    if isDoubleDot s then resolveFrom above.dropLast rest
    else if isSingleDot s then resolveFrom above rest
    else resolveFrom (above ++ [s]) rest

/-- The pieces of a path between slashes of both kinds. -/
def pathPieces (cs : List Char) : List (List Char) :=
  Text.split '/' (cs.map fun c => if isSlash c then '/' else c)

/-- The segments of a path that starts with a slash or is empty. -/
def segmentsOf (path : List Char) : List String :=
  (resolveFrom [] (pathPieces (path.drop 1))).map (encodeClass isEncodedInPath)

/-! ## Hosts -/

/-- The characters that no name of a host may hold. -/
def isForbiddenInHost (c : Char) : Bool :=
  isAlwaysEncoded c || " #/:<>?@[\\]^|%".toList.contains c

/-- The value of a digit in a base, up to sixteen. -/
def digitValue? (base : Nat) (c : Char) : Option Nat :=
  (Percent.hexValue? c).filter (· < base)

/-- The number written in a base; no digits stand for zero. -/
def readNumber (base : Nat) (cs : List Char) : Option Nat :=
  cs.foldl (fun acc c => acc.bind fun n => (digitValue? base c).map (base * n + ·)) (some 0)

/-- The number that a part of a numeric host stands for: hexadecimal after `0x`, octal after `0`,
else decimal. -/
def hostNumber (part : List Char) : Option Nat :=
  match part with
  | [] => none
  | '0' :: 'x' :: rest => readNumber 16 rest
  | '0' :: rest => readNumber 8 rest
  | cs => readNumber 10 cs

/-- The parts of a name between dots, without an empty one at the end. -/
def hostParts (cs : List Char) : List (List Char) :=
  let parts := Text.split '.' cs
  if parts.length > 1 && parts.getLast? == some [] then parts.dropLast else parts

/-- Whether a name is to be read as a numeric address: its last part is a number. -/
def isNumericHost (cs : List Char) : Bool :=
  match (hostParts cs).getLast? with
  | some part =>
    (!part.isEmpty && part.all Char.isDigit) ||
      (['0', 'x'].isPrefixOf part && (hostNumber part).isSome)
  | none => false

/-- The four bytes of a number, with dots between them. -/
def dotted (n : Nat) : String :=
  String.intercalate "."
    ([n / 16777216, n / 65536 % 256, n / 256 % 256, n % 256].map toString)

/-- The numeric address that parts stand for: all but the last are bytes, and the last fills what
is left. -/
def numericAddress (parts : List Nat) : Option String :=
  let lead := parts.dropLast
  match parts.getLast? with
  | some last =>
    if parts.length ≤ 4 ∧ lead.all (· < 256) ∧ last < Nat.pow 256 (5 - parts.length) then
      some (dotted (lead.zipIdx.foldr (fun (b, i) n => b * Nat.pow 256 (3 - i) + n) last))
    else none
  | none => none

/-- Whether the text could stand between the brackets of a long numeric address. -/
def isBracketContent (cs : List Char) : Bool :=
  cs.contains ':' && cs.all fun c => c == ':' || c == '.' || (Percent.hexValue? c).isSome

/-- The characters that bytes of ASCII stand for. -/
def asciiChars? (bytes : List UInt8) : Option (List Char) :=
  if bytes.all (· < 128) then some (bytes.map fun b => Char.ofNat b.toNat) else none

/-- The host that a text names. Names beyond ASCII are not known here. -/
def hostOf (cs : List Char) : Option String :=
  match cs with
  | [] => none
  | '[' :: rest =>
    if rest.getLast? = some ']' ∧ isBracketContent rest.dropLast then
      some (String.ofList (cs.map Char.toLower))
    else none
  | cs =>
    match asciiChars? (Percent.decodeBytes cs) with
    | none => none
    | some decoded =>
      let name := decoded.map Char.toLower
      if name.isEmpty || name.any isForbiddenInHost then none
      else if isNumericHost name then
        match (hostParts name).mapM hostNumber with
        | some parts => numericAddress parts
        | none => none
      else some (String.ofList name)

/-- The usual port. -/
def usualPort (secure : Bool) : Nat := if secure then 443 else 80

/-- The port that digits name, none if it is the usual one; the outer option says whether the
digits are in order. -/
def portOf (secure : Bool) (digits : List Char) : Option (Option Nat) :=
  if digits.isEmpty then some none
  else if digits.all Char.isDigit then
    match readNumber 10 digits with
    | some n => if n ≥ 65536 then none else some (if n = usualPort secure then none else some n)
    | none => none
  else none

/-- Host and port of the part of an address between the scheme and the path. What stands before
the last `@` says who asks and is passed over. -/
def authorityOf (secure : Bool) (cs : List Char) : Option (String × Option Nat) :=
  let place := Text.afterLast '@' cs
  let hostLength :=
    if place.head? = some '[' then (place.takeWhile (· ≠ ']')).length + 1
    else (place.takeWhile (· ≠ ':')).length
  let after := place.drop hostLength
  match hostOf (place.take hostLength), after with
  | some host, [] => some (host, none)
  | some host, ':' :: digits => (portOf secure digits).map fun port => (host, port)
  | _, _ => none

/-! ## Whole addresses -/

/-- The text after the scheme of an address, and whether the scheme is the encrypted one. -/
def dropScheme? (cs : List Char) : Option (Bool × List Char) :=
  match Text.cutFirst ':' cs with
  | some (scheme, rest) =>
    let name := scheme.map Char.toLower
    if name = "https".toList then some (true, rest)
    else if name = "http".toList then some (false, rest)
    else none
  | none => none

/-- Reads an address. -/
def parse? (address : String) : Option Url :=
  match dropScheme? (clean address.toList) with
  | none => none
  | some (secure, rest) =>
    let rest := rest.dropWhile isSlash
    let ends (c : Char) : Bool := isSlash c || c == '?' || c == '#'
    match authorityOf secure (rest.takeWhile fun c => !ends c) with
    | none => none
    | some (host, port) =>
      let rest := rest.dropWhile fun c => !ends c
      let beforeFragment := rest.takeWhile (· ≠ '#')
      let path := beforeFragment.takeWhile (· ≠ '?')
      some {
        secure := secure
        host := host
        port := port
        segments := segmentsOf path
        query := (Text.cutFirst '?' beforeFragment).map fun (_, q) => encodeClass isEncodedInQuery q
        fragment := (Text.cutFirst '#' rest).map fun (_, f) =>
          encodeClass isEncodedInFragment f }

/-- The path that is asked for. -/
def path (u : Url) : String :=
  "/" ++ String.intercalate "/" u.segments

/-- Path and query as they are sent. -/
def target (u : Url) : String :=
  u.path ++ (match u.query with
    | some q => "?" ++ q
    | none => "")

/-- Host and port as text. -/
def authority (u : Url) : String :=
  u.host ++ (match u.port with
    | some n => ":" ++ toString n
    | none => "")

/-- The address in its normal form. -/
def text (u : Url) : String :=
  (if u.secure then "https://" else "http://") ++ u.authority ++ u.target ++
    (match u.fragment with
      | some f => "#" ++ f
      | none => "")

end Url

end ReleaseCandidates.Http
