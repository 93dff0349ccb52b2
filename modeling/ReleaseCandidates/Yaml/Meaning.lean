import ReleaseCandidates.Text.Pieces

set_option autoImplicit false

/-! # What a plain scalar means

Outside text fields a plain scalar may stand for nothing, a truth value or a number. The rules here
decide that for a text: nothing is `null` or a tilde; integers may be written in four bases; a
number with a leading zero is a text; a decimal fraction too great for a double is a text. -/

namespace ReleaseCandidates.Yaml

/-! ## Nothing and truth -/

/-- Whether the text stands for nothing. -/
def isNullWord (s : String) : Bool :=
  s == "null" || s == "Null" || s == "NULL" || s == "~"

/-- The truth value that the text stands for. -/
def boolWord? : String → Option Bool
  | "true" | "True" | "TRUE" => some true
  | "false" | "False" | "FALSE" => some false
  | _ => none

/-! ## Integers -/

/-- The value of a digit in bases up to sixteen. -/
def digitValue? (base : Nat) (c : Char) : Option Nat :=
  let v :=
    if c.isDigit then some (c.toNat - 48)
    else if 'a' ≤ c ∧ c ≤ 'f' then some (c.toNat - 87)
    else if 'A' ≤ c ∧ c ≤ 'F' then some (c.toNat - 55)
    else none
  v.filter (· < base)

/-- The value of digits in a base, continuing from `acc`. -/
def digitsIn (base : Nat) (acc : Nat) : List Char → Option Nat
  | [] => some acc
  | c :: cs => (digitValue? base c).bind fun v => digitsIn base (base * acc + v) cs

/-- The value of one or more digits in a base. -/
def natIn? (base : Nat) (cs : List Char) : Option Nat :=
  if cs.isEmpty then none else digitsIn base 0 cs

/-- The base that two characters announce, and the digits after them. -/
def announcedBase? : List Char → Option (Nat × List Char)
  | '0' :: 'x' :: rest => some (16, rest)
  | '0' :: 'o' :: rest => some (8, rest)
  | '0' :: 'b' :: rest => some (2, rest)
  | _ => none

/-- The characters without a sign in front. -/
def dropSign : List Char → List Char
  | '-' :: cs => cs
  | '+' :: cs => cs
  | cs => cs

/-- Whether the text is written like a number but has a leading zero, and so is a text. -/
def hasLeadingZero (cs : List Char) : Bool :=
  match dropSign cs with
  | '0' :: d :: rest => (d :: rest).all Char.isDigit
  | _ => false

/-- A natural number, with a plus in front or none. -/
def natWord? (cs : List Char) : Option Nat :=
  let digits := match cs with
    | '+' :: rest => rest
    | rest => rest
  match (announcedBase? digits).bind fun (base, rest) => natIn? base rest with
  | some n => some n
  | none => if hasLeadingZero cs then none else natIn? 10 digits

/-- A negative integer, by its size. -/
def negativeWord? : List Char → Option Nat
  | '-' :: rest =>
    match (announcedBase? rest).bind fun (base, rest) => natIn? base rest with
    | some n => some n
    | none => if hasLeadingZero rest then none else natIn? 10 rest
  | _ => none

/-- The integer that a text stands for, if it fits into 128 bits. -/
def intWord? (cs : List Char) : Option Int :=
  match natWord? cs with
  | some n => if n < Nat.pow 2 128 then some n else none
  | none =>
    match negativeWord? cs with
    | some n => if n ≤ Nat.pow 2 127 then some (-(n : Int)) else none
    | none => none

/-- The natural number below 2^64 that a text stands for. -/
def wordCount? (s : String) : Option Nat :=
  (natWord? s.toList).filter (· < Nat.pow 2 64)

/-! ## Decimal fractions -/

/-- A decimal fraction: sign, digits without the point, and the power of ten to multiply by. -/
structure Fraction where
  negative : Bool
  digits : Nat
  exponent : Int
  deriving DecidableEq, Repr

/-- The value of decimal digits, continuing from `acc`. -/
def decimalValue (acc : Nat) (cs : List Char) : Nat :=
  cs.foldl (fun n c => 10 * n + (c.toNat - 48)) acc

/-- Reads an exponent at the end of a fraction; nothing counts as zero. -/
def exponent? : List Char → Option Int
  | [] => some 0
  | e :: rest =>
    if e = 'e' ∨ e = 'E' then
      let digits := dropSign rest
      if digits.isEmpty || !digits.all Char.isDigit then none
      else
        let n : Int := decimalValue 0 digits
        some (if rest.head? = some '-' then -n else n)
    else none

/-- Reads a decimal fraction: digits with a point somewhere or none, at least one digit, and an
exponent or none. -/
def fraction? (cs : List Char) : Option Fraction :=
  let digits := dropSign cs
  let whole := digits.takeWhile Char.isDigit
  let rest := digits.dropWhile Char.isDigit
  let (part, rest) :=
    match rest with
    | '.' :: rest => (rest.takeWhile Char.isDigit, rest.dropWhile Char.isDigit)
    | rest => ([], rest)
  if whole.isEmpty && part.isEmpty then none
  else
    (exponent? rest).map fun e =>
      { negative := cs.head? = some '-'
        digits := decimalValue (decimalValue 0 whole) part
        exponent := e - part.length }

/-- Whether a fraction rounds to a finite double: it lies below the middle between the greatest
double and the next power of two. -/
def Fraction.isFinite (f : Fraction) : Bool :=
  let size : Int := (Nat.toDigits 10 f.digits).length + f.exponent
  let middle := Nat.pow 2 1024 - Nat.pow 2 970
  if f.digits = 0 || size < 300 then true
  else if 320 < size then false
  else if 0 ≤ f.exponent then f.digits * Nat.pow 10 f.exponent.toNat < middle
  else f.digits < middle * Nat.pow 10 (-f.exponent).toNat

/-- The fraction without trailing zeros in its digits; at most `n` are dropped. -/
def Fraction.reduce : Nat → Fraction → Fraction
  | 0, f => f
  | n + 1, f =>
    if f.digits = 0 then { f with exponent := 0 }
    else if f.digits % 10 = 0 then
      Fraction.reduce n { f with digits := f.digits / 10, exponent := f.exponent + 1 }
    else f

/-! ## Meanings -/

/-- What a plain scalar can stand for. -/
inductive Meaning where
  | nothing
  | truth (b : Bool)
  | integer (n : Int)
  | fraction (f : Fraction)
  | infinite (negative : Bool)
  | notANumber
  | text (s : String)
  deriving DecidableEq, Repr

/-- The number with a fraction or without bound that a text stands for. -/
def floatWord? (s : String) : Option Meaning :=
  let cs := s.toList
  let unsigned := match cs with
    | '+' :: rest => rest
    | rest => rest
  if cs.head? = some '+' && (unsigned.head? = some '+' || unsigned.head? = some '-') then none
  else
    let word := String.ofList unsigned
    if word == ".inf" || word == ".Inf" || word == ".INF" then some (.infinite false)
    else if s == "-.inf" || s == "-.Inf" || s == "-.INF" then some (.infinite true)
    else if s == ".nan" || s == ".NaN" || s == ".NAN" then some .notANumber
    else
      match fraction? unsigned with
      | some f => if f.isFinite then some (.fraction (f.reduce cs.length)) else none
      | none => none

/-- What a text stands for when it is written plain and without a tag. -/
def meaning (s : String) : Meaning :=
  if s.isEmpty || isNullWord s then .nothing
  else
    match boolWord? s with
    | some b => .truth b
    | none =>
      match intWord? s.toList with
      | some n => .integer n
      | none =>
        if hasLeadingZero s.toList then .text s
        else (floatWord? s).getD (.text s)

end ReleaseCandidates.Yaml
