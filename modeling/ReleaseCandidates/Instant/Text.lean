import ReleaseCandidates.Instant
import ReleaseCandidates.Text.Blank

set_option autoImplicit false

/-! # Instants as text

`Instant.format` writes the one spelling that the program stores: universal time with six digits of
a second and a closing `Z`. `Instant.parse?` reads it back and two families of spellings besides:
the internet date-time with any offset, and a date-time without an offset, taken as universal time,
whose numbers may be shorter and may follow blanks. -/

namespace ReleaseCandidates.Instant

/-! ## Writing -/

/-- The decimal digit of `n % 10`. -/
def digitChar (n : Nat) : Char :=
  Char.ofNat (48 + n % 10)

/-- The last `width` decimal digits of `n`, with zeros in front. -/
def fixedDigits : Nat → Nat → List Char
  | 0, _ => []
  | width + 1, n => fixedDigits width (n / 10) ++ [digitChar n]

theorem length_fixedDigits (width n : Nat) : (fixedDigits width n).length = width := by
  induction width generalizing n with
  | zero => rfl
  | succ width ih => simp [fixedDigits, ih]

/-- A year: four digits from 0 to 9999, else a sign and at least four digits. -/
def yearDigits (year : Int) : List Char :=
  if 0 ≤ year ∧ year ≤ 9999 then fixedDigits 4 year.toNat
  else
    (if year < 0 then '-' else '+') ::
      fixedDigits (max 4 (Nat.toDigits 10 year.natAbs).length) year.natAbs

/-- The stored spelling, as characters. -/
def formatChars (t : Instant) : List Char :=
  yearDigits t.date.year ++ '-' :: fixedDigits 2 t.date.month ++ '-' :: fixedDigits 2 t.date.day ++
    'T' :: fixedDigits 2 t.hour ++ ':' :: fixedDigits 2 t.minute ++
    ':' :: fixedDigits 2 t.secondOfMinute ++ '.' :: fixedDigits 6 t.micros ++ ['Z']

/-- The stored spelling: universal time, six digits of a second. -/
def format (t : Instant) : String :=
  String.ofList t.formatChars

/-! ## Reading numbers -/

/-- The value of a string of decimal digits, continuing from `acc`. -/
def digitsValue (acc : Nat) : List Char → Nat
  | [] => acc
  | c :: cs => digitsValue (10 * acc + (c.toNat - 48)) cs

/-- The longest run of at most `limit` decimal digits, and the rest. -/
def takeDigits : Nat → List Char → List Char × List Char
  | limit + 1, c :: cs =>
    if c.isDigit then
      let (digits, rest) := takeDigits limit cs
      (c :: digits, rest)
    else ([], c :: cs)
  | _, cs => ([], cs)

/-- A number of `least` to `most` digits: as many as there are. -/
def readNumber (least most : Nat) (cs : List Char) : Option (Nat × List Char) :=
  let (digits, rest) := takeDigits most cs
  if digits.length < least then none else some (digitsValue 0 digits, rest)

/-- One given character. -/
def readChar (c : Char) : List Char → Option (List Char)
  | [] => none
  | d :: cs => if d = c then some cs else none

/-- The digits of a fraction of a second, in nanoseconds: at least one, and those past the ninth
are dropped. -/
def readNanos (cs : List Char) : Option (Nat × List Char) :=
  let (digits, rest) := takeDigits 9 cs
  if digits.isEmpty then none
  else some (digitsValue 0 digits * Nat.pow 10 (9 - digits.length), rest.dropWhile Char.isDigit)

/-- A fraction of a second after a point, if a point follows. -/
def readFraction : List Char → Option (Nat × List Char)
  | '.' :: cs => readNanos cs
  | cs => some (0, cs)

/-! ## Assembling -/

/-- The instant of a date and time at an offset in minutes east of universal time, if the calendar
and the clock have them. Years run from -262143 to 262142. -/
def ofFields (date : Date) (hour minute second nanos : Nat) (offset : Int) : Option Instant :=
  if date.Valid ∧ -262143 ≤ date.year ∧ date.year ≤ 262142 ∧ hour ≤ 23 ∧ minute ≤ 59 then
    ofMinute (date.toDay * 1440 + hour * 60 + minute - offset) second nanos
  else none

/-! ## Internet date-times -/

/-- An offset from universal time, in minutes: `Z`, or a sign, hours and minutes below a day. The
sign may be the mathematical minus. -/
def readOffset : List Char → Option (Int × List Char)
  | [] => none
  | c :: cs =>
    if c = 'Z' ∨ c = 'z' then some (0, cs)
    else if c = '+' ∨ c = '-' ∨ c = Char.ofNat 0x2212 then do
      let (hours, cs) ← readNumber 2 2 cs
      let cs ← readChar ':' cs
      let (minutes, cs) ← readNumber 2 2 cs
      if hours ≤ 23 ∧ minutes ≤ 59 then
        let size : Int := hours * 60 + minutes
        some (if c = '+' then size else -size, cs)
      else none
    else none

/-- The character between date and time. -/
def readSeparator : List Char → Option (List Char)
  | c :: cs => if c = 'T' ∨ c = 't' ∨ c = ' ' then some cs else none
  | [] => none

/-- A date-time in the internet profile: fixed widths and a required offset. -/
def readInternet (cs : List Char) : Option Instant := do
  let (year, cs) ← readNumber 4 4 cs
  let cs ← readChar '-' cs
  let (month, cs) ← readNumber 2 2 cs
  let cs ← readChar '-' cs
  let (day, cs) ← readNumber 2 2 cs
  let cs ← readSeparator cs
  let (hour, cs) ← readNumber 2 2 cs
  let cs ← readChar ':' cs
  let (minute, cs) ← readNumber 2 2 cs
  let cs ← readChar ':' cs
  let (second, cs) ← readNumber 2 2 cs
  let (nanos, cs) ← readFraction cs
  let (offset, cs) ← readOffset cs
  if cs.isEmpty then ofFields ⟨year, month, day⟩ hour minute second nanos offset else none

/-! ## Date-times without an offset -/

/-- A year after blanks: at most four digits without a sign, any number of them with one. -/
def readYear (cs : List Char) : Option (Int × List Char) :=
  match Text.trimStart cs with
  | '-' :: cs => (readNumber 1 cs.length cs).map fun (n, rest) => (-(n : Int), rest)
  | '+' :: cs => (readNumber 1 cs.length cs).map fun (n, rest) => ((n : Int), rest)
  | cs => (readNumber 1 4 cs).map fun (n, rest) => ((n : Int), rest)

/-- A number of one or two digits after blanks. -/
def readShort (cs : List Char) : Option (Nat × List Char) :=
  readNumber 1 2 (Text.trimStart cs)

/-- A date-time that names no offset. -/
def readPlain (cs : List Char) : Option Instant := do
  let (year, cs) ← readYear cs
  let cs ← readChar '-' cs
  let (month, cs) ← readShort cs
  let cs ← readChar '-' cs
  let (day, cs) ← readShort cs
  let cs ← readChar 'T' cs
  let (hour, cs) ← readShort cs
  let cs ← readChar ':' cs
  let (minute, cs) ← readShort cs
  let cs ← readChar ':' cs
  let (second, cs) ← readShort cs
  let (nanos, cs) ← readFraction cs
  if cs.isEmpty then ofFields ⟨year, month, day⟩ hour minute second nanos 0 else none

/-- The instant that a stored text names, if it names one. -/
def parse? (s : String) : Option Instant :=
  (readInternet s.toList).orElse fun _ => readPlain s.toList

end ReleaseCandidates.Instant
