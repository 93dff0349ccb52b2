set_option autoImplicit false

/-! # Payloads

The bodies of requests and responses hold structured values in the JSON format. Those that are sent
are records of texts; those that come back may be anything, of which the fields that matter are
picked out. -/

namespace ReleaseCandidates.Http

/-- A structured value. -/
inductive Payload where
  | null
  | truth (b : Bool)
  /-- A number, as it is written. -/
  | number (digits : String)
  | text (s : String)
  | list (items : List Payload)
  | record (fields : List (String × Payload))
  deriving Repr

namespace Payload

/-! ## Writing -/

/-- A hexadecimal digit in lower case. -/
def hexDigit (n : Nat) : Char :=
  if n < 10 then Char.ofNat (48 + n) else Char.ofNat (87 + n)

/-- A character inside double quotes. -/
def quoteChar (c : Char) : List Char :=
  match c with
  | '"' => ['\\', '"']
  | '\\' => ['\\', '\\']
  | '\x08' => ['\\', 'b']
  | '\x0c' => ['\\', 'f']
  | '\n' => ['\\', 'n']
  | '\r' => ['\\', 'r']
  | '\t' => ['\\', 't']
  | c =>
    if c.toNat < 0x20 then
      ['\\', 'u', '0', '0', hexDigit (c.toNat / 16), hexDigit (c.toNat % 16)]
    else [c]

/-- A text between double quotes. -/
def quote (s : String) : String :=
  "\"" ++ String.ofList (s.toList.flatMap quoteChar) ++ "\""

/-- A record of texts, its fields in order. -/
def writeRecord (fields : List (String × String)) : String :=
  "\x7b" ++ String.intercalate "," (fields.map fun (k, v) => quote k ++ ":" ++ quote v) ++ "\x7d"

/-! ## Picking out -/

/-- The text that a value is. -/
def asText : Payload → Option String
  | .text s => some s
  | _ => none

/-- The truth value that a value is. -/
def asTruth : Payload → Option Bool
  | .truth b => some b
  | _ => none

/-- The items that a value lists, each read. -/
def asList {α : Type} (read : Payload → Option α) : Payload → Option (List α)
  | .list items => items.mapM read
  | _ => none

/-- The value of a field, if the record has it; a field given twice makes the record unreadable. -/
def field (fields : List (String × Payload)) (name : String) : Option (Option Payload) :=
  match fields.filter fun (k, _) => k == name with
  | [] => some none
  | [(_, v)] => some (some v)
  | _ => none

/-- The fields of a record with the given names, in that order. A record may also be written as the
list of its values. -/
def fieldsOf (names : List String) : Payload → Option (List (Option Payload))
  | .record fields => names.mapM (field fields)
  | .list items =>
    if items.length ≤ names.length then
      some ((items.map some) ++ List.replicate (names.length - items.length) none)
    else none
  | _ => none

/-- A value that has to be there. -/
def required {α : Type} (read : Payload → Option α) (value : Option Payload) : Option α :=
  value.bind read

/-- A value that has a default. -/
def optional {α : Type} (read : Payload → Option α) (default : α) : Option Payload → Option α
  | none => some default
  | some v => read v

end Payload

end ReleaseCandidates.Http
