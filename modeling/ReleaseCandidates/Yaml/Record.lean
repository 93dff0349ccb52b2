import ReleaseCandidates.Yaml.Document
import ReleaseCandidates.Yaml.Fault
import ReleaseCandidates.Yaml.Meaning

set_option autoImplicit false

/-! # Reading records from a tree

A record is read from a mapping, entry by entry in document order, so that the first thing that is
wrong is the one reported. Each field may be given once; fields that the record does not know are
passed over without a look at them. An empty plain scalar counts as a record or a list without
entries. -/

namespace ReleaseCandidates.Yaml

namespace Node

/-! ## Values -/

/-- The text of a scalar, however it is written. -/
def text : Node → Except Fault String
  | .scalar s => .ok s.text
  | _ => .error .unreadable

/-- Whether a node stands for an absent value: a plain scalar that is empty or a word for nothing.
A tag for nothing allows no other text. -/
def isAbsent : Node → Except Fault Bool
  | .scalar s =>
    if s.style != .plain then .ok false
    else
      match s.tag with
      | some tag =>
        if tag != "tag:yaml.org,2002:null" then .ok false
        else if isNullWord s.text then .ok true
        else .error .unreadable
      | none => .ok (s.text.isEmpty || isNullWord s.text)
  | _ => .ok false

/-- A value that may be absent. -/
def optional {α : Type} (read : Node → Except Fault α) (n : Node) : Except Fault (Option α) :=
  match n.isAbsent with
  | .error fault => .error fault
  | .ok true => .ok none
  | .ok false => (read n).map some

/-- A natural number below 2^64. -/
def count : Node → Except Fault Nat
  | .scalar s =>
    if s.style = .plain ∨ (s.style = .literal ∧ s.tag = some "tag:yaml.org,2002:int") then
      match wordCount? s.text with
      | some n => .ok n
      | none => .error .unreadable
    else .error .unreadable
  | _ => .error .unreadable

/-- Whether a scalar is plain and empty. -/
def isBare : Node → Bool
  | .scalar s => s.text.isEmpty && s.style == .plain
  | _ => false

/-- Reads the items of a list in order. -/
def readItems {α : Type} (read : Node → Except Fault α) : List Node → Except Fault (List α)
  | [] => .ok []
  | n :: ns =>
    match read n with
    | .error fault => .error fault
    | .ok a =>
      match readItems read ns with
      | .error fault => .error fault
      | .ok as => .ok (a :: as)

/-- A list of values. -/
def list {α : Type} (read : Node → Except Fault α) (n : Node) : Except Fault (List α) :=
  match n with
  | .sequence _ items => readItems read items
  | n => if n.isBare then .ok [] else .error .unreadable

/-- The entries of a mapping. -/
def entries (n : Node) : Except Fault (List (Node × Node)) :=
  match n with
  | .mapping _ entries => .ok entries
  | n => if n.isBare then .ok [] else .error .unreadable

/-- The text of a key. A key must be a text even where its entry is passed over. -/
def keyText (n : Node) : Except Fault String := n.text

/-! ## Records -/

/-- Goes through the entries of a record, in document order. -/
def foldFields {ρ : Type} (step : ρ → String → Node → Except Fault ρ) :
    ρ → List (Node × Node) → Except Fault ρ
  | r, [] => .ok r
  | r, (k, v) :: rest =>
    match k.keyText with
    | .error fault => .error fault
    | .ok name =>
      match step r name v with
      | .error fault => .error fault
      | .ok r => foldFields step r rest

/-- Reads a record, starting from one without fields. -/
def record {ρ : Type} (start : ρ) (step : ρ → String → Node → Except Fault ρ) (n : Node) :
    Except Fault ρ :=
  match n.entries with
  | .error fault => .error fault
  | .ok entries => foldFields step start entries

/-- Reads a field that has not been given before. -/
def once {α : Type} (name : String) (before : Option α) (read : Node → Except Fault α) (n : Node) :
    Except Fault (Option α) :=
  if before.isSome then .error (.duplicateField name) else (read n).map some

/-- A field that must have been given. -/
def required {α : Type} (name : String) (value : Option α) : Except Fault α :=
  match value with
  | some a => .ok a
  | none => .error (.missingField name)

/-- Sets the value of a key, in the order of keys; a value given before is replaced. -/
def insertSorted {α : Type} (key : String) (value : α) : List (String × α) → List (String × α)
  | [] => [(key, value)]
  | (k, v) :: rest =>
    if key = k then (k, value) :: rest
    else if key < k then (key, value) :: (k, v) :: rest
    else (k, v) :: insertSorted key value rest

/-- A mapping from texts to values, sorted by text; the last value of a text counts. -/
def table {α : Type} (read : Node → Except Fault α) (n : Node) :
    Except Fault (List (String × α)) :=
  record [] (fun acc key v => (read v).map fun a => insertSorted key a acc) n

/-! ## Values of any shape -/

/-- The meaning of a scalar that may have a tag of the standard. A tag that does not fit the text,
and a tag of the document's own, are refused. -/
def scalarMeaning (s : Scalar) : Except Fault Meaning :=
  match s.tag with
  | none => .ok (if s.style = .plain then meaning s.text else .text s.text)
  | some tag =>
    if tag.toList.head? = some '!' then .error .unreadable
    else if tag == "tag:yaml.org,2002:bool" then
      match boolWord? s.text with
      | some b => .ok (.truth b)
      | none => .error .unreadable
    else if tag == "tag:yaml.org,2002:int" then
      match intWord? s.text.toList with
      | some n => .ok (.integer n)
      | none => .error .unreadable
    else if tag == "tag:yaml.org,2002:float" then
      match floatWord? s.text with
      | some m => .ok m
      | none => .error .unreadable
    else if tag == "tag:yaml.org,2002:null" then
      if isNullWord s.text then .ok .nothing else .error .unreadable
    else .ok (.text s.text)

/-- Whether a value can be held: integers take at most 64 bits. -/
def fits : Meaning → Bool
  | .integer n => -Int.ofNat (Nat.pow 2 63) ≤ n && n < Int.ofNat (Nat.pow 2 64)
  | _ => true

/-- Whether the tag is one of the document's own. -/
def isOwnTag (tag : Option String) : Bool :=
  match tag with
  | some t => t.toList.head? == some '!'
  | none => false

mutual

/-- Whether a node can be read as a value of any shape, in at most `depth` nested collections. -/
def isReadable : Nat → Node → Bool
  | _, .scalar s =>
    match scalarMeaning s with
    | .ok m => fits m
    | .error _ => false
  | 0, _ => false
  | depth + 1, .sequence tag items => !isOwnTag tag && allReadable depth items
  | depth + 1, .mapping tag entries => !isOwnTag tag && allEntriesReadable depth entries
  | _, .cycle => false
  | _, .cut => false

/-- Whether all items can be read. -/
def allReadable : Nat → List Node → Bool
  | _, [] => true
  | depth, n :: ns => isReadable depth n && allReadable depth ns

/-- Whether all entries can be read. -/
def allEntriesReadable : Nat → List (Node × Node) → Bool
  | _, [] => true
  | depth, (k, v) :: rest =>
    isReadable depth k && isReadable depth v && allEntriesReadable depth rest

end

mutual

/-- Whether two nodes have the same value. -/
def sameValue : Node → Node → Bool
  | .scalar a, .scalar b => decide ((scalarMeaning a).toOption = (scalarMeaning b).toOption)
  | .sequence _ as, .sequence _ bs => sameItems as bs
  | .mapping _ as, .mapping _ bs => sameEntries as bs
  | _, _ => false

/-- Whether two lists of nodes have the same values. -/
def sameItems : List Node → List Node → Bool
  | [], [] => true
  | a :: as, b :: bs => sameValue a b && sameItems as bs
  | _, _ => false

/-- Whether two lists of entries have the same keys and values. -/
def sameEntries : List (Node × Node) → List (Node × Node) → Bool
  | [], [] => true
  | (k, v) :: as, (l, w) :: bs => sameValue k l && sameValue v w && sameEntries as bs
  | _, _ => false

end

/-- Whether a key occurs twice. -/
def repeatsKey : List Node → Bool
  | [] => false
  | k :: rest => rest.any (sameValue k) || repeatsKey rest

mutual

/-- Whether some mapping in a value gives a key twice. -/
def hasRepeatedKey : Node → Bool
  | .sequence _ items => someRepeatedKey items
  | .mapping _ entries => repeatsKey (entries.map Prod.fst) || someEntryRepeatedKey entries
  | _ => false

/-- Whether some mapping in a list of values gives a key twice. -/
def someRepeatedKey : List Node → Bool
  | [] => false
  | n :: ns => hasRepeatedKey n || someRepeatedKey ns

/-- Whether some mapping in the keys and values of entries gives a key twice. -/
def someEntryRepeatedKey : List (Node × Node) → Bool
  | [] => false
  | (k, v) :: rest => hasRepeatedKey k || hasRepeatedKey v || someEntryRepeatedKey rest

end

end Node

/-! ## Documents -/

/-- Reads the record that a document holds; nothing may stand after the document. -/
def Document.record {α : Type} (read : Node → Except Fault α) (d : Document) : Except Fault α :=
  match read d.root with
  | .error fault => .error fault
  | .ok a => if d.complete then .ok a else .error .unreadable

/-- Reads the record that a text holds. -/
def readRecord {α : Type} (read : Node → Except Fault α) (text : String) : Except Fault α :=
  (Document.read text).record read

end ReleaseCandidates.Yaml
