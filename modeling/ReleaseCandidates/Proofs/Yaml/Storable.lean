import ReleaseCandidates.Yaml.Tree

set_option autoImplicit false

/-! # Trees that are stored, and their tokens

The program stores records of texts, lists and further records, with plain words for keys. Between
the text of such a tree and the tree that is read back stand its tokens. They are spelled out here,
so that reading falls into two parts that know nothing of each other: the scanner finds exactly the
tokens of the tree in its text, and the builder makes the tree of them. -/

namespace ReleaseCandidates.Yaml

/-! ## Trees that are stored -/

/-- Whether the character may stand in a key. -/
def isKeyChar (c : Char) : Bool :=
  c.isAlphanum || c == '_'

/-- The greatest length of a key: a longer one is not recognised as one. -/
def maxKeyLength : Nat := 1024

/-- Words that stand plain as keys. -/
def IsKey (k : String) : Prop :=
  k.toList ≠ [] ∧ k.toList.length ≤ maxKeyLength ∧ k.toList.all isKeyChar = true

instance (k : String) : Decidable (IsKey k) :=
  inferInstanceAs (Decidable (_ ∧ _ ∧ _))

theorem IsKey.isKeyChar {k : String} (h : IsKey k) {c : Char} (hc : c ∈ k.toList) :
    isKeyChar c = true :=
  List.all_eq_true.1 h.2.2 c hc

namespace Tree

/-- Whether the tree is a record with a field. -/
def isRecord : Tree → Bool
  | .record (_ :: _) => true
  | _ => false

mutual

/-- Trees that the program stores: every record has a field, every key is a word, and the items of
lists are records. -/
def Storable : Tree → Prop
  | .text _ => True
  | .list items => ItemsStorable items
  | .record fields => fields ≠ [] ∧ FieldsStorable fields

/-- Items that the program stores in a list. -/
def ItemsStorable : List Tree → Prop
  | [] => True
  | t :: ts => t.isRecord = true ∧ t.Storable ∧ ItemsStorable ts

/-- Fields that the program stores in a record. -/
def FieldsStorable : List (String × Tree) → Prop
  | [] => True
  | (k, t) :: fields => IsKey k ∧ t.Storable ∧ FieldsStorable fields

end

/-! ## Tokens -/

mutual

/-- The tokens of a tree. A list that is not empty stands at the column of the record around it, so
its start and end have no tokens. -/
def tokens : Tree → List Token
  | .text s => [.scalar s (writtenStyle s)]
  | .list [] => [.flowSequenceStart, .flowSequenceEnd]
  | .list (t :: ts) => .item :: tokens t ++ itemTokens ts
  | .record fields => .blockMappingStart :: fieldTokens fields ++ [.blockEnd]

/-- The tokens of the items of a list. -/
def itemTokens : List Tree → List Token
  | [] => []
  | t :: ts => .item :: tokens t ++ itemTokens ts

/-- The tokens of the fields of a record. -/
def fieldTokens : List (String × Tree) → List Token
  | [] => []
  | (k, t) :: fields => .key :: .scalar k .plain :: .value :: tokens t ++ fieldTokens fields

end

theorem exists_fields_of_isRecord {t : Tree} (h : t.isRecord = true) :
    ∃ key value fields, t = .record ((key, value) :: fields) := by
  cases t with
  | text s => cases h
  | list items => cases h
  | record fields =>
    cases fields with
    | nil => cases h
    | cons field fields => exact ⟨field.1, field.2, fields, rfl⟩

end Tree

end ReleaseCandidates.Yaml
