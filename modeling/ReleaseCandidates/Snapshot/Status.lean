import ReleaseCandidates.Text.Blank
import ReleaseCandidates.Text.Case

set_option autoImplicit false

/-! # Test status of a snapshot

A snapshot waits as `pending` until its tests have run; then it is `successful` or `failed`, and
stays so. -/

namespace ReleaseCandidates

/-- Where a snapshot stands with its tests. -/
inductive Status where
  | pending
  | successful
  | failed
  deriving DecidableEq, Repr

namespace Status

/-- The stored word for a status. -/
def word : Status → String
  | .pending => "pending"
  | .successful => "successful"
  | .failed => "failed"

/-- Whether the tests have been run and the status can no longer change. -/
def isFinal : Status → Bool
  | .pending => false
  | .successful | .failed => true

/-- The status a word in lower case stands for. -/
def ofWord? : String → Option Status
  | "pending" => some .pending
  | "successful" | "success" => some .successful
  | "failed" | "failure" => some .failed
  | _ => none

/-- The form in which a status is looked up: no blanks around it, lower case. -/
def normalWord (s : String) : String :=
  Text.lower (Text.trim s)

/-- Reads a status; an unknown one is refused with its normal form. -/
def parse (s : String) : Except String Status :=
  match ofWord? (normalWord s) with
  | some status => .ok status
  | none => .error (normalWord s)

/-- The words for an unknown status. -/
def unknownMessage (normal : String) : String :=
  "Unknown snapshot status: " ++ normal

theorem ofWord?_word (s : Status) : ofWord? s.word = some s := by
  cases s <;> rfl

theorem normalWord_word (s : Status) : normalWord s.word = s.word := by
  cases s <;> decide

theorem parse_word (s : Status) : parse s.word = .ok s := by
  simp [parse, normalWord_word, ofWord?_word]

theorem isFinal_eq_false_iff {s : Status} : s.isFinal = false ↔ s = .pending := by
  cases s <;> simp [isFinal]

theorem isFinal_iff {s : Status} : s.isFinal = true ↔ s ≠ .pending := by
  rw [← Bool.not_eq_false, ne_eq, isFinal_eq_false_iff]

end Status

end ReleaseCandidates
