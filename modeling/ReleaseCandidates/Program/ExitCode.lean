set_option autoImplicit false

/-! # Exit codes

What a job that drives the program learns from its end: a failed test run is told from a wrong
invocation and from everything else that can go wrong. -/

namespace ReleaseCandidates

/-- How the program ends. -/
inductive ExitCode where
  /-- The command did what was asked for. -/
  | success
  /-- The tests of the snapshot failed. -/
  | testsFailed
  /-- The command line could not be read. -/
  | invalidArguments
  /-- Something else went wrong. -/
  | applicationError
  deriving DecidableEq, Repr

namespace ExitCode

/-- All ends. -/
def all : List ExitCode := [.success, .testsFailed, .invalidArguments, .applicationError]

/-- The number of an end. -/
def number : ExitCode → Nat
  | .success => 0
  | .testsFailed => 1
  | .invalidArguments => 2
  | .applicationError => 3

/-- The name of an end. -/
def name : ExitCode → String
  | .success => "Success"
  | .testsFailed => "Tests Failed"
  | .invalidArguments => "Invalid Arguments"
  | .applicationError => "Application Error"

/-- The words for an end. -/
def text (code : ExitCode) : String :=
  code.name ++ " (" ++ toString code.number ++ ")"

theorem mem_all (code : ExitCode) : code ∈ all := by
  cases code <;> decide

/-- A job that only sees the number knows how the program has ended. -/
theorem eq_of_number_eq {a b : ExitCode} (h : a.number = b.number) : a = b := by
  have hall : ∀ a ∈ all, ∀ b ∈ all, a.number = b.number → a = b := by decide
  exact hall a (mem_all a) b (mem_all b) h

/-- A person who only sees the words knows it, too. -/
theorem eq_of_text_eq {a b : ExitCode} (h : a.text = b.text) : a = b := by
  have hall : ∀ a ∈ all, ∀ b ∈ all, a.text = b.text → a = b := by decide
  exact hall a (mem_all a) b (mem_all b) h

end ExitCode

end ReleaseCandidates
