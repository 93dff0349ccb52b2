import ReleaseCandidates.Yaml.Token.Basic

set_option autoImplicit false

/-! # YAML trees

A document is a tree of scalars, sequences and mappings. A scalar keeps its text as written: what a
text means hangs on where it is read. Two more leaves say what a document can run into: an alias
inside the very node that it names, and the place where the text stops being YAML. The second comes
last in every collection that was open there, so that whoever reads the tree in document order
meets what is wrong with its shape before it meets the end. -/

namespace ReleaseCandidates.Yaml

/-- A text, how it was set apart, and its tag. -/
structure Scalar where
  text : String
  style : Style
  tag : Option String
  deriving DecidableEq, Repr

/-- A node of a document. -/
inductive Node where
  | scalar (s : Scalar)
  | sequence (tag : Option String) (items : List Node)
  | mapping (tag : Option String) (entries : List (Node × Node))
  /-- An alias inside the node it names. -/
  | cycle
  /-- The place where the text stops being YAML. -/
  | cut
  deriving Repr

/-- A plain scalar without a text, which is also what an empty document holds. -/
def Node.empty : Node := .scalar ⟨"", .plain, none⟩

end ReleaseCandidates.Yaml
