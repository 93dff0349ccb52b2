set_option autoImplicit false

/-! # What can be wrong with a YAML document

A document that cannot be read into the expected shape is reported with the first thing that is
wrong in document order: a record lacks a required field, a record gives a field twice, or anything
else, from broken syntax to text where a list is expected. -/

namespace ReleaseCandidates.Yaml

/-- Why a document could not be read. -/
inductive Fault where
  /-- A record ended without a field that it needs. -/
  | missingField (name : String)
  /-- A record gave a known field twice. -/
  | duplicateField (name : String)
  /-- The document is no YAML, or its shape is not the expected one. -/
  | unreadable
  deriving DecidableEq, Repr

/-- The words for a fault. -/
def Fault.message : Fault → String
  | .missingField name => "yaml: missing field \x60" ++ name ++ "\x60"
  | .duplicateField name => "yaml: duplicate field \x60" ++ name ++ "\x60"
  | .unreadable => "yaml: unreadable"

end ReleaseCandidates.Yaml
