import ReleaseCandidates.Tag.Plan

set_option autoImplicit false

/-! # Reports on tags

What became of the tags that a version needs, one entry for each base repository and for each
component whose repository could not be read. -/

namespace ReleaseCandidates

/-- What became of one tag. -/
inductive TagOutcome where
  /-- It was there already. -/
  | existing
  | created
  /-- It is not there, and nothing was to be created. -/
  | wanting
  deriving DecidableEq, Repr

/-- What became of the tags of a version. -/
structure TagReport where
  version : String
  /-- Repositories that had the tag already. -/
  ensured : List String
  /-- Repositories that got the tag. -/
  created : List String
  /-- Repositories that would have got the tag. -/
  wouldCreate : List String
  /-- Repositories that failed, with the reason. -/
  failed : List (String × String)
  deriving DecidableEq, Repr

namespace TagReport

/-- A report without entries. -/
def empty (version : String) : TagReport := ⟨version, [], [], [], []⟩

/-- Whether nothing failed. -/
def isSuccess (report : TagReport) : Bool := report.failed.isEmpty

/-- Adds the components whose repository could not be read. -/
def addInvalid (report : TagReport) (invalid : List (String × Failure)) : TagReport :=
  { report with
    failed := report.failed ++ invalid.map fun (repository, failure) => (repository, failure.text) }

/-- Adds what became of the tag in a repository. -/
def add (report : TagReport) (repository : String) : Except Failure TagOutcome → TagReport
  | .ok .existing => { report with ensured := report.ensured ++ [repository] }
  | .ok .created => { report with created := report.created ++ [repository] }
  | .ok .wanting => { report with wouldCreate := report.wouldCreate ++ [repository] }
  | .error failure =>
    { report with failed := report.failed ++ [(repository, failure.summary)] }

end TagReport

end ReleaseCandidates
