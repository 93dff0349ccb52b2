import ReleaseCandidates.Component
import ReleaseCandidates.Failure
import ReleaseCandidates.Release

set_option autoImplicit false

/-! # Catalogues

What a scan asks about the world outside: the releases and commits of a repository, and whether an
image was published under a tag. A catalogue answers out of a state of its own, so that one
definition covers a live service, a table, and a service behind a cache. -/

namespace ReleaseCandidates

/-- What came of a question, or of the work on a target: an answer, a failure, or the sudden end of
the task that worked on it. -/
inductive Reply (α : Type) where
  | ok (a : α)
  | failed (failure : Failure)
  | aborted (message : String)
  deriving DecidableEq, Repr

/-- A source of listings and manifests that keeps a state. Listings are newest first and no longer
than asked for. -/
structure Catalogue (σ : Type) where
  /-- The releases of a repository, up to a number. -/
  releases (repository : String) (limit : Nat) : StateM σ (Reply (List Release))
  /-- The commits of a repository's default branch, up to a number. -/
  commits (repository : String) (limit : Nat) : StateM σ (Reply (List String))
  /-- The manifest of an image under a tag, if it was published. -/
  manifest (image tag : String) : StateM σ (Reply (Option Manifest))

end ReleaseCandidates
