import ReleaseCandidates.Catalogue

set_option autoImplicit false

/-! # Remembered commit listings

A repository that publishes several images is resolved once for each of them, from the same commit
listing. A cached catalogue fetches a listing when it is first asked for and gives the same listing
from then on. Only listings that arrived are remembered: after a failure the next question is asked
again. -/

namespace ReleaseCandidates

/-- What a listing is remembered under: the repository and the number asked for. -/
abbrev ListingKey := String × Nat

/-- The listings fetched so far, and the state of the catalogue behind. -/
structure Remembered (σ : Type) where
  listings : List (ListingKey × List String)
  inner : σ

namespace Remembered

variable {σ : Type}

/-- Nothing fetched yet. -/
def start (s : σ) : Remembered σ := ⟨[], s⟩

/-- The listing remembered under a key. -/
def listing? (m : Remembered σ) (key : ListingKey) : Option (List String) :=
  m.listings.lookup key

/-- Remembers a listing. -/
def learn (m : Remembered σ) (key : ListingKey) (commits : List String) : Remembered σ :=
  { m with listings := (key, commits) :: m.listings }

/-- Asks the catalogue behind. -/
def ask {α : Type} (question : StateM σ α) : StateM (Remembered σ) α := fun m =>
  let (answer, s) := question m.inner
  (answer, { m with inner := s })

theorem listing?_learn_self (m : Remembered σ) (key : ListingKey) (commits : List String) :
    (m.learn key commits).listing? key = some commits := by
  simp [listing?, learn]

theorem listing?_learn_of_ne {key other : ListingKey} (h : other ≠ key) (m : Remembered σ)
    (commits : List String) : (m.learn key commits).listing? other = m.listing? other := by
  have hb : (other == key) = false := by simpa using h
  simp [listing?, learn, List.lookup_cons, hb]

end Remembered

/-- The catalogue with its commit listings remembered; all else is passed on. -/
def Catalogue.cached {σ : Type} (c : Catalogue σ) : Catalogue (Remembered σ) where
  releases repository limit := Remembered.ask (c.releases repository limit)
  commits repository limit := fun m =>
    match m.listing? (repository, limit) with
    | some commits => (.ok commits, m)
    | none =>
      match Remembered.ask (c.commits repository limit) m with
      | (.ok commits, m) => (.ok commits, m.learn (repository, limit) commits)
      | (other, m) => (other, m)
  manifest image tag := Remembered.ask (c.manifest image tag)

end ReleaseCandidates
