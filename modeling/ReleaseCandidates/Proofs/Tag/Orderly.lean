import Mathlib.Data.Set.Insert
import ReleaseCandidates.Proofs.Tag.Calls

set_option autoImplicit false

/-! # Orderly calls

A host keeps refs: it finds a tag exactly when it has the ref of that tag, and only a ref that it
was asked for, and did not refuse, is new to it. Any write may be refused at any time.

Calls to such a host are orderly (`Tag.Orderly`) when no ref is asked for that is there, so that
none is made twice, and when a ref is asked for only right after the tag object that it is to point
at was made. Whatever making sure of a tag comes to, its calls are orderly, and orderly calls after
orderly calls are orderly. -/

namespace ReleaseCandidates

variable {σ : Type} {host : TagHost σ} {refs : σ → Set (String × String)}

/-! ## Hosts that keep refs -/

/-- The refs of a host, each with its repository, are what the host answers by: a tag is found
exactly when its ref is there, and only a ref that was made is added. -/
structure TagHost.KeepsRefs (host : TagHost σ) (refs : σ → Set (String × String)) : Prop where
  found {s s' : σ} {repository tag sha : String}
    (h : host.tagRef repository tag s = (.ok sha, s')) : (repository, Tag.refName tag) ∈ refs s
  missing {s s' : σ} {repository tag : String} {failure : Failure}
    (h : host.tagRef repository tag s = (.error failure, s')) :
    (repository, Tag.refName tag) ∉ refs s
  tagRef {s s' : σ} {repository tag : String} {answer : Except Failure String}
    (h : host.tagRef repository tag s = (answer, s')) : refs s' = refs s
  createTagObject {s s' : σ} {repository tag message sha : String} {answer : Except Failure String}
    (h : host.createTagObject repository tag message sha s = (answer, s')) : refs s' = refs s
  createRef_ok {s s' : σ} {repository ref sha : String}
    (h : host.createRef repository ref sha s = (.ok (), s')) :
    refs s' = insert (repository, ref) (refs s)
  createRef_error {s s' : σ} {repository ref sha : String} {failure : Failure}
    (h : host.createRef repository ref sha s = (.error failure, s')) : refs s' = refs s

namespace TagCall

/-- The ref that a call made, with its repository. -/
def made? : TagCall → Option (String × String)
  | .createRef repository refName _ (.ok ()) => some (repository, refName)
  | _ => none

/-- The tag that a call found, with its repository. -/
def found? : TagCall → Option (String × String)
  | .tagRef repository tag (.ok _) => some (repository, tag)
  | _ => none

end TagCall

/-- The refs that calls have made, once for every call that made one. -/
def madeRefs (calls : List (σ × TagCall)) : List (String × String) :=
  calls.filterMap fun call => call.2.made?

@[simp] theorem madeRefs_append (first second : List (σ × TagCall)) :
    madeRefs (first ++ second) = madeRefs first ++ madeRefs second :=
  List.filterMap_append

namespace Tag

/-! ## Orderly calls -/

/-- Refs are asked for only where the ref was not there. -/
def AsksForMissing (refs : σ → Set (String × String)) (calls : List (σ × TagCall)) : Prop :=
  ∀ s repository ref object answer, (s, TagCall.createRef repository ref object answer) ∈ calls →
    (repository, ref) ∉ refs s

/-- No ref is asked for. -/
def AsksForNone (calls : List (σ × TagCall)) : Prop :=
  ∀ s repository ref object answer, (s, TagCall.createRef repository ref object answer) ∉ calls

/-- Every ref that is asked for is that of a wanted tag, and points at the object that the call just
before it made for the same repository and version. -/
def AsksAfterObject (wanted : Set (String × String)) (calls : List (σ × TagCall)) : Prop :=
  ∀ earlier later s repository ref object answer,
    calls = earlier ++ (s, TagCall.createRef repository ref object answer) :: later →
      ∃ version, (repository, version) ∈ wanted ∧ ref = refName version ∧
        ∃ start before message sha, earlier =
          start ++ [(before, .createTagObject repository version message sha (.ok object))]

/-- What calls for wanted tags do to a host that keeps refs, from one state to another. -/
structure Orderly (refs : σ → Set (String × String)) (wanted : Set (String × String)) (s : σ)
    (calls : List (σ × TagCall)) (s' : σ) : Prop where
  refs_eq : refs s' = refs s ∪ {ref | ref ∈ madeRefs calls}
  made_new : ∀ ref ∈ madeRefs calls, ref ∉ refs s
  made_once : (madeRefs calls).Nodup
  asksForMissing : AsksForMissing refs calls
  asksAfterObject : AsksAfterObject wanted calls

variable {wanted : Set (String × String)} {s s' s'' : σ} {calls more : List (σ × TagCall)}

theorem AsksForNone.madeRefs_eq (h : AsksForNone calls) : madeRefs calls = [] := by
  refine List.filterMap_eq_nil_iff.2 ?_
  rintro ⟨s, call⟩ hcall
  cases call with
  | tagRef | createTagObject => rfl
  | createRef repository ref object answer => exact absurd hcall (h s repository ref object answer)

theorem AsksAfterObject.append (hfirst : AsksAfterObject wanted calls)
    (hsecond : AsksAfterObject wanted more) : AsksAfterObject wanted (calls ++ more) := by
  intro earlier later s repository ref object answer h
  rcases List.append_eq_append_iff.1 h with ⟨start, rfl, hmore⟩ | ⟨rest, hcalls, hrest⟩
  · -- the call is one of the second, and so is the one before it
    obtain ⟨version, hwanted, href, start', before, message, sha, rfl⟩ :=
      hsecond start later s repository ref object answer hmore
    exact ⟨version, hwanted, href, calls ++ start', before, message, sha,
      (List.append_assoc _ _ _).symm⟩
  · cases rest with
    | nil =>
      -- the second do not start with a ref that is asked for
      obtain ⟨_, _, _, start, _, _, _, hnil⟩ :=
        hsecond [] later s repository ref object answer hrest.symm
      exact absurd hnil.symm (by simp)
    | cons call rest =>
      obtain ⟨rfl, -⟩ := List.cons.inj hrest
      exact hfirst earlier rest s repository ref object answer hcalls

theorem AsksAfterObject.mono {wanted' : Set (String × String)} (hsubset : wanted ⊆ wanted')
    (h : AsksAfterObject wanted calls) : AsksAfterObject wanted' calls := by
  intro earlier later s repository ref object answer heq
  obtain ⟨version, hwanted, hrest⟩ := h earlier later s repository ref object answer heq
  exact ⟨version, hsubset hwanted, hrest⟩

namespace Orderly

/-- Calls that leave the refs as they are and ask for none are orderly. -/
theorem of_none (hrefs : refs s' = refs s) (h : AsksForNone calls) :
    Orderly refs wanted s calls s' where
  refs_eq := by simp [hrefs, h.madeRefs_eq]
  made_new := by simp [h.madeRefs_eq]
  made_once := by simp [h.madeRefs_eq]
  asksForMissing := by
    intro s repository ref object answer hcall
    exact absurd hcall (h s repository ref object answer)
  asksAfterObject := by
    intro earlier later s repository ref object answer heq
    exact absurd (by simp [heq]) (h s repository ref object answer)

theorem refl (refs : σ → Set (String × String)) (wanted : Set (String × String)) (s : σ) :
    Orderly refs wanted s [] s :=
  .of_none rfl (by simp [AsksForNone])

theorem subset (h : Orderly refs wanted s calls s') : refs s ⊆ refs s' := by
  rw [h.refs_eq]
  exact Set.subset_union_left

theorem append (hfirst : Orderly refs wanted s calls s') (hsecond : Orderly refs wanted s' more s'') :
    Orderly refs wanted s (calls ++ more) s'' where
  refs_eq := by
    rw [hsecond.refs_eq, hfirst.refs_eq, Set.union_assoc, madeRefs_append]
    congr 1
    ext ref
    simp
  made_new := by
    intro ref href
    rw [madeRefs_append, List.mem_append] at href
    rcases href with href | href
    · exact hfirst.made_new ref href
    · exact fun hs => hsecond.made_new ref href (hfirst.subset hs)
  made_once := by
    rw [madeRefs_append, List.nodup_append]
    refine ⟨hfirst.made_once, hsecond.made_once, ?_⟩
    rintro ref href _ href' rfl
    refine hsecond.made_new ref href' ?_
    rw [hfirst.refs_eq]
    exact .inr href
  asksForMissing := by
    intro s repository ref object answer h
    rcases List.mem_append.1 h with h | h
    · exact hfirst.asksForMissing s repository ref object answer h
    · exact hsecond.asksForMissing s repository ref object answer h
  asksAfterObject := hfirst.asksAfterObject.append hsecond.asksAfterObject

theorem mono {wanted' : Set (String × String)} (hsubset : wanted ⊆ wanted')
    (h : Orderly refs wanted s calls s') : Orderly refs wanted' s calls s' :=
  { h with asksAfterObject := h.asksAfterObject.mono hsubset }

end Orderly

/-! ## Making sure of one tag -/

section Ensured

variable {template repository sha version : String} {dryRun : Bool}
  {answer : Except Failure TagOutcome}

/-- Making sure of a tag makes orderly calls, and in a dry run for no tag at all. -/
theorem Ensured.orderly (keeps : host.KeepsRefs refs)
    (hwanted : dryRun = false → (repository, version) ∈ wanted)
    (h : Ensured host template repository sha version dryRun s answer calls s') :
    Orderly refs wanted s calls s' := by
  cases h with
  | existing tag => exact .of_none (keeps.tagRef tag) (by simp [AsksForNone])
  | wanting tag _ => exact .of_none (keeps.tagRef tag) (by simp [AsksForNone])
  | objectRefused tag _ object =>
    exact .of_none ((keeps.createTagObject object).trans (keeps.tagRef tag)) (by simp [AsksForNone])
  | @refAsked _ _ answer _ s₂ _ tag real object ref =>
    have hrefs : refs s₂ = refs s := (keeps.createTagObject object).trans (keeps.tagRef tag)
    have hnew : (repository, refName version) ∉ refs s := keeps.missing tag
    exact {
      refs_eq := by
        cases answer with
        | error failure => simp [keeps.createRef_error ref, hrefs, madeRefs, TagCall.made?]
        | ok _ =>
          rw [keeps.createRef_ok ref, hrefs, ← Set.union_singleton]
          simp [madeRefs, TagCall.made?]
      made_new := by
        cases answer with
        | error failure => simp [madeRefs, TagCall.made?]
        | ok _ => simpa [madeRefs, TagCall.made?] using hnew
      made_once := by cases answer <;> simp [madeRefs, TagCall.made?]
      asksForMissing := by
        intro s repository' ref' object' answer' hcall
        simp only [List.mem_cons, Prod.mk.injEq, reduceCtorEq, and_false, false_or,
          TagCall.createRef.injEq, List.not_mem_nil, or_false] at hcall
        obtain ⟨rfl, rfl, rfl, -, -⟩ := hcall
        rwa [hrefs]
      asksAfterObject := by
        intro earlier later s repository' ref' object' answer' heq
        -- only the last of the three calls asks for a ref
        rcases earlier with _ | ⟨first, _ | ⟨second, _ | ⟨third, earlier⟩⟩⟩ <;>
          simp only [List.nil_append, List.cons_append, List.cons.injEq, Prod.mk.injEq,
            reduceCtorEq, and_false, false_and, TagCall.createRef.injEq, List.nil_eq,
            List.append_eq_nil_iff] at heq
        obtain ⟨rfl, rfl, ⟨rfl, rfl, rfl, rfl, rfl⟩, rfl⟩ := heq
        exact ⟨version, hwanted real, rfl, [_], _, _, _, rfl⟩ }

end Ensured

end Tag

end ReleaseCandidates
