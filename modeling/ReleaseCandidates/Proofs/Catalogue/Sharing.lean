import Mathlib.Data.List.Induction
import Mathlib.Logic.Function.Basic
import ReleaseCandidates.Catalogue.Cache

set_option autoImplicit false

/-! # A cache that several tasks share

`Catalogue.cached` says what a call for a commit listing comes to when its turn has come. Tasks that
run at the same time make calls at the same time, and then there is also the question whose turn it
is. A call waits. Once the listing is remembered, it is given that. As long as the listing is not
remembered and nobody fetches it, one of the waiting calls may begin to fetch it; whatever comes of
the fetch is what this call is given, and only a listing that arrived is remembered.

`Traffic.Step` says so for all listings together, `Cell.Step` for one of them. A shared cache is no
more than its cells side by side (`Traffic.possible_iff`), so all that is to be known about it can
be read off the events at one cell (`Cell.After.fetchesOnce`). -/

namespace ReleaseCandidates

/-- What a reply gives, if it is no failure. -/
def Reply.value? {α : Type} : Reply α → Option α
  | .ok a => some a
  | .failed _ | .aborted _ => none

/-! ## Calls for one listing -/

/-- What happens to the calls for a listing. -/
inductive CallEvent where
  /-- A caller asks for the listing and waits. -/
  | asked (caller : Nat)
  /-- A caller who waited begins to fetch the listing. -/
  | began (caller : Nat)
  /-- A caller's fetch has come to its end, and the caller is given what came of it. -/
  | fetched (caller : Nat) (reply : Reply (List String))
  /-- A caller who waited is given what is remembered. -/
  | found (caller : Nat) (reply : Reply (List String))
  deriving DecidableEq, Repr

namespace CallEvent

/-- The caller that begins a fetch. -/
@[simp] def began? : CallEvent → Option Nat
  | .began caller => some caller
  | _ => none

/-- The caller whose fetch has come to its end, and what came of it. -/
@[simp] def fetched? : CallEvent → Option (Nat × Reply (List String))
  | .fetched caller reply => some (caller, reply)
  | _ => none

/-- What a caller is given that waited. -/
@[simp] def found? : CallEvent → Option (Reply (List String))
  | .found _ reply => some reply
  | _ => none

end CallEvent

/-- The calls for one listing: the listing once it is remembered, the caller that fetches it, and
the callers that wait for it. -/
structure Cell where
  listing : Option (List String)
  fetching : Option Nat
  waiting : List Nat
  deriving DecidableEq, Repr

namespace Cell

variable {cell cell' : Cell} {e : CallEvent} {events : List CallEvent} {commits : List String}

/-- One event. -/
inductive Step (cell : Cell) : CallEvent → Cell → Prop where
  | asked (caller : Nat) :
      Step cell (.asked caller) { cell with waiting := caller :: cell.waiting }
  | began {caller : Nat} (waits : caller ∈ cell.waiting) (idle : cell.fetching = none)
      (unknown : cell.listing = none) :
      Step cell (.began caller)
        { cell with fetching := some caller, waiting := cell.waiting.erase caller }
  | fetched {caller : Nat} (fetches : cell.fetching = some caller) (unknown : cell.listing = none)
      (reply : Reply (List String)) :
      Step cell (.fetched caller reply) { cell with listing := reply.value?, fetching := none }
  | found {caller : Nat} {commits : List String} (waits : caller ∈ cell.waiting)
      (known : cell.listing = some commits) :
      Step cell (.found caller (.ok commits))
        { cell with waiting := cell.waiting.erase caller }

/-- The cell of a listing that nobody has asked for. -/
def untouched : Cell := ⟨none, none, []⟩

/-- What a cell may have come to after some events. -/
inductive After : List CallEvent → Cell → Prop where
  | start : After [] untouched
  | step {events : List CallEvent} {cell cell' : Cell} {e : CallEvent}
      (before : After events cell) (step : cell.Step e cell') : After (events ++ [e]) cell'

theorem After.eq_untouched (h : After [] cell) : cell = untouched := by
  generalize hnone : ([] : List CallEvent) = events at h
  cases h with
  | start => rfl
  | step before step => simp at hnone

theorem after_concat_iff :
    After (events ++ [e]) cell' ↔ ∃ cell, After events cell ∧ cell.Step e cell' := by
  constructor
  · intro h
    generalize hall : events ++ [e] = all at h
    cases h with
    | start => simp at hall
    | step before step =>
      obtain ⟨rfl, hlast⟩ := List.append_inj' hall rfl
      obtain rfl : e = _ := List.head_eq_of_cons_eq hlast
      exact ⟨_, before, step⟩
  · rintro ⟨cell, before, step⟩
    exact .step before step

/-- What an event makes of a cell is certain. -/
theorem Step.unique {cell'' : Cell} (h : cell.Step e cell') (h' : cell.Step e cell'') :
    cell' = cell'' := by
  cases h with
  | asked caller =>
    cases h' with
    | asked => rfl
  | began waits idle unknown =>
    cases h' with
    | began => rfl
  | fetched fetches unknown reply =>
    cases h' with
    | fetched => rfl
  | found waits known =>
    cases h' with
    | found => rfl

/-- The callers that have begun a fetch, in order. -/
def begun (events : List CallEvent) : List Nat :=
  events.filterMap CallEvent.began?

/-- The fetches that have come to an end, in order. -/
def fetches (events : List CallEvent) : List (Nat × Reply (List String)) :=
  events.filterMap CallEvent.fetched?

/-- What was given to callers that waited. -/
def founds (events : List CallEvent) : List (Reply (List String)) :=
  events.filterMap CallEvent.found?

@[simp] theorem begun_concat (events : List CallEvent) (e : CallEvent) :
    begun (events ++ [e]) = begun events ++ e.began?.toList := by
  cases e <;> simp [begun]

@[simp] theorem fetches_concat (events : List CallEvent) (e : CallEvent) :
    fetches (events ++ [e]) = fetches events ++ e.fetched?.toList := by
  cases e <;> simp [fetches]

@[simp] theorem founds_concat (events : List CallEvent) (e : CallEvent) :
    founds (events ++ [e]) = founds events ++ e.found?.toList := by
  cases e <;> simp [founds]

theorem mem_fetches {caller : Nat} {reply : Reply (List String)} :
    (caller, reply) ∈ fetches events ↔ .fetched caller reply ∈ events := by
  rw [fetches, List.mem_filterMap]
  constructor
  · rintro ⟨e, he, hfetched⟩
    cases e with
    | fetched caller' reply' =>
      obtain ⟨rfl, rfl⟩ := Prod.mk.inj (Option.some.inj hfetched)
      exact he
    | asked | began | found => cases hfetched
  · intro h
    exact ⟨_, h, rfl⟩

theorem mem_founds_of_mem {caller : Nat} {reply : Reply (List String)}
    (h : .found caller reply ∈ events) : reply ∈ founds events :=
  List.mem_filterMap.2 ⟨_, h, rfl⟩

/-- Some fetches have failed, and after them at most one has succeeded. Fetches end in the order in
which they begin, and at most one is going on, none after the success. What has been fetched is
remembered, and a caller that waited is given this and nothing else. -/
structure FetchesOnce (events : List CallEvent) (cell : Cell)
    (failures : List (Nat × Reply (List String))) (success : Option (Nat × List String)) :
    Prop where
  failed : ∀ fetch ∈ failures, fetch.2.value? = none
  fetches_eq : fetches events =
    failures ++ success.toList.map fun fetch => (fetch.1, .ok fetch.2)
  begun_eq : begun events = (fetches events).map Prod.fst ++ cell.fetching.toList
  alone : success.isSome = true → cell.fetching = none
  remembered : cell.listing = success.map Prod.snd
  found : ∀ reply ∈ founds events, ∃ fetch, success = some fetch ∧ reply = .ok fetch.2

namespace FetchesOnce

variable {failures : List (Nat × Reply (List String))} {success : Option (Nat × List String)}
  {caller : Nat} {reply : Reply (List String)}

theorem eq_none (h : FetchesOnce events cell failures success) (unknown : cell.listing = none) :
    success = none := by
  rw [h.remembered] at unknown
  exact Option.map_eq_none_iff.1 unknown

theorem asked (h : FetchesOnce events cell failures success) (caller : Nat) :
    FetchesOnce (events ++ [.asked caller]) { cell with waiting := caller :: cell.waiting }
      failures success where
  failed := h.failed
  fetches_eq := by simp [h.fetches_eq]
  begun_eq := by simp [h.begun_eq]
  alone := h.alone
  remembered := h.remembered
  found := by simpa using h.found

theorem began (h : FetchesOnce events cell failures none) (idle : cell.fetching = none)
    (caller : Nat) :
    FetchesOnce (events ++ [.began caller])
      { cell with fetching := some caller, waiting := cell.waiting.erase caller } failures
      none where
  failed := h.failed
  fetches_eq := by simp [h.fetches_eq]
  begun_eq := by simp [h.begun_eq, idle]
  alone := nofun
  remembered := h.remembered
  found := by simpa using h.found

theorem fetched_value (h : FetchesOnce events cell failures none)
    (fetches : cell.fetching = some caller) (commits : List String) :
    FetchesOnce (events ++ [.fetched caller (.ok commits)])
      { cell with listing := some commits, fetching := none } failures
      (some (caller, commits)) where
  failed := h.failed
  fetches_eq := by simp [h.fetches_eq]
  begun_eq := by simp [h.begun_eq, fetches]
  alone _ := rfl
  remembered := rfl
  found := by
    intro reply hreply
    obtain ⟨fetch, hnone, -⟩ := h.found reply (by simpa using hreply)
    cases hnone

theorem fetched_failure (h : FetchesOnce events cell failures none)
    (fetches : cell.fetching = some caller) (hfailed : reply.value? = none) :
    FetchesOnce (events ++ [.fetched caller reply]) { cell with listing := none, fetching := none }
      (failures ++ [(caller, reply)]) none where
  failed := by simpa [or_imp, forall_and, hfailed] using h.failed
  fetches_eq := by simp [h.fetches_eq]
  begun_eq := by simp [h.begun_eq, fetches]
  alone _ := rfl
  remembered := rfl
  found := by simpa using h.found

theorem found_value (h : FetchesOnce events cell failures success) {commits : List String}
    (known : cell.listing = some commits) (caller : Nat) :
    FetchesOnce (events ++ [.found caller (.ok commits)])
      { cell with waiting := cell.waiting.erase caller } failures success where
  failed := h.failed
  fetches_eq := by simp [h.fetches_eq]
  begun_eq := by simp [h.begun_eq]
  alone := h.alone
  remembered := h.remembered
  found := by
    rw [h.remembered, Option.map_eq_some_iff] at known
    obtain ⟨fetch, hfetch, rfl⟩ := known
    intro reply hreply
    rw [founds_concat, List.mem_append] at hreply
    rcases hreply with hbefore | hnow
    · exact h.found reply hbefore
    · exact ⟨fetch, hfetch, by simpa using hnow⟩

end FetchesOnce

theorem After.fetchesOnce (h : After events cell) :
    ∃ failures success, FetchesOnce events cell failures success := by
  induction h with
  | start => exact ⟨[], none, by simp, rfl, rfl, by simp, rfl, by simp [founds]⟩
  | step before step ih =>
    obtain ⟨failures, success, ih⟩ := ih
    cases step with
    | asked caller => exact ⟨failures, success, ih.asked caller⟩
    | began waits idle unknown =>
      obtain rfl := ih.eq_none unknown
      exact ⟨failures, none, ih.began idle _⟩
    | fetched fetches unknown reply =>
      obtain rfl := ih.eq_none unknown
      cases reply with
      | ok commits => exact ⟨failures, some (_, commits), ih.fetched_value fetches commits⟩
      | failed failure => exact ⟨_, none, ih.fetched_failure fetches rfl⟩
      | aborted message => exact ⟨_, none, ih.fetched_failure fetches rfl⟩
    | found waits known => exact ⟨failures, success, ih.found_value known _⟩

/-- While a fetch is going on, nothing is remembered. -/
theorem After.unknown {caller : Nat} (h : After events cell)
    (fetches : cell.fetching = some caller) : cell.listing = none := by
  obtain ⟨failures, success, hfetches⟩ := h.fetchesOnce
  cases success with
  | none => exact hfetches.remembered
  | some fetch =>
    rw [hfetches.alone rfl] at fetches
    cases fetches

/-- Once a fetch has succeeded, its listing stays and no other fetch begins. -/
theorem After.no_fetch_later {caller : Nat} {before after : List CallEvent}
    (h : After (before ++ .fetched caller (.ok commits) :: after) cell) :
    cell.listing = some commits ∧ ∀ other, .began other ∉ after := by
  induction after using List.reverseRecOn generalizing cell with
  | nil =>
    obtain ⟨earlier, -, step⟩ := after_concat_iff.1 h
    cases step with
    | fetched fetches unknown reply => exact ⟨rfl, fun other => List.not_mem_nil⟩
  | append_singleton after e ih =>
    rw [← List.cons_append, ← List.append_assoc] at h
    obtain ⟨earlier, hearlier, step⟩ := after_concat_iff.1 h
    obtain ⟨known, hnone⟩ := ih hearlier
    cases step with
    | asked caller => exact ⟨known, by simpa using hnone⟩
    | began waits idle unknown =>
      rw [known] at unknown
      cases unknown
    | fetched fetches unknown reply =>
      rw [known] at unknown
      cases unknown
    | found waits known' => exact ⟨known, by simpa using hnone⟩

end Cell

/-! ## One call -/

namespace Catalogue

variable {σ : Type} {c : Catalogue σ} {m : Remembered σ} {key : ListingKey}

theorem commits_cached_of_known {commits : List String} (h : m.listing? key = some commits) :
    c.cached.commits key.1 key.2 m = (.ok commits, m) := by
  simp only [cached, h]

/-- A listing that is remembered is given, and nothing changes. -/
theorem commits_cached_of_isSome (h : (m.listing? key).isSome = true) {reply : Reply (List String)}
    {m' : Remembered σ} (call : c.cached.commits key.1 key.2 m = (reply, m')) :
    ∃ commits, m.listing? key = some commits ∧ reply = .ok commits ∧ m' = m := by
  obtain ⟨commits, known⟩ := Option.isSome_iff_exists.1 h
  rw [commits_cached_of_known known] at call
  obtain ⟨rfl, rfl⟩ := Prod.mk.inj call
  exact ⟨commits, known, rfl, rfl⟩

/-- A listing that is not remembered is fetched, and remembered if it arrives. -/
theorem commits_cached_of_unknown (h : m.listing? key = none) {reply : Reply (List String)}
    {m' : Remembered σ} (call : c.cached.commits key.1 key.2 m = (reply, m')) :
    c.commits key.1 key.2 m.inner = (reply, m'.inner) ∧ m'.listing? key = reply.value? ∧
      ∀ other, other ≠ key → m'.listing? other = m.listing? other := by
  rcases hask : c.commits key.1 key.2 m.inner with ⟨answer, inner⟩
  have hinner : Remembered.ask (c.commits key.1 key.2) m = (answer, { m with inner := inner }) := by
    simp only [Remembered.ask, hask]
  simp only [cached, h, hinner] at call
  cases answer with
  | ok commits =>
    obtain ⟨rfl, rfl⟩ := Prod.mk.inj call
    refine ⟨rfl, Remembered.listing?_learn_self _ key commits, fun other hother => ?_⟩
    exact Remembered.listing?_learn_of_ne hother _ commits
  | failed failure =>
    obtain ⟨rfl, rfl⟩ := Prod.mk.inj call
    exact ⟨rfl, h, fun _ _ => rfl⟩
  | aborted message =>
    obtain ⟨rfl, rfl⟩ := Prod.mk.inj call
    exact ⟨rfl, h, fun _ _ => rfl⟩

end Catalogue

/-! ## A cache -/

/-- An event at a cache: what happens to the calls for the listing with a key. -/
structure CacheEvent where
  key : ListingKey
  event : CallEvent
  deriving DecidableEq, Repr

/-- The events at one key, in order. -/
def eventsAt (key : ListingKey) (events : List CacheEvent) : List CallEvent :=
  (events.filter (·.key == key)).map (·.event)

theorem eventsAt_concat_self (events : List CacheEvent) (e : CacheEvent) :
    eventsAt e.key (events ++ [e]) = eventsAt e.key events ++ [e.event] := by
  simp [eventsAt]

theorem eventsAt_concat_of_ne {key : ListingKey} {e : CacheEvent} (h : key ≠ e.key)
    (events : List CacheEvent) : eventsAt key (events ++ [e]) = eventsAt key events := by
  simp [eventsAt, h.symm]

/-- A cache in use: what it remembers, and for each key the caller that fetches the listing and
the callers that wait for it. -/
structure Traffic (σ : Type) where
  memory : Remembered σ
  fetching : ListingKey → Option Nat
  waiting : ListingKey → List Nat

namespace Traffic

variable {σ : Type} {c : Catalogue σ} {s s' : Traffic σ} {e : CacheEvent}
  {events : List CacheEvent} {key : ListingKey}

/-- The calls for the listing with a key. -/
def cell (s : Traffic σ) (key : ListingKey) : Cell :=
  ⟨s.memory.listing? key, s.fetching key, s.waiting key⟩

/-- One event at the cache in front of a catalogue. A caller whose turn has come does what
`Catalogue.cached` does: one that fetches, when its fetch has come to its end; one that waited, once
the listing is remembered. -/
inductive Step (c : Catalogue σ) (s : Traffic σ) : CacheEvent → Traffic σ → Prop where
  | asked (key : ListingKey) (caller : Nat) :
      Step c s ⟨key, .asked caller⟩
        { s with waiting := Function.update s.waiting key (caller :: s.waiting key) }
  | began {key : ListingKey} {caller : Nat} (waits : caller ∈ s.waiting key)
      (idle : s.fetching key = none) (unknown : s.memory.listing? key = none) :
      Step c s ⟨key, .began caller⟩
        { s with
          fetching := Function.update s.fetching key (some caller)
          waiting := Function.update s.waiting key ((s.waiting key).erase caller) }
  | fetched {key : ListingKey} {caller : Nat} {reply : Reply (List String)} {memory : Remembered σ}
      (fetches : s.fetching key = some caller)
      (call : c.cached.commits key.1 key.2 s.memory = (reply, memory)) :
      Step c s ⟨key, .fetched caller reply⟩
        { s with memory := memory, fetching := Function.update s.fetching key none }
  | found {key : ListingKey} {caller : Nat} {reply : Reply (List String)} {memory : Remembered σ}
      (waits : caller ∈ s.waiting key) (known : (s.memory.listing? key).isSome = true)
      (call : c.cached.commits key.1 key.2 s.memory = (reply, memory)) :
      Step c s ⟨key, .found caller reply⟩
        { s with
          memory := memory
          waiting := Function.update s.waiting key ((s.waiting key).erase caller) }

/-- What a new cache may have come to after some events. -/
inductive After (c : Catalogue σ) (start : σ) : List CacheEvent → Traffic σ → Prop where
  | start : After c start [] ⟨.start start, fun _ => none, fun _ => []⟩
  | step {events : List CacheEvent} {s s' : Traffic σ} {e : CacheEvent}
      (before : After c start events s) (step : Step c s e s') : After c start (events ++ [e]) s'

/-- An event at a key is one at its cell, and leaves the other cells alone. -/
theorem Step.cell (h : Step c s e s')
    (sound : ∀ caller, s.fetching e.key = some caller → s.memory.listing? e.key = none) :
    (s.cell e.key).Step e.event (s'.cell e.key) ∧
      ∀ key, key ≠ e.key → s'.cell key = s.cell key := by
  cases h with
  | asked key caller =>
    refine ⟨?_, fun other hother => ?_⟩
    · simp only [Traffic.cell, Function.update_self]
      exact .asked caller
    · simp only [Traffic.cell, Function.update_of_ne hother]
  | began waits idle unknown =>
    refine ⟨?_, fun other hother => ?_⟩
    · simp only [Traffic.cell, Function.update_self]
      exact .began waits idle unknown
    · simp only [Traffic.cell, Function.update_of_ne hother]
  | fetched fetches call =>
    have unknown := sound _ fetches
    obtain ⟨-, hself, hothers⟩ := Catalogue.commits_cached_of_unknown unknown call
    refine ⟨?_, fun other hother => ?_⟩
    · simp only [Traffic.cell, Function.update_self, hself]
      exact .fetched fetches unknown _
    · simp only [Traffic.cell, Function.update_of_ne hother, hothers other hother]
  | found waits known call =>
    obtain ⟨commits, known, rfl, rfl⟩ := Catalogue.commits_cached_of_isSome known call
    refine ⟨?_, fun other hother => ?_⟩
    · simp only [Traffic.cell, Function.update_self]
      exact .found waits known
    · simp only [Traffic.cell, Function.update_of_ne hother]

/-- What has happened at a cache has happened at each of its cells. -/
theorem After.cell {start : σ} (h : After c start events s) (key : ListingKey) :
    Cell.After (eventsAt key events) (s.cell key) := by
  induction h generalizing key with
  | start => exact .start
  | @step events s s' e before step ih =>
    obtain ⟨hhere, hothers⟩ := step.cell fun caller fetches => (ih e.key).unknown fetches
    by_cases hkey : key = e.key
    · subst hkey
      rw [eventsAt_concat_self]
      exact .step (ih e.key) hhere
    · rw [eventsAt_concat_of_ne hkey, hothers key hkey]
      exact ih key

end Traffic

/-! ## What the catalogue behind is asked -/

/-- The catalogue with the commit listings written down that it was asked for, each with its
answer. -/
def Catalogue.logged {σ : Type} (c : Catalogue σ) :
    Catalogue (σ × List (ListingKey × Reply (List String))) where
  releases repository limit := fun (s, log) =>
    let (reply, s) := c.releases repository limit s
    (reply, s, log)
  commits repository limit := fun (s, log) =>
    let (reply, s) := c.commits repository limit s
    (reply, s, log ++ [((repository, limit), reply)])
  manifest image tag := fun (s, log) =>
    let (reply, s) := c.manifest image tag s
    (reply, s, log)

theorem Catalogue.commits_logged {σ : Type} {c : Catalogue σ} {key : ListingKey}
    {s s' : σ × List (ListingKey × Reply (List String))} {reply : Reply (List String)}
    (h : c.logged.commits key.1 key.2 s = (reply, s')) : s'.2 = s.2 ++ [(key, reply)] := by
  obtain ⟨hreply, hstate⟩ := Prod.mk.inj h
  rw [← hstate, ← hreply]

/-- The listing that was fetched, and what came of it. -/
def CacheEvent.fetched? (e : CacheEvent) : Option (ListingKey × Reply (List String)) :=
  e.event.fetched?.map fun fetch => (e.key, fetch.2)

namespace Traffic

variable {σ : Type} {c : Catalogue σ} {events : List CacheEvent}

theorem Step.log {s s' : Traffic (σ × List (ListingKey × Reply (List String)))} {e : CacheEvent}
    (h : Step c.logged s e s')
    (sound : ∀ caller, s.fetching e.key = some caller → s.memory.listing? e.key = none) :
    s'.memory.inner.2 = s.memory.inner.2 ++ e.fetched?.toList := by
  cases h with
  | asked key caller => exact (List.append_nil _).symm
  | began waits idle unknown => exact (List.append_nil _).symm
  | fetched fetches call =>
    obtain ⟨hasked, -, -⟩ := Catalogue.commits_cached_of_unknown (sound _ fetches) call
    exact Catalogue.commits_logged hasked
  | found waits known call =>
    obtain ⟨commits, known, rfl, rfl⟩ := Catalogue.commits_cached_of_isSome known call
    exact (List.append_nil _).symm

/-- The catalogue behind a cache is asked for the listings that are fetched, and for no others. -/
theorem After.log {start : σ} {s : Traffic (σ × List (ListingKey × Reply (List String)))}
    (h : After c.logged (start, []) events s) :
    s.memory.inner.2 = events.filterMap CacheEvent.fetched? := by
  induction h with
  | start => rfl
  | @step events s s' e before step ih =>
    rw [step.log fun caller fetches => (before.cell e.key).unknown fetches, ih,
      List.filterMap_append]
    cases hfetched : e.fetched? with
    | none => rw [List.filterMap_cons_none hfetched]; rfl
    | some fetch => rw [List.filterMap_cons_some hfetched]; rfl

/-! ## Cells side by side -/

/-- A catalogue that has its answers ready, in order, for each listing. -/
def scripted : Catalogue (ListingKey → List (Reply (List String))) where
  releases _ _ := return .ok []
  commits repository limit := fun script =>
    match script (repository, limit) with
    | [] => (.ok [], script)
    | reply :: rest => (reply, Function.update script (repository, limit) rest)
  manifest _ _ := return .ok none

theorem commits_scripted {script : ListingKey → List (Reply (List String))} {key : ListingKey}
    {reply : Reply (List String)} {rest : List (Reply (List String))}
    (h : script key = reply :: rest) :
    scripted.commits key.1 key.2 script = (reply, Function.update script key rest) := by
  simp only [scripted, h]

/-- The answers that an event takes from a script. -/
def CacheEvent.replies (e : CacheEvent) (key : ListingKey) : List (Reply (List String)) :=
  if key = e.key then e.event.fetched?.toList.map Prod.snd else []

/-- An event that is possible at its cell is possible at the cache, if the script says what is to be
fetched next. -/
theorem exists_step_scripted {s : Traffic (ListingKey → List (Reply (List String)))}
    {e : CacheEvent} {cell' : Cell} {more : ListingKey → List (Reply (List String))}
    (hstep : (s.cell e.key).Step e.event cell')
    (hscript : s.memory.inner = fun key => CacheEvent.replies e key ++ more key) :
    ∃ s', Step scripted s e s' ∧ s'.memory.inner = more := by
  obtain ⟨key, event⟩ := e
  cases hstep with
  | asked caller =>
    refine ⟨_, .asked key caller, ?_⟩
    rw [hscript]
    funext other
    simp [CacheEvent.replies]
  | began waits idle unknown =>
    refine ⟨_, .began waits idle unknown, ?_⟩
    rw [hscript]
    funext other
    simp [CacheEvent.replies]
  | @fetched caller fetches unknown reply =>
    have hnext : s.memory.inner key = reply :: more key := by
      simp [hscript, CacheEvent.replies]
    have hcommits := commits_scripted hnext
    rcases hcall : scripted.cached.commits key.1 key.2 s.memory with ⟨answer, memory⟩
    obtain ⟨hasked, -, -⟩ := Catalogue.commits_cached_of_unknown unknown hcall
    obtain ⟨rfl, hinner⟩ := Prod.mk.inj (hcommits.symm.trans hasked)
    refine ⟨_, .fetched fetches hcall, ?_⟩
    show memory.inner = more
    rw [← hinner, hscript]
    funext other
    by_cases hother : other = key
    · rw [hother, Function.update_self]
    · rw [Function.update_of_ne hother]
      simp [CacheEvent.replies, hother]
  | @found caller commits waits known =>
    have hcall := Catalogue.commits_cached_of_known (c := scripted) known
    refine ⟨_, .found waits (Option.isSome_iff_exists.2 ⟨commits, known⟩) hcall, ?_⟩
    rw [hscript]
    funext other
    simp [CacheEvent.replies]

/-- What is possible at each cell is possible at the cache, with a script that has the answers. -/
theorem exists_after_scripted (events : List CacheEvent) (cells : ListingKey → Cell)
    (h : ∀ key, Cell.After (eventsAt key events) (cells key))
    (more : ListingKey → List (Reply (List String))) :
    ∃ script s, After scripted script events s ∧ s.memory.inner = more ∧
      ∀ key, s.cell key = cells key := by
  induction events using List.reverseRecOn generalizing cells more with
  | nil => exact ⟨more, _, .start, rfl, fun key => (h key).eq_untouched.symm⟩
  | append_singleton events e ih =>
    have hhere := h e.key
    rw [eventsAt_concat_self] at hhere
    obtain ⟨before, hbefore, hstep⟩ := Cell.after_concat_iff.1 hhere
    -- without the event its cell is the one before, and its answer is still in the script
    have hcells : ∀ key, Cell.After (eventsAt key events)
        (Function.update cells e.key before key) := by
      intro key
      by_cases hkey : key = e.key
      · rw [hkey, Function.update_self]
        exact hbefore
      · rw [Function.update_of_ne hkey, ← eventsAt_concat_of_ne hkey events]
        exact h key
    obtain ⟨script, s, hafter, hinner, hsame⟩ :=
      ih _ hcells fun key => CacheEvent.replies e key ++ more key
    have hcell : s.cell e.key = before := by rw [hsame, Function.update_self]
    rw [← hcell] at hstep
    obtain ⟨s', hnext, hmore⟩ := exists_step_scripted hstep hinner
    refine ⟨script, s', .step hafter hnext, hmore, fun key => ?_⟩
    obtain ⟨hthis, hothers⟩ := hnext.cell fun caller fetches => (hafter.cell e.key).unknown fetches
    by_cases hkey : key = e.key
    · rw [hkey]
      exact hthis.unique hstep
    · rw [hothers key hkey, hsame, Function.update_of_ne hkey]

/-- **Listings have nothing to do with each other.** Events are possible at a cache, with some
catalogue behind it, exactly if those at each key are possible at a cell. -/
theorem possible_iff (events : List CacheEvent) :
    (∃ (σ : Type) (c : Catalogue σ) (start : σ) (s : Traffic σ), After c start events s) ↔
      ∀ key, ∃ cell, Cell.After (eventsAt key events) cell := by
  constructor
  · rintro ⟨σ, c, start, s, hafter⟩ key
    exact ⟨s.cell key, hafter.cell key⟩
  · intro h
    choose cells hcells using h
    obtain ⟨script, s, hafter, -, -⟩ := exists_after_scripted events cells hcells fun _ => []
    exact ⟨_, scripted, script, s, hafter⟩

end Traffic

end ReleaseCandidates
