import AirInquiry.Peer.Session

/-!
# Dialogues side by side

A pool runs several dialogues at once on one clock. A dialogue goes on until a reply is not there
yet. When all wait, the clock moves to the earliest due time, and the dialogues whose replies are
due go on in the order of the list, each until it has to wait again. With a deadline the run is
given up as soon as nothing is due by then; what was due at the deadline itself is still carried
out.

Every round brings at least one dialogue further, and a dialogue cannot go on for ever. `Pool.Ahead`
is the order behind this: one place is further, and no place is further back.
-/

set_option autoImplicit false
set_option relaxedAutoImplicit false

namespace AirInquiry

namespace Dialogue

variable {α : Type}

/-- `later` is what is left of `earlier` after one reply. -/
inductive Follows : Dialogue α → Dialogue α → Prop where
  | complete (request : Completion.Request) (next : Completion.Reply → Dialogue α)
      (reply : Completion.Reply) : Follows (next reply) (.complete request next)
  | post (query : String) (next : Transport.Reply → Dialogue α) (reply : Transport.Reply) :
      Follows (next reply) (.post query next)

theorem follows_wellFounded : WellFounded (Follows (α := α)) := by
  refine ⟨fun dialogue ↦ ?_⟩
  induction dialogue with
  | done result => exact ⟨_, fun _ h ↦ by cases h⟩
  | complete request next ih => exact ⟨_, fun _ h ↦ by cases h; exact ih _⟩
  | post query next ih => exact ⟨_, fun _ h ↦ by cases h; exact ih _⟩

end Dialogue

/-- What has become of a dialogue in a pool. -/
inductive Place (α : Type) where
  | finished (result : α)
  | waiting (due : Nat) (rest : Dialogue α)

namespace Place

variable {α σ : Type}

/-- When the awaited reply is due. -/
def due? : Place α → Option Nat
  | .finished _ => none
  | .waiting due _ => some due

/-- The result of a finished dialogue. -/
def result? : Place α → Option α
  | .finished result => some result
  | .waiting _ _ => none

/-- One place is further than another: its dialogue is finished or has had at least one more
reply. -/
inductive Ahead : Place α → Place α → Prop where
  | finished (result : α) (due : Nat) (rest : Dialogue α) :
      Ahead (.finished result) (.waiting due rest)
  | further (newDue due : Nat) (newRest rest : Dialogue α)
      (h : Relation.TransGen Dialogue.Follows newRest rest) :
      Ahead (.waiting newDue newRest) (.waiting due rest)

theorem acc_finished (result : α) : Acc Ahead (Place.finished result) :=
  ⟨_, fun _ h ↦ by cases h⟩

theorem ahead_wellFounded : WellFounded (Ahead (α := α)) := by
  have waiting : ∀ rest : Dialogue α, Acc (Relation.TransGen Dialogue.Follows) rest →
      ∀ due, Acc Ahead (Place.waiting due rest) := by
    intro rest h
    induction h with
    | intro rest _ ih =>
      intro due
      refine ⟨_, fun place hplace ↦ ?_⟩
      cases hplace with
      | finished result => exact acc_finished result
      | further newDue _ newRest _ h => exact ih newRest h newDue
  refine ⟨fun place ↦ ?_⟩
  cases place with
  | finished result => exact acc_finished result
  | waiting due rest => exact waiting rest (Dialogue.follows_wellFounded.transGen.apply rest) due

end Place

namespace Dialogue

variable {α σ : Type}

/-- Carries out a dialogue until it is finished or a reply is not there yet. -/
def proceed (peers : Peers σ) : Dialogue α → Session σ → Place α × Session σ
  | .done result, session => (.finished result, session)
  | .complete request next, session =>
    let (answer, session) := session.complete peers request
    if answer.delay = 0 then (next answer.reply).proceed peers session
    else (.waiting (session.clock + answer.delay) (next answer.reply), session)
  | .post query next, session =>
    let (answer, session) := session.post peers query
    if answer.delay = 0 then (next answer.reply).proceed peers session
    else (.waiting (session.clock + answer.delay) (next answer.reply), session)

/-- A dialogue that has to wait has had a reply since. -/
theorem proceed_follows (peers : Peers σ) (dialogue : Dialogue α) (session : Session σ)
    (due : Nat) (rest : Dialogue α) (h : (dialogue.proceed peers session).1 = .waiting due rest) :
    Relation.TransGen Follows rest dialogue := by
  induction dialogue generalizing session with
  | done result => simp [proceed] at h
  | complete request next ih =>
    simp only [proceed] at h
    split at h
    · exact (ih _ _ h).tail (.complete request next _)
    · cases h
      exact .single (.complete request next _)
  | post query next ih =>
    simp only [proceed] at h
    split at h
    · exact (ih _ _ h).tail (.post query next _)
    · cases h
      exact .single (.post query next _)

end Dialogue

/-- Dialogues that run side by side. -/
structure Pool (α : Type) where
  places : List (Place α)

namespace Pool

variable {α σ : Type}

/-- One list of places is further than another: some place is further and no place is further
back. -/
inductive PlacesAhead : List (Place α) → List (Place α) → Prop where
  | first {newPlace place : Place α} (places : List (Place α)) (h : newPlace.Ahead place) :
      PlacesAhead (newPlace :: places) (place :: places)
  | both {newPlace place : Place α} {newPlaces places : List (Place α)}
      (h : newPlace.Ahead place) (hs : PlacesAhead newPlaces places) :
      PlacesAhead (newPlace :: newPlaces) (place :: places)
  | later (place : Place α) {newPlaces places : List (Place α)}
      (hs : PlacesAhead newPlaces places) : PlacesAhead (place :: newPlaces) (place :: places)

theorem acc_cons {place : Place α} (hplace : Acc Place.Ahead place) :
    ∀ {places : List (Place α)}, Acc PlacesAhead places → Acc PlacesAhead (place :: places) := by
  induction hplace with
  | intro place _ ih =>
    intro places hplaces
    induction hplaces with
    | intro places hbelow ihs =>
      refine ⟨_, fun newPlaces h ↦ ?_⟩
      cases h with
      | first _ h => exact ih _ h ⟨_, hbelow⟩
      | both h hs => exact ih _ h (hbelow _ hs)
      | later _ hs => exact ihs _ hs

theorem placesAhead_wellFounded : WellFounded (PlacesAhead (α := α)) := by
  refine ⟨fun places ↦ ?_⟩
  induction places with
  | nil => exact ⟨_, fun _ h ↦ by cases h⟩
  | cons place places ih => exact acc_cons (Place.ahead_wellFounded.apply place) ih

instance : WellFoundedRelation (Pool α) where
  rel newPool pool := PlacesAhead newPool.places pool.places
  wf := InvImage.wf Pool.places placesAhead_wellFounded

/-- Runs a step for every item of a list in order. -/
def inOrder {β γ : Type} (step : β → Session σ → γ × Session σ) :
    List β → Session σ → List γ × Session σ
  | [], session => ([], session)
  | item :: rest, session =>
    let (result, session) := step item session
    let (results, session) := inOrder step rest session
    (result :: results, session)

/-- The pool in which every dialogue has been started in order. -/
def start (peers : Peers σ) (dialogues : List (Dialogue α)) (session : Session σ) :
    Pool α × Session σ :=
  let (places, session) := inOrder (Dialogue.proceed peers) dialogues session
  (⟨places⟩, session)

/-- When the next reply is due, if any dialogue waits. -/
def earliest? (pool : Pool α) : Option Nat := (pool.places.filterMap Place.due?).min?

/-- The results of the finished dialogues. -/
def results (pool : Pool α) : List α := pool.places.filterMap Place.result?

/-- Lets a dialogue go on if its reply is due. -/
def wakePlace (peers : Peers σ) (now : Nat) (place : Place α) (session : Session σ) :
    Place α × Session σ :=
  match place with
  | .finished result => (.finished result, session)
  | .waiting due rest =>
    if due ≤ now then rest.proceed peers session else (.waiting due rest, session)

/-- Lets all dialogues go on whose replies are due. -/
def wake (peers : Peers σ) (now : Nat) (pool : Pool α) (session : Session σ) :
    Pool α × Session σ :=
  let (places, session) := inOrder (wakePlace peers now) pool.places session
  (⟨places⟩, session)

theorem wakePlace_ahead (peers : Peers σ) (now due : Nat) (rest : Dialogue α)
    (session : Session σ) (h : due ≤ now) :
    (wakePlace peers now (.waiting due rest) session).1.Ahead (.waiting due rest) := by
  simp only [wakePlace, h, if_true]
  cases hplace : (rest.proceed peers session).1 with
  | finished result => exact .finished result due rest
  | waiting newDue newRest =>
    exact .further newDue due newRest rest
      (Dialogue.proceed_follows peers rest session newDue newRest hplace)

theorem wakePlace_eq_or_ahead (peers : Peers σ) (now : Nat) (place : Place α)
    (session : Session σ) :
    (wakePlace peers now place session).1 = place ∨
      (wakePlace peers now place session).1.Ahead place := by
  cases place with
  | finished result => exact .inl rfl
  | waiting due rest =>
    by_cases h : due ≤ now
    · exact .inr (wakePlace_ahead peers now due rest session h)
    · exact .inl (by simp [wakePlace, h])

theorem inOrder_wakePlace_eq_or_ahead (peers : Peers σ) (now : Nat) (places : List (Place α))
    (session : Session σ) :
    (inOrder (wakePlace peers now) places session).1 = places ∨
      PlacesAhead (inOrder (wakePlace peers now) places session).1 places := by
  induction places generalizing session with
  | nil => exact .inl rfl
  | cons place places ih =>
    simp only [inOrder]
    rcases wakePlace_eq_or_ahead peers now place session with hplace | hplace <;>
      rcases ih (wakePlace peers now place session).2 with hrest | hrest
    · exact .inl (by rw [hplace, hrest])
    · exact .inr (by rw [hplace]; exact .later place hrest)
    · exact .inr (by rw [hrest]; exact .first places hplace)
    · exact .inr (.both hplace hrest)

theorem inOrder_wakePlace_ahead (peers : Peers σ) (now : Nat) (places : List (Place α))
    (session : Session σ) (due : Nat) (hdue : due ∈ places.filterMap Place.due?)
    (hnow : due ≤ now) :
    PlacesAhead (inOrder (wakePlace peers now) places session).1 places := by
  induction places generalizing session with
  | nil => simp at hdue
  | cons place places ih =>
    simp only [inOrder]
    have hrest := inOrder_wakePlace_eq_or_ahead peers now places
      (wakePlace peers now place session).2
    cases place with
    | finished result =>
      exact .later _ (ih _ (by simpa [Place.due?] using hdue))
    | waiting placeDue rest =>
      by_cases h : placeDue ≤ now
      · have hplace := wakePlace_ahead peers now placeDue rest session h
        rcases hrest with hrest | hrest
        · rw [hrest]
          exact .first places hplace
        · exact .both hplace hrest
      · have hmem : due ∈ places.filterMap Place.due? := by
          simp only [List.filterMap_cons, Place.due?, List.mem_cons] at hdue
          rcases hdue with rfl | hmem
          · exact absurd hnow h
          · exact hmem
        have hsame : (wakePlace peers now (.waiting placeDue rest) session).1 =
            .waiting placeDue rest := by simp [wakePlace, h]
        rw [hsame]
        exact .later _ (ih _ hmem)

/-- Waking the dialogues at the earliest due time brings the pool further. -/
theorem wake_ahead (peers : Peers σ) (pool : Pool α) (session : Session σ) (due : Nat)
    (h : pool.earliest? = some due) :
    PlacesAhead (wake peers due pool session).1.places pool.places :=
  inOrder_wakePlace_ahead peers due pool.places session due (List.min?_mem h) (Nat.le_refl due)

/-- Whether a time lies behind the deadline. -/
def isLate (deadline : Option Nat) (time : Nat) : Bool :=
  match deadline with
  | none => false
  | some limit => limit < time

/-- Carries on a pool until every dialogue is finished, or until nothing is due by the deadline. In
the second case the clock stands at the deadline and there are no results. -/
def run (peers : Peers σ) (deadline : Option Nat) (pool : Pool α) (session : Session σ) :
    Option (List α) × Session σ :=
  match _h : pool.earliest? with
  | none => (some pool.results, session)
  | some due =>
    if isLate deadline due then
      (none, { session with clock := max session.clock (deadline.getD session.clock) })
    else
      let next := wake peers due pool { session with clock := due }
      run peers deadline next.1 next.2
termination_by pool
decreasing_by exact wake_ahead peers pool _ due _h

/-- Carries out dialogues side by side. -/
def runAll (peers : Peers σ) (deadline : Option Nat) (dialogues : List (Dialogue α))
    (session : Session σ) : Option (List α) × Session σ :=
  let (pool, session) := start peers dialogues session
  pool.run peers deadline session

theorem isSome_run (peers : Peers σ) (pool : Pool α) (session : Session σ) :
    (pool.run peers none session).1.isSome := by
  fun_induction run peers none pool session with
  | case1 => rfl
  | case2 _ _ due _ hlate => simp [isLate] at hlate
  | case3 _ _ _ _ _ _ ih => exact ih

theorem isSome_runAll (peers : Peers σ) (dialogues : List (Dialogue α)) (session : Session σ) :
    (runAll peers none dialogues session).1.isSome :=
  isSome_run peers _ _

end Pool

end AirInquiry
