/-!
# Runs of a state machine

A run is a list of events applied one after another.  What every event
preserves holds at the end.  What holds of every step of a run is a predicate
on the event and the state before it.  Two such
predicates hold of the same runs if they agree on each step that is taken in a
state which satisfies an invariant, and if the invariant is kept as long as
they hold.
-/

namespace Runs

variable {σ ε : Type} (apply : σ → ε → σ)

/-- Every step of the run has the property. -/
def Throughout (property : σ → ε → Prop) : σ → List ε → Prop
  | _, [] => True
  | state, event :: events =>
      property state event ∧ Throughout property (apply state event) events

/-- The state after the run. -/
def final (state : σ) (events : List ε) : σ :=
  events.foldl apply state

variable {apply}

theorem final_preserves (invariant : σ → Prop)
    (preserved : ∀ state event, invariant state →
      invariant (apply state event))
    {state : σ} (holds : invariant state) (events : List ε) :
    invariant (final apply state events) := by
  induction events generalizing state with
  | nil => exact holds
  | cons event events induction =>
      exact induction (preserved state event holds)

/-- What every event with the property preserves holds at the end of every run
that has the property throughout. -/
theorem final_of_throughout {property : σ → ε → Prop} (invariant : σ → Prop)
    (preserved : ∀ state event, invariant state → property state event →
      invariant (apply state event))
    {state : σ} {events : List ε} (holds : invariant state)
    (run : Throughout apply property state events) :
    invariant (final apply state events) := by
  induction events generalizing state with
  | nil => exact holds
  | cons event events induction =>
      exact induction (preserved state event holds run.1) run.2

/-- Two machines that take the same events stay related if every step keeps
them so. -/
theorem final_related {τ : Type} {other : τ → ε → τ}
    {property : σ → ε → Prop} {condition : τ → ε → Prop}
    (related : σ → τ → Prop)
    (preserved : ∀ left right event, related left right →
      property left event → condition right event →
      related (apply left event) (other right event))
    {left : σ} {right : τ} {events : List ε} (holds : related left right)
    (run : Throughout apply property left events)
    (conditioned : Throughout other condition right events) :
    related (final apply left events) (final other right events) := by
  induction events generalizing left right with
  | nil => exact holds
  | cons event events induction =>
      exact induction
        (preserved left right event holds run.1 conditioned.1) run.2
        conditioned.2

theorem throughout_append {property : σ → ε → Prop} {state : σ}
    {before later : List ε} :
    Throughout apply property state (before ++ later) ↔
      Throughout apply property state before ∧
        Throughout apply property (final apply state before) later := by
  induction before generalizing state with
  | nil => exact (and_iff_right trivial).symm
  | cons event events induction =>
      rw [List.cons_append, Throughout, Throughout, induction, and_assoc]
      rfl

theorem throughout_and {left right : σ → ε → Prop} {state : σ}
    {events : List ε} (holds : Throughout apply left state events)
    (also : Throughout apply right state events) :
    Throughout apply (fun state event => left state event ∧ right state event)
      state events := by
  induction events generalizing state with
  | nil => trivial
  | cons event events induction =>
      exact ⟨⟨holds.1, also.1⟩, induction holds.2 also.2⟩

theorem final_append (state : σ) (before later : List ε) :
    final apply state (before ++ later) =
      final apply (final apply state before) later :=
  List.foldl_append

/-- A property that agrees with another one step by step agrees with it run
by run. -/
theorem throughout_iff {permitted left right : σ → ε → Prop}
    (invariant : σ → Prop)
    (agree : ∀ state event, invariant state → permitted state event →
      (left state event ↔ right state event))
    (preserved : ∀ state event, invariant state → permitted state event →
      right state event → invariant (apply state event))
    {state : σ} {events : List ε} (holds : invariant state)
    (run : Throughout apply permitted state events) :
    Throughout apply left state events ↔
      Throughout apply right state events := by
  induction events generalizing state with
  | nil => exact Iff.rfl
  | cons event events induction =>
      obtain ⟨allowed, later⟩ := run
      have here := agree state event holds allowed
      constructor
      · rintro ⟨leftHere, leftLater⟩
        have rightHere := here.mp leftHere
        have kept := preserved state event holds allowed rightHere
        exact ⟨rightHere, (induction kept later).mp leftLater⟩
      · rintro ⟨rightHere, rightLater⟩
        have kept := preserved state event holds allowed rightHere
        exact ⟨here.mpr rightHere, (induction kept later).mpr rightLater⟩

end Runs
