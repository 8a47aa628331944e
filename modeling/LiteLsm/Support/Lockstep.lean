import LiteLsm.Support.Program

/-!
# Programs in step with a reference

A machine whose steps are programs runs beside a reference machine which takes
the same events.  If, as long as an invariant relates the two, a step returns
and keeps them in agreement exactly when it meets a condition, then a whole
run is in step exactly when all of its steps meet the condition.
-/

namespace Lockstep

open Checked

variable {σ τ ε : Type} (step : ε → σ → Program σ) (reference : ε → τ → τ)

/-- Every step of the run returns, and with a state that agrees with the
reference. -/
def InStep (agree : σ → τ → Prop) : List ε → σ → τ → Prop
  | [], _, _ => True
  | event :: later, state, position =>
      ∃ next, step event state = pure next ∧
        agree next (reference event position) ∧
        InStep agree later next (reference event position)

/-- Every step of the run is taken under the condition. -/
def Throughout (condition : ε → σ → τ → Prop) : List ε → σ → τ → Prop
  | [], _, _ => True
  | event :: later, state, position =>
      condition event state position ∧
        ∀ next, step event state = pure next →
          Throughout condition later next (reference event position)

/-- What one step has to do: return, agree exactly under the condition, and
then keep the invariant. -/
structure Keeps (invariant agree : σ → τ → Prop)
    (condition : ε → σ → τ → Prop) (event : ε) (state : σ) (position : τ)
    (next : σ) : Prop where
  returns : step event state = pure next
  exactly : agree next (reference event position) ↔
    condition event state position
  kept : condition event state position →
    invariant next (reference event position)

variable {step reference}

theorem inStep_iff {agree : σ → τ → Prop} {condition : ε → σ → τ → Prop}
    (invariant : σ → τ → Prop)
    (keeps : ∀ event state position, invariant state position →
      ∃ next, Keeps step reference invariant agree condition event state
        position next)
    {events : List ε} {state : σ} {position : τ}
    (holds : invariant state position) :
    InStep step reference agree events state position ↔
      Throughout step reference condition events state position := by
  induction events generalizing state position with
  | nil => exact Iff.rfl
  | cons event later induction =>
      obtain ⟨next, returns, exactly, kept⟩ :=
        keeps event state position holds
      constructor
      · rintro ⟨reached, run, agrees, rest⟩
        have same : reached = next :=
          pure_injective (run.symm.trans returns)
        subst same
        have met := exactly.mp agrees
        refine ⟨met, fun other ran => ?_⟩
        have again : other = reached := pure_injective (ran.symm.trans run)
        subst again
        exact (induction (kept met)).mp rest
      · rintro ⟨met, rest⟩
        exact ⟨next, returns, exactly.mpr met,
          (induction (kept met)).mpr (rest next returns)⟩

end Lockstep
