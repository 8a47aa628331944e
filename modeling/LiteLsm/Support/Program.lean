import Mathlib.Algebra.Group.Int.Defs
import Mathlib.Algebra.Group.Nat.Defs

/-!
# Programs that may fault

A run of unchecked code either produces a result or stops with a fault.  Its
only other source of behaviour is the value of a variable that was never set:
such values come from a stream supplied by the environment, so a statement
for every stream is a statement for every choice of them.

Loops carry a bound on the number of passes through their body.  Exceeding the
bound is a fault of its own; a result therefore always comes from a loop that
terminated within it.
-/

namespace Checked

/-- The ways in which a run can stop without a result. -/
inductive Fault where
  | unreadable (address : Nat)
  | pastSlice (size wanted : Nat)
  | assertion
  | loopBound
  deriving DecidableEq, Repr

/-- Computations over a stream of indeterminate values. -/
abbrev Program := StateT (Nat → UInt32) (Except Fault)

variable {α β σ : Type}

/-- The value of a variable which was declared but never assigned. -/
def unset : Program UInt32 :=
  fun stream => .ok (stream 0, fun index => stream (index + 1))

def fault (reason : Fault) : Program α :=
  fun _ => .error reason

@[simp] theorem fault_bind (reason : Fault) (next : α → Program β) :
    (fault reason >>= next) = fault reason :=
  rfl

theorem pure_ne_fault (value : α) (reason : Fault) :
    (pure value : Program α) ≠ fault reason := by
  intro equality
  have atStream := congrFun equality (fun _ => 0)
  cases atStream

theorem pure_injective {left right : α}
    (equality : (pure left : Program α) = pure right) : left = right := by
  have atStream := congrFun equality (fun _ => 0)
  cases atStream
  rfl

/-- The result of a run with the given indeterminate values. -/
def outcome (program : Program α) (stream : Nat → UInt32) : Except Fault α :=
  (program stream).map Prod.fst

@[simp] theorem outcome_pure (value : α) (stream : Nat → UInt32) :
    outcome (pure value) stream = .ok value :=
  rfl

/-- No choice of the indeterminate values leads to a fault. -/
def Safe (program : Program α) : Prop :=
  ∀ stream, ∃ outcome, program stream = .ok outcome

theorem safe_pure (value : α) : Safe (pure value : Program α) :=
  fun stream => ⟨(value, stream), rfl⟩

theorem not_safe_fault (reason : Fault) :
    ¬Safe (fault reason : Program α) := by
  intro safe
  obtain ⟨outcome, equality⟩ := safe (fun _ => 0)
  cases equality

theorem not_safe_of_outcome {program : Program α} {stream : Nat → UInt32}
    (stopped : (outcome program stream).isOk = false) : ¬Safe program := by
  intro safe
  obtain ⟨result, run⟩ := safe stream
  rw [outcome, run] at stopped
  cases stopped

/-- `while (condition) body`, with at most the given number of passes. -/
def whileLoop (condition : σ → Program Bool) (body : σ → Program σ) :
    Nat → σ → Program σ
  | 0, state => do
      if ← condition state then fault .loopBound else pure state
  | passes + 1, state => do
      if ← condition state then
        let next ← body state
        whileLoop condition body passes next
      else pure state

section Rules

variable {condition : σ → Program Bool} {body : σ → Program σ}

theorem whileLoop_stops {state : σ}
    (stopped : condition state = pure false) (passes : Nat) :
    whileLoop condition body passes state = pure state := by
  cases passes <;> simp [whileLoop, stopped]

theorem whileLoop_step {state next : σ}
    (continues : condition state = pure true)
    (advances : body state = pure next) (passes : Nat) :
    whileLoop condition body (passes + 1) state =
      whileLoop condition body passes next := by
  simp [whileLoop, continues, advances]

theorem whileLoop_unroll (path : Nat → σ) {steps : Nat}
    (continues : ∀ index, index < steps →
      condition (path index) = pure true)
    (advances : ∀ index, index < steps →
      body (path index) = pure (path (index + 1)))
    (passes : Nat) :
    whileLoop condition body (steps + passes) (path 0) =
      whileLoop condition body passes (path steps) := by
  induction steps generalizing passes with
  | zero => rw [Nat.zero_add]
  | succ steps induction =>
      have earlier := induction
        (fun index below => continues index (Nat.lt_succ_of_lt below))
        (fun index below => advances index (Nat.lt_succ_of_lt below))
        (passes + 1)
      calc
        whileLoop condition body (steps + 1 + passes) (path 0) =
            whileLoop condition body (steps + (passes + 1)) (path 0) := by
          rw [Nat.add_assoc, Nat.add_comm 1 passes]
        _ = whileLoop condition body (passes + 1) (path steps) := earlier
        _ = whileLoop condition body passes (path (steps + 1)) :=
          whileLoop_step (continues steps (Nat.lt_succ_self steps))
            (advances steps (Nat.lt_succ_self steps)) passes

/-- A loop that follows a known path up to a state where its condition fails
returns that state. -/
theorem whileLoop_follows (path : Nat → σ) {steps passes : Nat}
    (within : steps ≤ passes)
    (continues : ∀ index, index < steps →
      condition (path index) = pure true)
    (advances : ∀ index, index < steps →
      body (path index) = pure (path (index + 1)))
    (stopped : condition (path steps) = pure false) :
    whileLoop condition body passes (path 0) = pure (path steps) := by
  obtain ⟨spare, rfl⟩ := Nat.exists_eq_add_of_le within
  rw [whileLoop_unroll path continues advances spare]
  exact whileLoop_stops stopped spare

theorem whileLoop_faults (path : Nat → σ) (steps : Nat) {passes : Nat}
    {reason : Fault} (within : steps < passes)
    (continues : ∀ index, index ≤ steps →
      condition (path index) = pure true)
    (advances : ∀ index, index < steps →
      body (path index) = pure (path (index + 1)))
    (faults : body (path steps) = fault reason) :
    whileLoop condition body passes (path 0) = fault reason := by
  obtain ⟨spare, rfl⟩ := Nat.exists_eq_add_of_lt within
  rw [Nat.add_assoc,
    whileLoop_unroll path
      (fun index below => continues index (Nat.le_of_lt below)) advances
      (spare + 1)]
  simp [whileLoop, continues steps (Nat.le_refl steps), faults]

end Rules

/-- Whatever the indeterminate values are, the program returns, and with a
result that meets the postcondition. -/
def Ensures (program : Program α) (post : α → Prop) : Prop :=
  ∀ stream, ∃ value rest, program stream = .ok (value, rest) ∧ post value

/-- Every result will do: the program does not fault. -/
def Anything (_ : α) : Prop :=
  True

namespace Ensures

variable {program : Program α} {next : α → Program β}
  {middle : α → Prop} {post : β → Prop}

theorem pure {value : α} (holds : middle value) :
    Ensures (Pure.pure value) middle :=
  fun stream => ⟨value, stream, rfl, holds⟩

theorem unset : Ensures Checked.unset Anything :=
  fun _ => ⟨_, _, rfl, trivial⟩

theorem bind (first : Ensures program middle)
    (second : ∀ value, middle value → Ensures (next value) post) :
    Ensures (program >>= next) post := by
  intro stream
  obtain ⟨value, rest, run, holds⟩ := first stream
  obtain ⟨result, final, continued, meets⟩ := second value holds rest
  refine ⟨result, final, ?_, meets⟩
  calc
    (program >>= next) stream
        = (program stream >>= fun pair => next pair.1 pair.2) := rfl
    _ = next value rest := by rw [run]; rfl
    _ = .ok (result, final) := continued

theorem mono {weaker : α → Prop} (ensures : Ensures program middle)
    (implied : ∀ value, middle value → weaker value) :
    Ensures program weaker := by
  intro stream
  obtain ⟨value, rest, run, holds⟩ := ensures stream
  exact ⟨value, rest, run, implied value holds⟩

theorem safe (ensures : Ensures program middle) : Safe program := by
  intro stream
  obtain ⟨value, rest, run, -⟩ := ensures stream
  exact ⟨(value, rest), run⟩

theorem getDM {read : Option UInt32} : Ensures (read.getDM Checked.unset)
    Anything := by
  cases read with
  | none => exact unset
  | some value => exact Ensures.pure trivial

/-- An invariant that counts the passes still allowed bounds a loop: where it
continues, a pass is left and the body makes do with the rest. -/
theorem whileLoop {condition : σ → Program Bool} {body : σ → Program σ}
    {exit : σ → Prop} (invariant : Nat → σ → Prop)
    (step : ∀ passes state, invariant passes state →
      Ensures (condition state) fun continues =>
        if continues = true then
          ∃ fewer, passes = fewer + 1 ∧
            Ensures (body state) (invariant fewer)
        else exit state)
    {passes : Nat} {state : σ} (holds : invariant passes state) :
    Ensures (Checked.whileLoop condition body passes state) exit := by
  induction passes generalizing state with
  | zero =>
      apply (step 0 state holds).bind
      intro continues outcome
      cases continues with
      | true =>
          obtain ⟨fewer, impossible, -⟩ := outcome
          exact absurd impossible (Nat.succ_ne_zero fewer).symm
      | false => exact Ensures.pure outcome
  | succ passes induction =>
      apply (step (passes + 1) state holds).bind
      intro continues outcome
      cases continues with
      | true =>
          obtain ⟨fewer, same, advances⟩ := outcome
          cases same
          apply advances.bind
          intro later kept
          exact induction kept
      | false => exact Ensures.pure outcome

end Ensures

/-- A loop over a total body, cut off after the given number of passes. -/
def repeatWhile (condition : σ → Bool) (body : σ → σ) : Nat → σ → σ
  | 0, state => state
  | passes + 1, state =>
      if condition state then repeatWhile condition body passes (body state)
      else state

theorem repeatWhile_preserves {condition : σ → Bool} {body : σ → σ}
    {invariant : σ → Prop}
    (preserved : ∀ state, invariant state → condition state = true →
      invariant (body state))
    (passes : Nat) {state : σ} (holds : invariant state) :
    invariant (repeatWhile condition body passes state) := by
  induction passes generalizing state with
  | zero => exact holds
  | succ passes induction =>
      unfold repeatWhile
      split
      · rename_i continues
        exact induction (preserved state holds continues)
      · exact holds

/-- With a decreasing measure the cut-off is never what ends the loop. -/
theorem repeatWhile_exits {condition : σ → Bool} {body : σ → σ}
    (measure : σ → Nat)
    (decreases : ∀ state, condition state = true →
      measure (body state) < measure state)
    {passes : Nat} {state : σ} (enough : measure state ≤ passes) :
    condition (repeatWhile condition body passes state) = false := by
  induction passes generalizing state with
  | zero =>
      unfold repeatWhile
      cases result : condition state with
      | false => rfl
      | true =>
          have smaller := decreases state result
          omega
  | succ passes induction =>
      unfold repeatWhile
      split
      · rename_i continues
        have smaller := decreases state continues
        exact induction (by omega)
      · rename_i stops
        simpa using stops

/-- A loop whose condition and body are pure on the states reached is the
corresponding loop without effects.  The states may be represented: `embed`
turns the states of the pure loop into those of the program. -/
theorem whileLoop_refines {τ : Type} {condition : σ → Program Bool}
    {body : σ → Program σ} (embed : τ → σ) {test : τ → Bool}
    {step : τ → τ} (invariant : τ → Prop) (measure : τ → Nat)
    (tests : ∀ state, invariant state →
      condition (embed state) = pure (test state))
    (steps : ∀ state, invariant state → test state = true →
      body (embed state) = pure (embed (step state)))
    (preserved : ∀ state, invariant state → test state = true →
      invariant (step state))
    (decreases : ∀ state, test state = true →
      measure (step state) < measure state)
    {passes : Nat} {state : τ} (holds : invariant state)
    (enough : measure state ≤ passes) :
    whileLoop condition body passes (embed state) =
      pure (embed (repeatWhile test step passes state)) := by
  induction passes generalizing state with
  | zero =>
      have tested := tests state holds
      cases result : test state with
      | false =>
          rw [result] at tested
          exact whileLoop_stops tested 0
      | true =>
          have smaller := decreases state result
          omega
  | succ passes induction =>
      have tested := tests state holds
      cases result : test state with
      | false =>
          rw [result] at tested
          rw [repeatWhile, if_neg (by simp [result])]
          exact whileLoop_stops tested (passes + 1)
      | true =>
          rw [result] at tested
          have smaller := decreases state result
          rw [repeatWhile, if_pos result,
            whileLoop_step tested (steps state holds result)]
          exact induction (preserved state holds result) (by omega)

end Checked
