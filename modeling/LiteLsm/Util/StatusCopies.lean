import LiteLsm.Filesystem.IoError
import LiteLsm.Support.Runs
import Mathlib.Data.List.TakeWhile

/-!
# Copies of statuses

A status owns a copy of its message, or none.  Three of the four copying and
moving members give the target what the source has.  The copy assignment
replaces the message of the target only where the source has one: a status
that was an error and is assigned a status without a message keeps the text of
the error.
-/

namespace LiteLsm

namespace Status

/-- `Status()` and `Status(StatusCode code)` -/
def withoutMessage (code : StatusCode) : Status :=
  { code, msg := none }

/-- `Status(StatusCode code, const Slice& slice)`.  What stands in the slice
behind a null character is never read again. -/
def withSlice (code : StatusCode) (slice : String) : Status :=
  { code, msg := some (cString slice) }

/-- `Status(const Status& status)` -/
def copyConstruct (status : Status) : Status :=
  match status.msg with
  | some msg => { code := status.code, msg := some (cString msg) }
  | none => { code := status.code, msg := none }

/-- `operator=(const Status& status)` -/
def copyAssign (target status : Status) : Status :=
  match status.msg with
  | some msg => { target with code := status.code, msg := some (cString msg) }
  | none => { target with code := status.code }

/-- `Status(Status&& status)`: the new status and what becomes of the old. -/
def moveConstruct (status : Status) : Status × Status :=
  ({ code := status.code, msg := status.msg }, { status with msg := none })

/-- `operator=(Status&& status)`: the target and what becomes of the source,
if they are not the same. -/
def moveAssign (target status : Status) : Status × Status :=
  ({ target with code := status.code, msg := status.msg },
    { status with msg := none })

/-- What `code()` and `message()` return. -/
def shown (status : Status) : StatusCode × String :=
  (status.code, status.message)

/-- The message is what can be copied of it. -/
def Terminated (status : Status) : Prop :=
  ∀ msg, status.msg = some msg → cString msg = msg

theorem cString_cString (text : String) :
    cString (cString text) = cString text := by
  rw [cString, cString, String.toList_ofList, List.takeWhile_idem]

theorem terminated_withoutMessage (code : StatusCode) :
    (withoutMessage code).Terminated := by
  rintro msg ⟨⟩

theorem terminated_withMessage (code : StatusCode) (text : String) :
    (withMessage code text).Terminated := by
  rintro msg ⟨⟩
  exact cString_cString text

section Copies

variable {target status : Status}

theorem Terminated.copyConstruct (terminated : status.Terminated) :
    status.copyConstruct = status := by
  obtain ⟨code, msg⟩ := status
  cases msg with
  | none => rfl
  | some msg => simp [Status.copyConstruct, terminated msg rfl]

/-- The copy assignment copies everything unless it has no message to put in
the place of another. -/
theorem Terminated.shown_copyAssign_iff (terminated : status.Terminated) :
    (target.copyAssign status).shown = status.shown ↔
      (status.msg = none → target.message = "") := by
  obtain ⟨code, msg⟩ := status
  cases msg with
  | none => simp [copyAssign, shown, message]
  | some msg => simp [copyAssign, shown, message, terminated msg rfl]

theorem Terminated.copyAssign (targetTerminated : target.Terminated)
    (terminated : status.Terminated) :
    (target.copyAssign status).Terminated := by
  obtain ⟨code, msg⟩ := status
  cases msg with
  | none => exact targetTerminated
  | some msg =>
      rintro _ ⟨⟩
      exact cString_cString msg

end Copies

end Status

/-- The variables that were constructed, and their values. -/
abbrev StatusVariables := Nat → Option Status

namespace StatusVariables

inductive Operation where
  | construct (target : Nat) (code : StatusCode)
  | constructMessage (target : Nat) (code : StatusCode) (msg : String)
  | constructSlice (target : Nat) (code : StatusCode) (slice : String)
  | copyConstruct (target source : Nat)
  | moveConstruct (target source : Nat)
  | copyAssign (target source : Nat)
  | moveAssign (target source : Nat)
  deriving DecidableEq, Repr

def set (store : StatusVariables) (name : Nat) (status : Status) :
    StatusVariables :=
  fun other => if other = name then some status else store other

def apply (store : StatusVariables) : Operation → StatusVariables
  | .construct target code => store.set target (.withoutMessage code)
  | .constructMessage target code msg =>
      store.set target (.withMessage code msg)
  | .constructSlice target code slice =>
      store.set target (.withSlice code slice)
  | .copyConstruct target source =>
      match store source with
      | none => store
      | some status => store.set target status.copyConstruct
  | .moveConstruct target source =>
      match store source with
      | none => store
      | some status =>
          let (constructed, left) := status.moveConstruct
          (store.set source left).set target constructed
  | .copyAssign target source =>
      match store target, store source with
      | some old, some status =>
          store.set target (old.copyAssign status)
      | _, _ => store
  | .moveAssign target source =>
      match store target, store source with
      | some old, some status =>
          let (assigned, left) := old.moveAssign status
          (store.set source left).set target assigned
      | _, _ => store

/-- Variables are constructed once, and before they are used.  A status whose
message was moved away may be used as well as any other. -/
def Permitted (store : StatusVariables) : Operation → Prop
  | .construct target _ | .constructMessage target _ _
  | .constructSlice target _ _ => store target = none
  | .copyConstruct target source | .moveConstruct target source =>
      store target = none ∧ store source ≠ none
  | .copyAssign target source | .moveAssign target source =>
      store target ≠ none ∧ store source ≠ none

def observed (store : StatusVariables) (name : Nat) :
    Option (StatusCode × String) :=
  (store name).map Status.shown

/-- After a step the target shows what it was constructed from or what the
source showed before, and a source that was copied still shows it. -/
def Faithful (store : StatusVariables) (operation : Operation) : Prop :=
  let after := store.apply operation
  match operation with
  | .construct target code => after.observed target = some (code, "")
  | .constructMessage target code text | .constructSlice target code text =>
      after.observed target = some (code, Status.cString text)
  | .copyConstruct target source | .copyAssign target source =>
      after.observed target = store.observed source ∧
        after.observed source = store.observed source
  | .moveConstruct target source | .moveAssign target source =>
      after.observed target = store.observed source

/-- A status without a message is not copied over one that shows a message. -/
def KeepsNoMessage (store : StatusVariables) : Operation → Prop
  | .copyAssign target source =>
      ∀ old status, store target = some old →
        store source = some status → status.msg = none →
        old.message = ""
  | _ => True

section Step

variable {store : StatusVariables}

/-- No variable holds a message that a copy would shorten. -/
def Terminated (store : StatusVariables) : Prop :=
  ∀ name status, store name = some status → status.Terminated

@[simp] theorem observed_set_self (name : Nat) (status : Status) :
    (store.set name status).observed name = some status.shown := by
  simp [observed, set]

theorem observed_set_of_ne {name other : Nat} (different : other ≠ name)
    (status : Status) :
    (store.set name status).observed other = store.observed other := by
  simp [observed, set, different]

theorem observed_of_eq {name : Nat} {status : Status}
    (held : store name = some status) :
    store.observed name = some status.shown := by
  simp [observed, held]

theorem Terminated.set (terminated : store.Terminated) {status : Status}
    (newTerminated : status.Terminated) (name : Nat) :
    (store.set name status).Terminated := by
  intro other held found
  rw [StatusVariables.set] at found
  split at found
  · cases found
    exact newTerminated
  · exact terminated other held found

theorem apply_copyConstruct {target source : Nat} {status : Status}
    (terminated : store.Terminated)
    (held : store source = some status) :
    store.apply (.copyConstruct target source) =
      store.set target status := by
  rw [apply, held]
  dsimp only
  rw [(terminated source status held).copyConstruct]

theorem apply_moveConstruct {target source : Nat} {status : Status}
    (held : store source = some status) :
    store.apply (.moveConstruct target source) =
      (store.set source (.withoutMessage status.code)).set target
        status := by
  rw [apply, held]
  rfl

theorem apply_copyAssign {target source : Nat} {old status : Status}
    (there : store target = some old)
    (held : store source = some status) :
    store.apply (.copyAssign target source) =
      store.set target (old.copyAssign status) := by
  rw [apply, there, held]

theorem apply_moveAssign {target source : Nat} {old status : Status}
    (there : store target = some old)
    (held : store source = some status) :
    store.apply (.moveAssign target source) =
      (store.set source (.withoutMessage status.code)).set target
        status := by
  rw [apply, there, held]
  rfl

/-- The step: everything is faithful except for copies of no message. -/
private theorem Terminated.faithful_iff (terminated : store.Terminated)
    (operation : Operation) (permitted : store.Permitted operation) :
    store.Faithful operation ↔ store.KeepsNoMessage operation := by
  cases operation with
  | construct target code =>
      exact iff_of_true (observed_set_self target _) trivial
  | constructMessage target code text =>
      exact iff_of_true (observed_set_self target _) trivial
  | constructSlice target code text =>
      exact iff_of_true (observed_set_self target _) trivial
  | copyConstruct target source =>
      obtain ⟨status, held⟩ := Option.ne_none_iff_exists'.mp permitted.2
      have different : source ≠ target := by
        rintro rfl
        exact permitted.2 permitted.1
      apply iff_of_true _ trivial
      rw [Faithful, apply_copyConstruct terminated held, observed_set_self,
        observed_set_of_ne different, observed_of_eq held]
      exact ⟨rfl, rfl⟩
  | moveConstruct target source =>
      obtain ⟨status, held⟩ := Option.ne_none_iff_exists'.mp permitted.2
      apply iff_of_true _ trivial
      rw [Faithful, apply_moveConstruct held, observed_set_self,
        observed_of_eq held]
  | moveAssign target source =>
      obtain ⟨old, there⟩ := Option.ne_none_iff_exists'.mp permitted.1
      obtain ⟨status, held⟩ := Option.ne_none_iff_exists'.mp permitted.2
      apply iff_of_true _ trivial
      rw [Faithful, apply_moveAssign there held, observed_set_self,
        observed_of_eq held]
  | copyAssign target source =>
      obtain ⟨old, there⟩ := Option.ne_none_iff_exists'.mp permitted.1
      obtain ⟨status, held⟩ := Option.ne_none_iff_exists'.mp permitted.2
      have copied : (old.copyAssign status).shown = status.shown ↔
          (status.msg = none → old.message = "") :=
        (terminated source status held).shown_copyAssign_iff
      rw [Faithful, apply_copyAssign there held, observed_set_self,
        observed_of_eq held, Option.some.injEq, copied]
      constructor
      · rintro ⟨shows, -⟩ before current beforeThere currentHeld
        rw [there] at beforeThere
        rw [held] at currentHeld
        cases beforeThere
        cases currentHeld
        exact shows
      · intro keeps
        have shows := keeps old status there held
        refine ⟨shows, ?_⟩
        by_cases same : source = target
        · rw [same, observed_set_self, copied.mpr shows]
        · rw [observed_set_of_ne same, observed_of_eq held]

private theorem Terminated.step (terminated : store.Terminated)
    (operation : Operation) (permitted : store.Permitted operation) :
    (store.apply operation).Terminated := by
  cases operation with
  | construct target code =>
      exact terminated.set (Status.terminated_withoutMessage code) target
  | constructMessage target code text =>
      exact terminated.set (Status.terminated_withMessage code text) target
  | constructSlice target code text =>
      exact terminated.set (Status.terminated_withMessage code text) target
  | copyConstruct target source =>
      obtain ⟨status, held⟩ := Option.ne_none_iff_exists'.mp permitted.2
      rw [apply_copyConstruct terminated held]
      exact terminated.set (terminated source status held) target
  | moveConstruct target source =>
      obtain ⟨status, held⟩ := Option.ne_none_iff_exists'.mp permitted.2
      rw [apply_moveConstruct held]
      exact (terminated.set (Status.terminated_withoutMessage _) source).set
        (terminated source status held) target
  | copyAssign target source =>
      obtain ⟨old, there⟩ := Option.ne_none_iff_exists'.mp permitted.1
      obtain ⟨status, held⟩ := Option.ne_none_iff_exists'.mp permitted.2
      rw [apply_copyAssign there held]
      exact terminated.set ((terminated target old there).copyAssign
        (terminated source status held)) target
  | moveAssign target source =>
      obtain ⟨old, there⟩ := Option.ne_none_iff_exists'.mp permitted.1
      obtain ⟨status, held⟩ := Option.ne_none_iff_exists'.mp permitted.2
      rw [apply_moveAssign there held]
      exact (terminated.set (Status.terminated_withoutMessage _) source).set
        (terminated source status held) target

end Step

/-- Before any variable is constructed. -/
def empty : StatusVariables :=
  fun _ => none

theorem terminated_empty : empty.Terminated := by
  intro name status impossible
  cases impossible

/-- In a program of any number of variables, every step is faithful exactly if
no copy assignment has a source without a message and a target that shows
one. -/
theorem statusCopies_faithful_iff (operations : List Operation)
    (permitted : Runs.Throughout apply Permitted empty operations) :
    Runs.Throughout apply Faithful empty operations ↔
      Runs.Throughout apply KeepsNoMessage empty operations :=
  Runs.throughout_iff Terminated
    (fun _ operation terminated allowed =>
      terminated.faithful_iff operation allowed)
    (fun _ operation terminated allowed _ =>
      terminated.step operation allowed)
    terminated_empty permitted

/-- An error is copied over a status without a message, and moved on. -/
theorem statusCopies_faithful_error :
    Runs.Throughout apply Faithful empty
      [.construct 0 .ok, .constructMessage 1 .ioError "hello",
        .copyAssign 0 1, .copyAssign 0 0, .moveConstruct 2 0,
        .moveAssign 1 2] := by
  apply (statusCopies_faithful_iff _ ?_).mpr
  · refine ⟨trivial, trivial, ?_, ?_, trivial, trivial, trivial⟩
    · rintro _ _ ⟨⟩ ⟨⟩ impossible
      cases impossible
    · rintro _ _ ⟨⟩ ⟨⟩ impossible
      cases impossible
  · refine ⟨rfl, rfl, ⟨?_, ?_⟩, ⟨?_, ?_⟩, ⟨rfl, ?_⟩, ⟨?_, ?_⟩, trivial⟩
    · decide
    · decide
    · decide
    · decide
    · decide
    · decide
    · decide

/-- A status with the message of an error that is assigned success keeps the
message. -/
theorem statusCopies_staleMessage :
    let program : List Operation :=
      [.constructMessage 0 .ioError "hello", .construct 1 .ok,
        .copyAssign 0 1]
    Runs.Throughout apply Permitted empty program ∧
      observed (Runs.final apply empty program) 1 = some (.ok, "") ∧
      observed (Runs.final apply empty program) 0 = some (.ok, "hello") ∧
      ¬Runs.Throughout apply Faithful empty program := by
  intro program
  have stale : observed (Runs.final apply empty program) 0 =
      some (.ok, "hello") := by
    decide
  refine ⟨⟨rfl, rfl, ⟨?_, ?_⟩, trivial⟩, by decide, stale, ?_⟩
  · decide
  · decide
  · rintro ⟨-, -, ⟨shows, -⟩, -⟩
    exact absurd shows (by decide)

end StatusVariables

end LiteLsm
