import LiteLsm.Filesystem.PosixFileSystem
import LiteLsm.Support.Runs
import Mathlib.Data.List.TakeDrop

/-!
# Calls of `append` on their way

Any number of threads may be inside `append` at the same time.  A call is
taken apart into the passes of its loop, each with one `write`; the system
serves one `write` after another, of whichever call, and takes the bytes and
moves the position of the descriptor at once.
-/

namespace LiteLsm

/-- A call of `append` on its way: `left` and `src` are its variables. -/
structure AppendCall where
  file : OpenedFile
  slice : Bytes
  left : Nat
  src : Nat
  returned : Option Status

namespace AppendCall

/-- The condition of the loop, and what comes behind the loop. -/
def test (call : AppendCall) : AppendCall :=
  if call.left ≠ 0 then call else { call with returned := some .okStatus }

/-- The call up to its first `write`. -/
def enter (file : OpenedFile) (slice : Bytes) : AppendCall :=
  test { file, slice, left := slice.length, src := 0, returned := none }

variable {ν : Type} (strerror : Nat → String)

/-- A pass of the loop: `write` is answered, and the call goes on to the next
one or returns. -/
def pass (call : AppendCall) (answer : WriteAnswer)
    (files : Posix.Files ν UInt8) : AppendCall × Posix.Files ν UInt8 :=
  match answer with
  | .failed errNumber =>
      if errNumber = EINTR then
        (call.test, files)
      else
        ({ call with
            returned := some (ioError strerror
              ("While writting file " ++ call.file.fname) errNumber) }, files)
  | .wrote done =>
      (test { call with
          left := (call.left + (2 ^ 64 - done)) % 2 ^ 64
          src := call.src + done },
        files.written call.file.fd ((call.slice.drop call.src).take done))

@[simp] theorem file_test (call : AppendCall) : call.test.file = call.file := by
  rw [test, apply_ite AppendCall.file, ite_self]

@[simp] theorem slice_test (call : AppendCall) :
    call.test.slice = call.slice := by
  rw [test, apply_ite AppendCall.slice, ite_self]

@[simp] theorem left_test (call : AppendCall) : call.test.left = call.left := by
  rw [test, apply_ite AppendCall.left, ite_self]

@[simp] theorem src_test (call : AppendCall) : call.test.src = call.src := by
  rw [test, apply_ite AppendCall.src, ite_self]

theorem left_ne_zero {call : AppendCall} (running : call.test.returned = none) :
    call.test.left ≠ 0 := by
  intro done
  rw [left_test] at done
  rw [test, if_neg (not_not_intro done)] at running
  cases running

theorem appendLoop_test (call : AppendCall) (running : call.returned = none)
    (answers : List WriteAnswer) (files : Posix.Files ν UInt8) :
    call.file.appendLoop strerror call.slice answers call.left call.src files =
      match call.test.returned with
      | some status => some (status, files)
      | none =>
          call.test.file.appendLoop strerror call.test.slice answers
            call.test.left call.test.src files := by
  by_cases more : call.left ≠ 0
  · have same : call.test = call := if_pos more
    simp only [same, running]
  · rw [OpenedFile.appendLoop.eq_def, if_neg more]
    simp only [test, if_neg more]

/-- The loop goes on with what a pass leaves. -/
theorem appendLoop_pass (call : AppendCall) (answer : WriteAnswer)
    (answers : List WriteAnswer) (files : Posix.Files ν UInt8)
    (running : call.returned = none) (more : call.left ≠ 0) :
    let next := call.pass strerror answer files
    call.file.appendLoop strerror call.slice (answer :: answers) call.left
        call.src files =
      match next.1.returned with
      | some status => some (status, next.2)
      | none =>
          next.1.file.appendLoop strerror next.1.slice answers next.1.left
            next.1.src next.2 := by
  rw [OpenedFile.appendLoop.eq_def, if_pos more]
  cases answer with
  | failed errNumber =>
      by_cases interrupted : errNumber = EINTR
      · have same : call.test = call := if_pos more
        simp only [pass, if_pos interrupted, same, running]
      · simp only [pass, if_neg interrupted]
  | wrote done =>
      exact appendLoop_test strerror
        { call with
          left := (call.left + (2 ^ 64 - done)) % 2 ^ 64
          src := call.src + done } running answers _

variable {strerror} in
theorem pass_running {call : AppendCall} {answer : WriteAnswer}
    {files : Posix.Files ν UInt8}
    (running : (call.pass strerror answer files).1.returned = none) :
    (call.pass strerror answer files).1.left ≠ 0 := by
  cases answer with
  | failed errNumber =>
      by_cases interrupted : errNumber = EINTR
      · simp only [pass, if_pos interrupted] at running ⊢
        exact left_ne_zero running
      · simp only [pass, if_neg interrupted] at running
        cases running
  | wrote done => exact left_ne_zero running

/-- What the system has taken of the slice. -/
def written (call : AppendCall) : Bytes :=
  call.slice.take call.src

end AppendCall

/-- The calls, each on its way, and the files of the system. -/
structure ConcurrentAppends (ν ι : Type) where
  calls : ι → AppendCall
  posix : Posix.Files ν UInt8

namespace ConcurrentAppends

variable {ν ι : Type}

/-- What the system may answer to a call that has not returned. -/
def Permitted (state : ConcurrentAppends ν ι) (event : ι × WriteAnswer) :
    Prop :=
  (state.calls event.1).returned = none ∧
  match event.2 with
  | .failed errNumber => errNumber ≠ 0
  | .wrote done =>
      1 ≤ done ∧ done ≤ (state.calls event.1).left ∧
      ∃ description,
        state.posix.descriptions (state.calls event.1).file.fd =
          some description ∧
        description.writable = true

variable [DecidableEq ι] (strerror : Nat → String)

/-- The system answers the `write` of one of the calls. -/
def apply (state : ConcurrentAppends ν ι) (event : ι × WriteAnswer) :
    ConcurrentAppends ν ι :=
  let call := state.calls event.1
  match call.returned with
  | some _ => state
  | none =>
      let (call, posix) := call.pass strerror event.2 state.posix
      { calls := Function.update state.calls event.1 call, posix }

theorem apply_running {state : ConcurrentAppends ν ι} {caller : ι}
    (running : (state.calls caller).returned = none) (answer : WriteAnswer) :
    state.apply strerror (caller, answer) =
      { calls := Function.update state.calls caller
          ((state.calls caller).pass strerror answer state.posix).1
        posix :=
          ((state.calls caller).pass strerror answer state.posix).2 } := by
  simp only [apply, running]

theorem apply_returned {state : ConcurrentAppends ν ι} {caller : ι}
    {status : Status} (returned : (state.calls caller).returned = some status)
    (answer : WriteAnswer) :
    state.apply strerror (caller, answer) = state := by
  simp only [apply, returned]

theorem final_returned {state : ConcurrentAppends ν ι} {caller : ι}
    {status : Status} (returned : (state.calls caller).returned = some status)
    (answers : List WriteAnswer) :
    Runs.final (apply strerror) state
      (answers.map fun answer => (caller, answer)) = state := by
  induction answers with
  | nil => rfl
  | cons answer answers induction =>
      rw [List.map_cons, Runs.final, List.foldl_cons,
        apply_returned strerror returned, ← Runs.final, induction]

theorem final_alone (caller : ι) (answers : List WriteAnswer)
    {state : ConcurrentAppends ν ι}
    (running : (state.calls caller).returned = none)
    (more : (state.calls caller).left ≠ 0) :
    let call := state.calls caller
    let final := Runs.final (apply strerror) state
      (answers.map fun answer => (caller, answer))
    call.file.appendLoop strerror call.slice answers call.left call.src
        state.posix =
      (final.calls caller).returned.map fun status =>
        (status, final.posix) := by
  induction answers generalizing state with
  | nil =>
      intro call final
      have idle : (final.calls caller).returned = none := running
      rw [idle, OpenedFile.appendLoop.eq_def, if_pos more]
      rfl
  | cons answer answers induction =>
      intro call final
      have first : final = Runs.final (apply strerror)
          (state.apply strerror (caller, answer))
          (answers.map fun answer => (caller, answer)) := rfl
      rw [first, apply_running strerror running,
        call.appendLoop_pass strerror answer answers state.posix running more]
      have goesOn : (call.pass strerror answer state.posix).1.returned = none →
          (call.pass strerror answer state.posix).1.left ≠ 0 :=
        AppendCall.pass_running
      generalize call.pass strerror answer state.posix = next at goesOn ⊢
      let after : ConcurrentAppends ν ι :=
        { calls := Function.update state.calls caller next.1
          posix := next.2 }
      have here : after.calls caller = next.1 := Function.update_self ..
      cases returned : next.1.returned with
      | some status =>
          have ended : (after.calls caller).returned = some status := by
            rw [here, returned]
          rw [final_returned strerror ended, ended]
          rfl
      | none =>
          have later := induction (by rw [here, returned])
            (by rw [here]; exact goesOn returned)
          simp only [here] at later
          exact later

/-- A call that is served alone from its beginning does what `append` does. -/
theorem append_eq_final {state : ConcurrentAppends ν ι} {caller : ι}
    {file : OpenedFile} {slice : Bytes}
    (entered : state.calls caller = AppendCall.enter file slice)
    (answers : List WriteAnswer) :
    let final := Runs.final (apply strerror) state
      (answers.map fun answer => (caller, answer))
    file.append strerror slice state.posix answers =
      (final.calls caller).returned.map fun status =>
        (status, final.posix) := by
  intro final
  have loop := AppendCall.appendLoop_test strerror
    { file, slice, left := slice.length, src := 0, returned := none } rfl
    answers state.posix
  rw [← AppendCall.enter, ← entered] at loop
  rw [OpenedFile.append, loop]
  cases returned : (state.calls caller).returned with
  | some status =>
      have ended : final = state := final_returned strerror returned answers
      rw [ended, returned]
      rfl
  | none =>
      have more : (state.calls caller).left ≠ 0 := by
        rw [entered] at returned ⊢
        exact AppendCall.left_ne_zero returned
      exact final_alone strerror caller answers returned more

end ConcurrentAppends

namespace AppendCall

theorem written_enter (file : OpenedFile) (slice : Bytes) :
    (enter file slice).written = [] := by
  rw [enter, written, src_test]
  exact List.take_zero

/-- Pointer and count are in step, and the call has returned success if and
only if nothing is left. -/
structure Balanced (file : OpenedFile) (slice : Bytes) (call : AppendCall) :
    Prop where
  sameFile : call.file = file
  sameSlice : call.slice = slice
  balance : call.src + call.left = slice.length
  running : call.returned = none → call.left ≠ 0
  ended : ∀ status, call.returned = some status →
    (status.ok = true ↔ call.left = 0)

namespace Balanced

variable {ν : Type} {file : OpenedFile} {slice : Bytes} {call : AppendCall}

theorem of_test (sameFile : call.file = file) (sameSlice : call.slice = slice)
    (balance : call.src + call.left = slice.length)
    (running : call.returned = none) : Balanced file slice call.test where
  sameFile := call.file_test.trans sameFile
  sameSlice := call.slice_test.trans sameSlice
  balance := by rw [src_test, left_test, balance]
  running := left_ne_zero
  ended status returned := by
    rw [left_test]
    by_cases more : call.left ≠ 0
    · rw [test, if_pos more, running] at returned
      cases returned
    · rw [test, if_neg more] at returned
      cases returned
      exact iff_of_true rfl (not_not.mp more)

theorem enter (file : OpenedFile) (slice : Bytes) :
    Balanced file slice (.enter file slice) :=
  of_test rfl rfl (Nat.zero_add _) rfl

variable (balanced : Balanced file slice call)

include balanced in
theorem written_eq_iff : call.written = slice ↔ call.left = 0 := by
  have balance := balanced.balance
  rw [written, balanced.sameSlice, List.take_eq_self_iff]
  omega

include balanced in
theorem failed (strerror : Nat → String) {errNumber : Nat}
    (nonzero : errNumber ≠ 0) (running : call.returned = none)
    (files : Posix.Files ν UInt8) :
    let next := call.pass strerror (.failed errNumber) files
    Balanced file slice next.1 ∧ next.1.written = call.written ∧
      next.2 = files := by
  have more := balanced.running running
  by_cases interrupted : errNumber = EINTR
  · have passed : call.pass strerror (.failed errNumber) files =
        (call, files) := by
      rw [pass, if_pos interrupted, test, if_pos more]
    rw [passed]
    exact ⟨balanced, rfl, rfl⟩
  · let status := ioError strerror
      ("While writting file " ++ call.file.fname) errNumber
    have passed : call.pass strerror (.failed errNumber) files =
        ({ call with returned := some status }, files) := by
      rw [pass, if_neg interrupted]
    have error : status.ok = false := ok_ioError strerror _ nonzero
    rw [passed]
    refine ⟨⟨balanced.sameFile, balanced.sameSlice, balanced.balance,
      ?_, ?_⟩, rfl, rfl⟩
    · intro impossible
      cases impossible
    · intro _ returned
      cases returned
      rw [error]
      exact iff_of_false Bool.false_ne_true more

include balanced in
theorem wrote (strerror : Nat → String) {done : Nat}
    (short : slice.length < 2 ^ 64) (within : done ≤ call.left)
    (running : call.returned = none) (files : Posix.Files ν UInt8) :
    let next := call.pass strerror (.wrote done) files
    let piece := (slice.drop call.src).take done
    Balanced file slice next.1 ∧ next.1.written = call.written ++ piece ∧
      next.2 = files.written file.fd piece := by
  have balance := balanced.balance
  have less : (call.left + (2 ^ 64 - done)) % 2 ^ 64 = call.left - done := by
    omega
  obtain rfl := balanced.sameFile
  obtain rfl := balanced.sameSlice
  let later : AppendCall :=
    { call with left := call.left - done, src := call.src + done }
  have passed : call.pass strerror (.wrote done) files =
      (later.test, files.written call.file.fd
        ((call.slice.drop call.src).take done)) := by
    rw [pass, less]
  have laterBalance : later.src + later.left = call.slice.length := by
    simp only [later]
    omega
  rw [passed]
  refine ⟨of_test rfl rfl laterBalance running, ?_, rfl⟩
  rw [written, src_test, slice_test, written]
  exact List.take_add

end Balanced

end AppendCall

end LiteLsm
