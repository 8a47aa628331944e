import LiteLsm.Common.Coding
import LiteLsm.Filesystem.IoError

/-!
# Appending to files

`append` is a loop around `write`, which may be interrupted and may write less
than it was asked for.  The answers of the system are a list that the loop
consumes; a loop that has used them up has not returned yet.  Which answers
the system may give depends on the requests, so it is a predicate on such
lists.
-/

namespace LiteLsm

structure PosixFile where
  fname : String

/-- What `write` returns: `-1` with an error number, or a count. -/
inductive WriteAnswer where
  | failed (errNumber : Nat)
  | wrote (done : Nat)
  deriving DecidableEq, Repr

namespace WriteAnswer

/-- What the system may answer to requests for what is left: errors, or some
of the bytes.  Behind an error other than an interruption, and when nothing is
left, there are no further requests. -/
def Permitted : (left : Nat) → List WriteAnswer → Prop
  | _, [] => True
  | left, failed errNumber :: answers =>
      left ≠ 0 →
        errNumber ≠ 0 ∧ (errNumber = EINTR → Permitted left answers)
  | left, wrote done :: answers =>
      left ≠ 0 → 1 ≤ done ∧ done ≤ left ∧ Permitted (left - done) answers

def count : WriteAnswer → Nat
  | failed _ => 0
  | wrote done => done

/-- All bytes that the system is willing to write. -/
def total : List WriteAnswer → Nat
  | [] => 0
  | answer :: answers => answer.count + total answers

end WriteAnswer

namespace PosixFile

variable (strerror : Nat → String) (file : PosixFile)

/-- The loop of `append`: `left` bytes are left, `src` is an index into the
slice, and `contents` is what the file holds. -/
def appendLoop (slice : Bytes) (answers : List WriteAnswer)
    (left src : Nat) (contents : Bytes) : Option (Status × Bytes) :=
  if left ≠ 0 then
    match answers with
    | [] => none
    | .failed errNumber :: answers =>
        if errNumber = EINTR then
          appendLoop slice answers left src contents
        else
          some (ioError strerror ("While writting file " ++ file.fname)
            errNumber, contents)
    | .wrote done :: answers =>
        -- the system takes the bytes from where `src` points
        appendLoop slice answers ((left + (2 ^ 64 - done)) % 2 ^ 64)
          (src + done) (contents ++ (slice.drop src).take done)
  else
    some (.okStatus, contents)

def append (slice contents : Bytes) (answers : List WriteAnswer) :
    Option (Status × Bytes) :=
  file.appendLoop strerror slice answers slice.length 0 contents

/-- The states the loop goes through, and what is still owed in them. -/
structure Appending (slice contents : Bytes) (left src : Nat)
    (now : Bytes) : Prop where
  left : src + left = slice.length
  written : now = contents ++ slice.take src

theorem Appending.step {slice contents now : Bytes} {left src done : Nat}
    (short : slice.length < 2 ^ 64)
    (appending : Appending slice contents left src now)
    (within : done ≤ left) :
    (left + (2 ^ 64 - done)) % 2 ^ 64 = left - done ∧
      Appending slice contents (left - done) (src + done)
        (now ++ (slice.drop src).take done) := by
  have balance := appending.left
  refine ⟨by omega, by omega, ?_⟩
  rw [appending.written, List.append_assoc, ← List.take_add]

/-- How a call of `append` may end. -/
inductive Appended (slice contents : Bytes) (answers : List WriteAnswer) :
    Status × Bytes → Prop where
  | complete : Appended slice contents answers (.okStatus, contents ++ slice)
  | failed {errNumber : Nat} {front : Bytes} :
      .failed errNumber ∈ answers → errNumber ≠ 0 → errNumber ≠ EINTR →
      front <+: slice → front ≠ slice →
      Appended slice contents answers
        (ioError strerror ("While writting file " ++ file.fname) errNumber,
          contents ++ front)

variable {strerror file}

private theorem Appended.later {slice contents : Bytes}
    {answers : List WriteAnswer} {outcome : Status × Bytes}
    (answer : WriteAnswer)
    (appended : file.Appended strerror slice contents answers outcome) :
    file.Appended strerror slice contents (answer :: answers) outcome := by
  cases appended with
  | complete => exact .complete
  | failed member nonzero uninterrupted front proper =>
      exact .failed (List.mem_cons_of_mem _ member) nonzero uninterrupted
        front proper

private theorem Appending.outcome_of_done {slice contents now : Bytes}
    {answers : List WriteAnswer} {left src : Nat} {outcome : Status × Bytes}
    (appending : Appending slice contents left src now) (done : left = 0)
    (returned : file.appendLoop strerror slice answers left src now =
      some outcome) :
    file.Appended strerror slice contents answers outcome := by
  have whole := appending.left
  rw [done, Nat.add_zero] at whole
  rw [appendLoop.eq_def, if_neg (not_not_intro done), appending.written, whole,
    List.take_length] at returned
  cases returned
  exact .complete

theorem appendLoop_outcome {slice contents : Bytes}
    (short : slice.length < 2 ^ 64) {answers : List WriteAnswer}
    {left src : Nat} {now : Bytes} {outcome : Status × Bytes}
    (appending : Appending slice contents left src now)
    (permitted : WriteAnswer.Permitted left answers)
    (returned : file.appendLoop strerror slice answers left src now =
      some outcome) :
    file.Appended strerror slice contents answers outcome := by
  induction answers generalizing left src now with
  | nil =>
      by_cases more : left ≠ 0
      · rw [appendLoop, if_pos more] at returned
        cases returned
      · exact appending.outcome_of_done (Decidable.not_not.mp more) returned
  | cons answer answers induction =>
      by_cases more : left ≠ 0
      rotate_left
      · exact appending.outcome_of_done (Decidable.not_not.mp more) returned
      rw [appendLoop.eq_def, if_pos more] at returned
      cases answer with
      | failed errNumber =>
          obtain ⟨nonzero, continued⟩ := permitted more
          by_cases interrupted : errNumber = EINTR
          · simp only [if_pos interrupted] at returned
            exact (induction appending (continued interrupted)
              returned).later _
          · simp only [if_neg interrupted] at returned
            cases returned
            have balance := appending.left
            rw [appending.written]
            apply Appended.failed (List.mem_cons_self ..) nonzero interrupted
              (List.take_prefix _ _)
            intro whole
            have length := congrArg List.length whole
            rw [List.length_take] at length
            omega
      | wrote done =>
          obtain ⟨progress, within, continued⟩ := permitted more
          obtain ⟨remaining, next⟩ := appending.step short within
          simp only [remaining] at returned
          exact (induction next continued returned).later _

/-- The loop ends once enough bytes are written or an error is final. -/
private theorem appendLoop_returns {slice contents : Bytes}
    (short : slice.length < 2 ^ 64) {answers : List WriteAnswer}
    {left src : Nat} {now : Bytes}
    (appending : Appending slice contents left src now)
    (permitted : WriteAnswer.Permitted left answers)
    (enough : left ≤ WriteAnswer.total answers ∨
      ∃ errNumber, .failed errNumber ∈ answers ∧ errNumber ≠ EINTR) :
    (file.appendLoop strerror slice answers left src now).isSome = true := by
  induction answers generalizing left src now with
  | nil =>
      rcases enough with written | ⟨errNumber, member, -⟩
      · have done : left = 0 := Nat.le_zero.mp written
        rw [appendLoop, if_neg (not_not_intro done)]
        rfl
      · cases member
  | cons answer answers induction =>
      by_cases more : left ≠ 0
      rotate_left
      · rw [appendLoop.eq_def, if_neg more]
        rfl
      rw [appendLoop.eq_def, if_pos more]
      cases answer with
      | failed errNumber =>
          obtain ⟨nonzero, continued⟩ := permitted more
          by_cases interrupted : errNumber = EINTR
          · simp only [if_pos interrupted]
            apply induction appending (continued interrupted)
            rcases enough with written | ⟨final, member, uninterrupted⟩
            · left
              simpa [WriteAnswer.total, WriteAnswer.count] using written
            · right
              rcases List.mem_cons.mp member with same | later
              · cases same
                exact absurd interrupted uninterrupted
              · exact ⟨final, later, uninterrupted⟩
          · simp only [if_neg interrupted]
            rfl
      | wrote done =>
          obtain ⟨progress, within, continued⟩ := permitted more
          obtain ⟨remaining, next⟩ := appending.step short within
          simp only [remaining]
          apply induction next continued
          rcases enough with written | ⟨final, member, uninterrupted⟩
          · left
            rw [WriteAnswer.total, WriteAnswer.count] at written
            omega
          · right
            rcases List.mem_cons.mp member with same | later
            · cases same
            · exact ⟨final, later, uninterrupted⟩

/-- Whatever mixture of partial writes and interruptions the system answers
with, the slice is appended once: completely on success, up to the failing
request on an error, which is never an interruption.  The call returns once
enough bytes are written or an error is final. -/
theorem append_exact (strerror : Nat → String) (file : PosixFile)
    {slice : Bytes} (short : slice.length < 2 ^ 64) (contents : Bytes)
    {answers : List WriteAnswer}
    (permitted : WriteAnswer.Permitted slice.length answers) :
    (∀ status now,
      file.append strerror slice contents answers = some (status, now) →
      (status.ok = true → now = contents ++ slice) ∧
      (status.ok = false →
        (∃ front, front <+: slice ∧ front ≠ slice ∧ now = contents ++ front) ∧
        ∃ errNumber, .failed errNumber ∈ answers ∧ errNumber ≠ EINTR ∧
          status = ioError strerror
            ("While writting file " ++ file.fname) errNumber) ∧
      ((∀ errNumber, .failed errNumber ∈ answers → errNumber = EINTR) →
        status.ok = true)) ∧
    ((slice.length ≤ WriteAnswer.total answers ∨
        ∃ errNumber, .failed errNumber ∈ answers ∧ errNumber ≠ EINTR) →
      (file.append strerror slice contents answers).isSome = true) := by
  have start : Appending slice contents slice.length 0 contents :=
    ⟨Nat.zero_add _, by rw [List.take_zero, List.append_nil]⟩
  constructor
  · intro status now returned
    have appended := appendLoop_outcome short start permitted returned
    cases appended with
    | complete =>
        refine ⟨fun _ => rfl, ?_, fun _ => rfl⟩
        intro failed
        cases failed
    | @failed errNumber front member nonzero uninterrupted shorter proper =>
        have notOk := ok_ioError strerror
          ("While writting file " ++ file.fname) nonzero
        refine ⟨fun ok => ?_, fun _ => ?_, fun onlyEINTR => ?_⟩
        · rw [notOk] at ok
          cases ok
        · exact ⟨⟨front, shorter, proper, rfl⟩,
            errNumber, member, uninterrupted, rfl⟩
        · exact absurd (onlyEINTR errNumber member) uninterrupted
  · intro enough
    exact appendLoop_returns short start permitted enough

/-- Two bytes, an interruption, and the third byte. -/
theorem append_exact_inTwoParts :
    ((PosixFile.mk "log").append (fun _ => "") [0x61, 0x62, 0x63] [0x60]
        [.wrote 2, .failed EINTR, .wrote 1]).isSome = true ∧
      ∀ status now,
        (PosixFile.mk "log").append (fun _ => "") [0x61, 0x62, 0x63] [0x60]
            [.wrote 2, .failed EINTR, .wrote 1] = some (status, now) →
          status.ok = true → now = [0x60, 0x61, 0x62, 0x63] := by
  have permitted : WriteAnswer.Permitted
      ([0x61, 0x62, 0x63] : Bytes).length
      [.wrote 2, .failed EINTR, .wrote 1] := by
    simp [WriteAnswer.Permitted, EINTR]
  obtain ⟨outcomes, returns⟩ := append_exact (fun _ => "") ⟨"log"⟩
    (show ([0x61, 0x62, 0x63] : Bytes).length < 2 ^ 64 by decide) [0x60]
    permitted
  constructor
  · exact returns (Or.inl (by decide))
  · intro status now returned ok
    exact (outcomes status now returned).1 ok

end PosixFile

end LiteLsm
