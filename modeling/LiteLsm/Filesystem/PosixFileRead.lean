import LiteLsm.Filesystem.PosixFile

/-!
# Reading from files

`read` is a loop around `pread` with a count of bytes left and an offset.
The request itself never changes: it is always for `size` bytes, to be stored
at the start of the buffer.  A transfer that falls short is therefore followed
by one that overwrites it.
-/

namespace LiteLsm

/-- What `pread` returns: `-1` with an error number, or a count. -/
inductive ReadAnswer where
  | failed (errNumber : Nat)
  | transferred (done : Nat)
  deriving DecidableEq, Repr

/-- What a call of `read` leaves behind.  `data` is the size of the slice at
the start of the buffer, if `*data` was assigned. -/
structure ReadOutcome where
  status : Status
  data : Option Nat
  buf : Bytes
  deriving DecidableEq, Repr

namespace PosixFile

/-- `left -= done` -/
def nextLeft (left done : Nat) : Nat :=
  (left + (2 ^ 64 - done)) % 2 ^ 64

/-- `offset += done` -/
def nextOffset (offset done : Nat) : Nat :=
  (offset + done) % 2 ^ 64

variable (strerror : Nat → String) (file : PosixFile)

/-- The loop of `read` on a file with the given contents. -/
def readLoop (contents : Bytes) (size : Nat) (answers : List ReadAnswer)
    (left offset : Nat) (buf : Bytes) : Option ReadOutcome :=
  if left ≠ 0 then
    match answers with
    | [] => none
    | .failed errNumber :: answers =>
        if errNumber = EINTR then
          readLoop contents size answers left offset buf
        else
          some
            { status := ioError strerror ("While reading file " ++ file.fname)
                errNumber
              data := none
              buf }
    | .transferred done :: answers =>
        -- the system stores the bytes at `buf`, whatever is there already
        let buf := (contents.drop offset).take done ++ buf.drop done
        if done = 0 then
          some { status := .okStatus, data := some (nextLeft size left), buf }
        else
          readLoop contents size answers (nextLeft left done)
            (nextOffset offset done) buf
  else
    some { status := .okStatus, data := some (nextLeft size left), buf }

def read (contents : Bytes) (offset size : Nat) (buf : Bytes)
    (answers : List ReadAnswer) : Option ReadOutcome :=
  file.readLoop strerror contents size answers size offset buf

end PosixFile

namespace ReadAnswer

/-- What the system may answer to the requests of `read`: interruptions, the
end of the file exactly from its end on, and otherwise some of the bytes. -/
def Permitted (fileSize size : Nat) :
    (left offset : Nat) → List ReadAnswer → Prop
  | _, _, [] => True
  | left, offset, failed errNumber :: answers =>
      left ≠ 0 →
        errNumber = EINTR ∧ Permitted fileSize size left offset answers
  | left, offset, transferred done :: answers =>
      left ≠ 0 →
        (done = 0 ↔ fileSize ≤ offset) ∧
        done ≤ min size (fileSize - offset) ∧
        (done ≠ 0 → Permitted fileSize size (PosixFile.nextLeft left done)
          (PosixFile.nextOffset offset done) answers)

/-- No transfer takes the count of bytes left below zero. -/
def KeepsCount : (left : Nat) → List ReadAnswer → Prop
  | _, [] => True
  | left, failed _ :: answers => left ≠ 0 → KeepsCount left answers
  | left, transferred done :: answers =>
      left ≠ 0 →
        done ≤ left ∧ (done ≠ 0 → KeepsCount (left - done) answers)

/-- The first transfer brings all bytes that are available. -/
def CompleteFirst (available : Nat) : List ReadAnswer → Prop
  | [] => True
  | failed _ :: answers => CompleteFirst available answers
  | transferred done :: _ => done = available

instance CompleteFirst.decidable (available : Nat) :
    (answers : List ReadAnswer) → Decidable (CompleteFirst available answers)
  | [] => .isTrue trivial
  | failed _ :: answers => CompleteFirst.decidable available answers
  | transferred done :: _ => inferInstanceAs (Decidable (done = available))

end ReadAnswer

namespace PosixFile

variable (strerror : Nat → String) (file : PosixFile)

/-- The bytes a call of `read` is to return. -/
def requested (contents : Bytes) (offset size : Nat) : Bytes :=
  (contents.drop offset).take size

/-- Under the given answers `read` returns the bytes of every file of that
size, in every buffer, and its counter does not underflow. -/
structure ReadsFile (fileSize offset size : Nat)
    (answers : List ReadAnswer) : Prop where
  data : ∀ contents buf outcome, contents.length = fileSize →
    size ≤ buf.length →
    file.read strerror contents offset size buf answers = some outcome →
    outcome.status.ok = true →
    outcome.data = some (requested contents offset size).length ∧
      outcome.buf.take (requested contents offset size).length =
        requested contents offset size
  count : ReadAnswer.KeepsCount size answers

theorem nextLeft_of_le {left done : Nat} (small : left < 2 ^ 64)
    (within : done ≤ left) : nextLeft left done = left - done := by
  rw [nextLeft]
  omega

theorem next_of_le {left offset done : Nat} (small : offset + left < 2 ^ 64)
    (within : done ≤ left) :
    nextLeft left done = left - done ∧
      nextOffset offset done = offset + done := by
  refine ⟨nextLeft_of_le (by omega) within, ?_⟩
  rw [nextOffset]
  omega

variable {strerror file} {contents buf : Bytes} {size left offset : Nat}
  {answers : List ReadAnswer} {outcome : ReadOutcome}

/-- The runs that return, answer by answer: the count is used up, the call is
repeated, the file ends, or some bytes are stored. -/
private inductive Reading (contents : Bytes) (size : Nat) :
    List ReadAnswer → (left offset : Nat) → Bytes → ReadOutcome → Prop where
  | finished {answers : List ReadAnswer} {offset : Nat} {buf : Bytes} :
      Reading contents size answers 0 offset buf
        { status := .okStatus, data := some (nextLeft size 0), buf }
  | interrupted {answers : List ReadAnswer} {left offset : Nat} {buf : Bytes}
      {outcome : ReadOutcome} : left ≠ 0 →
      Reading contents size answers left offset buf outcome →
      Reading contents size (.failed EINTR :: answers) left offset buf outcome
  | endOfFile {answers : List ReadAnswer} {left offset : Nat} {buf : Bytes} :
      left ≠ 0 → contents.length ≤ offset →
      Reading contents size (.transferred 0 :: answers) left offset buf
        { status := .okStatus, data := some (nextLeft size left), buf }
  | stored {answers : List ReadAnswer} {left offset done : Nat} {buf : Bytes}
      {outcome : ReadOutcome} : left ≠ 0 → done ≠ 0 →
      done ≤ min size (contents.length - offset) →
      Reading contents size answers (nextLeft left done)
        (nextOffset offset done)
        ((contents.drop offset).take done ++ buf.drop done) outcome →
      Reading contents size (.transferred done :: answers) left offset buf
        outcome

private theorem readLoop_done (done : left = 0) :
    file.readLoop strerror contents size answers left offset buf =
      some
        { status := .okStatus, data := some (nextLeft size left), buf } := by
  rw [readLoop.eq_def, if_neg (not_not_intro done)]

private theorem reading_of_returned
    (permitted : ReadAnswer.Permitted contents.length size left offset answers)
    (returned : file.readLoop strerror contents size answers left offset buf =
      some outcome) :
    Reading contents size answers left offset buf outcome := by
  induction answers generalizing left offset buf with
  | nil =>
      by_cases more : left ≠ 0
      · rw [readLoop, if_pos more] at returned
        cases returned
      · cases Decidable.not_not.mp more
        rw [readLoop_done rfl] at returned
        cases returned
        exact .finished
  | cons answer answers induction =>
      by_cases more : left ≠ 0
      rotate_left
      · cases Decidable.not_not.mp more
        rw [readLoop_done rfl] at returned
        cases returned
        exact .finished
      rw [readLoop.eq_def, if_pos more] at returned
      cases answer with
      | failed errNumber =>
          obtain ⟨rfl, continued⟩ := permitted more
          simp only [if_true] at returned
          exact .interrupted more (induction continued returned)
      | transferred done =>
          obtain ⟨endOfFile, available, continued⟩ := permitted more
          by_cases atEnd : done = 0
          · cases atEnd
            simp only [if_true, List.take_zero, List.drop_zero,
              List.nil_append] at returned
            cases returned
            exact .endOfFile more (endOfFile.mp rfl)
          · simp only [if_neg atEnd] at returned
            exact .stored more atEnd available
              (induction (continued atEnd) returned)

/-- Interruptions are the only failures, so the status is always good. -/
private theorem Reading.ok
    (reading : Reading contents size answers left offset buf outcome) :
    outcome.status.ok = true := by
  induction reading with
  | finished => rfl
  | interrupted _ _ induction => exact induction
  | endOfFile => rfl
  | stored _ _ _ _ induction => exact induction

private theorem Reading.of_done
    (reading : Reading contents size answers left offset buf outcome)
    (done : left = 0) :
    outcome.data = some (nextLeft size left) ∧ outcome.buf = buf := by
  cases reading with
  | finished => exact ⟨rfl, rfl⟩
  | interrupted more => exact absurd done more
  | endOfFile more => exact absurd done more
  | stored more => exact absurd done more

/-- At the end of the file nothing more is transferred. -/
private theorem Reading.atEnd
    (reading : Reading contents size answers left offset buf outcome)
    (atEnd : contents.length ≤ offset) :
    outcome.data = some (nextLeft size left) ∧ outcome.buf = buf := by
  induction reading with
  | finished => exact ⟨rfl, rfl⟩
  | interrupted _ _ induction => exact induction atEnd
  | endOfFile => exact ⟨rfl, rfl⟩
  | stored _ progress available => omega

private theorem keepsCount_zero (answers : List ReadAnswer) :
    ReadAnswer.KeepsCount 0 answers := by
  cases answers with
  | nil => trivial
  | cons answer answers =>
      cases answer with
      | failed errNumber => exact fun more => absurd rfl more
      | transferred done => exact fun more => absurd rfl more

private theorem keepsCount_atEnd {fileSize : Nat}
    (atEnd : fileSize ≤ offset)
    (permitted : ReadAnswer.Permitted fileSize size left offset answers) :
    ReadAnswer.KeepsCount left answers := by
  induction answers with
  | nil => trivial
  | cons answer answers induction =>
      cases answer with
      | failed errNumber =>
          intro more
          exact induction (permitted more).2
      | transferred done =>
          intro more
          obtain ⟨endOfFile, -, -⟩ := permitted more
          have nothing := endOfFile.mpr atEnd
          exact ⟨by omega, fun progress => absurd nothing progress⟩

/-- If the first transfer brings everything, it is what `read` returns. -/
private theorem Reading.completeFirst (small : offset + size < 2 ^ 64)
    (reading : Reading contents size answers left offset buf outcome)
    (whole : left = size) (more : size ≠ 0)
    (complete : ReadAnswer.CompleteFirst (min size (contents.length - offset))
      answers) :
    outcome.data = some (requested contents offset size).length ∧
      outcome.buf.take (requested contents offset size).length =
        requested contents offset size := by
  induction reading with
  | finished => exact absurd whole.symm more
  | interrupted _ _ induction => exact induction small whole complete
  | @endOfFile answers left offset buf _ behind =>
      have nothing : requested contents offset size = [] := by
        rw [requested, List.drop_eq_nil_of_le behind, List.take_nil]
      have returns : nextLeft size left = 0 := by
        rw [whole, nextLeft_of_le (by omega) (Nat.le_refl size), Nat.sub_self]
      rw [nothing, returns]
      exact ⟨rfl, rfl⟩
  | @stored answers left offset done buf outcome _ progress available later =>
      subst whole
      have brought : done = min left (contents.length - offset) := complete
      have length : (requested contents offset left).length = done := by
        rw [requested, List.length_take, List.length_drop, brought]
      have stored : (contents.drop offset).take done =
          requested contents offset left := by
        rw [← length, requested, List.length_take, ← List.take_eq_take_min]
      obtain ⟨remaining, advanced⟩ :=
        next_of_le small (show done ≤ left by omega)
      have unchanged : outcome.data = some (nextLeft left (left - done)) ∧
          outcome.buf = (contents.drop offset).take done ++ buf.drop done := by
        rw [remaining, advanced] at later
        by_cases full : left - done = 0
        · exact later.of_done full
        · exact later.atEnd (by omega)
      have returns : nextLeft left (left - done) = done := by
        rw [nextLeft_of_le (by omega) (Nat.sub_le _ _)]
        omega
      rw [unchanged.1, unchanged.2, returns, stored, length]
      refine ⟨rfl, ?_⟩
      rw [← length, List.take_left]

private theorem keepsCount_completeFirst {fileSize : Nat}
    (small : offset + size < 2 ^ 64)
    (permitted : ReadAnswer.Permitted fileSize size size offset answers)
    (complete : ReadAnswer.CompleteFirst (min size (fileSize - offset))
      answers) :
    ReadAnswer.KeepsCount size answers := by
  induction answers with
  | nil => trivial
  | cons answer answers induction =>
      cases answer with
      | failed errNumber =>
          intro more
          exact induction (permitted more).2 complete
      | transferred done =>
          intro more
          obtain ⟨endOfFile, within, continued⟩ := permitted more
          have whole : done = min size (fileSize - offset) := complete
          refine ⟨by omega, fun progress => ?_⟩
          have after := continued progress
          obtain ⟨remaining, advanced⟩ :=
            next_of_le small (show done ≤ size by omega)
          rw [remaining, advanced] at after
          by_cases full : size - done = 0
          · rw [full]
            exact keepsCount_zero answers
          · exact keepsCount_atEnd (by omega) after

theorem read_completeFirst (small : offset + size < 2 ^ 64)
    (permitted :
      ReadAnswer.Permitted contents.length size size offset answers)
    (complete : ReadAnswer.CompleteFirst (min size (contents.length - offset))
      answers)
    (returned : file.read strerror contents offset size buf answers =
      some outcome) :
    outcome.status.ok = true ∧
      outcome.data = some (requested contents offset size).length ∧
      outcome.buf.take (requested contents offset size).length =
        requested contents offset size := by
  have reading := reading_of_returned permitted returned
  refine ⟨reading.ok, ?_⟩
  by_cases empty : size = 0
  · subst empty
    rw [read, readLoop_done rfl] at returned
    cases returned
    exact ⟨rfl, rfl⟩
  · exact reading.completeFirst small rfl empty complete

/-- A file that is zero everywhere but at one offset. -/
private def marked (fileSize offset : Nat) : Bytes :=
  (List.range fileSize).map fun index => if index = offset then 1 else 0

private theorem length_marked (fileSize offset : Nat) :
    (marked fileSize offset).length = fileSize := by
  rw [marked, List.length_map, List.length_range]

private theorem head_drop_marked {fileSize offset index : Nat}
    (below : index < fileSize) :
    ((marked fileSize offset).drop index).head? =
      some (if index = offset then 1 else 0) := by
  rw [List.head?_drop, marked, List.getElem?_map,
    List.getElem?_range below, Option.map_some]

/-- While the count of bytes left is kept, what is stored last at the start of
the buffer comes from behind the marked offset. -/
private theorem Reading.overwritten {fileSize mark : Nat}
    (small : offset + left < 2 ^ 64) (behind : mark < offset)
    (overwritten : buf.head? = some 0 ∨ left ≠ 0 ∧ offset < fileSize)
    (reading : Reading (marked fileSize mark) size answers left offset buf
      outcome)
    (keeps : ReadAnswer.KeepsCount left answers) :
    outcome.buf.head? = some 0 := by
  induction reading with
  | finished => exact overwritten.resolve_right fun more => more.1 rfl
  | interrupted more _ induction =>
      exact induction small behind overwritten (keeps more)
  | endOfFile _ atEnd =>
      rw [length_marked] at atEnd
      exact overwritten.resolve_right fun more =>
        Nat.not_le.mpr more.2 atEnd
  | @stored answers left offset done buf outcome more progress available _
      induction =>
      rw [length_marked] at available
      obtain ⟨inCount, kept⟩ := keeps more
      obtain ⟨remaining, advanced⟩ := next_of_le small inCount
      rw [remaining, advanced] at induction
      apply induction (by omega) (by omega) _ (kept progress)
      left
      have before : offset < fileSize := by omega
      rw [List.head?_append, List.head?_take, if_neg progress,
        head_drop_marked before, if_neg (Nat.ne_of_gt behind)]
      rfl

/-- After a short first transfer the buffer does not start with the byte at
the offset. -/
private theorem Reading.shortFirst {fileSize mark : Nat}
    (small : offset + size < 2 ^ 64)
    (reading : Reading (marked fileSize mark) size answers left offset buf
      outcome)
    (here : mark = offset) (whole : left = size) (more : size ≠ 0)
    (short : ¬ReadAnswer.CompleteFirst (min size (fileSize - offset)) answers)
    (keeps : ReadAnswer.KeepsCount left answers) :
    offset < fileSize ∧ outcome.buf.head? = some 0 := by
  induction reading with
  | finished => exact absurd whole.symm more
  | interrupted requested _ induction =>
      exact induction small here whole short (keeps requested)
  | @endOfFile answers left offset buf _ atEnd =>
      rw [length_marked] at atEnd
      exact absurd (show 0 = min size (fileSize - offset) by omega) short
  | @stored answers left offset done buf outcome requested progress available
      later =>
      subst here whole
      rw [length_marked] at available
      have partly : done ≠ min left (fileSize - mark) := short
      obtain ⟨inCount, kept⟩ := keeps requested
      obtain ⟨remaining, advanced⟩ := next_of_le small inCount
      rw [remaining, advanced] at later
      refine ⟨by omega, ?_⟩
      exact later.overwritten (by omega) (by omega)
        (Or.inr ⟨by omega, by omega⟩) (kept progress)

/-- `read` returns the bytes of the file exactly if the first transfer is not
short: the next one is stored over it. -/
theorem readsFile_iff (strerror : Nat → String) (file : PosixFile)
    {fileSize offset size : Nat} (small : offset + size < 2 ^ 64)
    {answers : List ReadAnswer}
    (permitted : ReadAnswer.Permitted fileSize size size offset answers)
    (returns : ∀ contents buf, contents.length = fileSize →
      (file.read strerror contents offset size buf answers).isSome = true) :
    file.ReadsFile strerror fileSize offset size answers ↔
      size = 0 ∨
        ReadAnswer.CompleteFirst (min size (fileSize - offset)) answers := by
  constructor
  · intro reads
    by_cases empty : size = 0
    · exact Or.inl empty
    right
    apply Decidable.byContradiction
    intro short
    have returned := returns (marked fileSize offset) (List.replicate size 0)
      (length_marked fileSize offset)
    obtain ⟨outcome, result⟩ := Option.isSome_iff_exists.mp returned
    have reading := reading_of_returned
      (by rw [length_marked]; exact permitted) result
    obtain ⟨before, zero⟩ :=
      reading.shortFirst small rfl rfl empty short reads.count
    obtain ⟨-, shown⟩ := reads.data _ _ outcome (length_marked fileSize offset)
      (Nat.le_of_eq List.length_replicate.symm) result reading.ok
    have first : (requested (marked fileSize offset) offset size).head? =
        some 1 := by
      rw [requested, List.head?_take, if_neg empty]
      exact (head_drop_marked before).trans (congrArg some (if_pos rfl))
    rw [← shown, List.head?_take, zero] at first
    split at first <;> cases first
  · intro condition
    constructor
    · intro contents buf outcome length roomy result ok
      subst length
      by_cases empty : size = 0
      · subst empty
        rw [read, readLoop_done rfl] at result
        cases result
        exact ⟨rfl, rfl⟩
      · exact (reading_of_returned permitted result).completeFirst small rfl
          empty (condition.resolve_left empty)
    · rcases condition with empty | complete
      · rw [empty]
        exact keepsCount_zero answers
      · exact keepsCount_completeFirst small permitted complete

/-- An interruption, the last two bytes of the file, and its end. -/
theorem readsFile_iff_upToEnd :
    (PosixFile.mk "log").ReadsFile (fun _ => "") 3 1 5
      [.failed EINTR, .transferred 2, .transferred 0] := by
  have permitted : ReadAnswer.Permitted 3 5 5 1
      [.failed EINTR, .transferred 2, .transferred 0] := by
    simp [ReadAnswer.Permitted, nextOffset]
  exact (readsFile_iff (fun _ => "") ⟨"log"⟩ (by decide) permitted
    (fun _ _ _ => rfl)).mpr (Or.inr (by decide))

/-- Two bytes and two more of "abcd" leave "cd" in front of what the buffer
held before; with four more bytes to come, the count underflows and the slice
is longer than the buffer. -/
theorem readsFile_shortRead :
    (PosixFile.mk "log").read (fun _ => "") [0x61, 0x62, 0x63, 0x64] 0 4
          [0x2e, 0x2e, 0x2e, 0x2e] [.transferred 2, .transferred 2] =
        some
          { status := .okStatus
            data := some 4
            buf := [0x63, 0x64, 0x2e, 0x2e] } ∧
      ¬(PosixFile.mk "log").ReadsFile (fun _ => "") 4 0 4
        [.transferred 2, .transferred 2] ∧
      (PosixFile.mk "log").read (fun _ => "")
          [0x61, 0x62, 0x63, 0x64, 0x65, 0x66] 0 4 [0x2e, 0x2e, 0x2e, 0x2e]
          [.transferred 2, .transferred 4, .transferred 0] =
        some
          { status := .okStatus
            data := some 6
            buf := [0x63, 0x64, 0x65, 0x66] } := by
  refine ⟨rfl, ?_, rfl⟩
  intro reads
  obtain ⟨-, shown⟩ := reads.data [0x61, 0x62, 0x63, 0x64]
    [0x2e, 0x2e, 0x2e, 0x2e] _ rfl (by decide) rfl rfl
  exact absurd shown (by decide)

end PosixFile

end LiteLsm
