import LiteLsm.Filesystem.PosixFileSystem

/-!
# Directories

`iterateDir` hands the entries of a directory to a callback until that asks it
to stop.  `readdir` returns a null pointer both at the end and on an error, so
the loop relies on `errno`: it is zero before the first call, and what the
callback does to it is undone.  The other calls on paths only check what the
system answers.
-/

namespace LiteLsm

/-- What `readdir` returns: an entry, or a null pointer, which is an error if
`errno` was set. -/
inductive ReadDirAnswer where
  | entry (name : String)
  | endOfDir
  | failed (errNumber : Nat)
  deriving DecidableEq, Repr

/-- What the callback returns, with the state it has reached. -/
structure CallbackResult (σ : Type) where
  proceed : Bool
  state : σ

/-- What a call of `iterateDir` leaves behind. -/
structure Iteration (σ : Type) where
  status : Status
  state : σ
  leftOpen : Bool
  deriving DecidableEq, Repr

namespace PosixFileSystem

section Iterate

variable {σ : Type} (cb : σ → String → CallbackResult σ)

/-- The loop of `iterateDir`: whether it ended with a null pointer, and
`errno`. -/
def readDirLoop : List ReadDirAnswer → Nat → σ → Option (Bool × Nat × σ)
  | [], _, _ => none
  | .endOfDir :: _, errno, state => some (true, errno, state)
  | .failed errNumber :: _, _, state => some (true, errNumber, state)
  | .entry name :: answers, errno, state =>
      if name = "." ∨ name = ".." then
        readDirLoop answers errno state
      else
        let savedErrno := errno
        let r := cb state name
        if r.proceed then readDirLoop answers savedErrno r.state
        else some (false, savedErrno, r.state)

def iterateDir (strerror : Nat → String) (dir : String)
    (opendir : CallAnswer) (answers : List ReadDirAnswer)
    (closedir : CallAnswer) (state : σ) : Option (Iteration σ) :=
  match opendir with
  | .failed errNumber =>
      some
        { status := ioError strerror dir errNumber, state, leftOpen := false }
  | .succeeded => do
      let (null, errno, state) ← readDirLoop cb answers 0 state
      if null ∧ errno ≠ 0 then
        -- the stream is not closed on this path
        some { status := ioError strerror dir errno, state, leftOpen := true }
      else
        match closedir with
        | .failed errNumber =>
            some
              { status := ioError strerror dir errNumber, state,
                leftOpen := false }
        | .succeeded =>
            some { status := .okStatus, state, leftOpen := false }

end Iterate

/-- `listDir`; what `*result` held before is cleared. -/
def listDir (strerror : Nat → String) (dir : String) (opendir : CallAnswer)
    (answers : List ReadDirAnswer) (closedir : CallAnswer) :
    Option (Iteration (List String)) :=
  iterateDir (fun result name => { proceed := true, state := result ++ [name] })
    strerror dir opendir answers closedir []

/-- `create_directories` reports through an error code, zero for none. -/
def makeDirRecursively (strerror message : Nat → String) (dir : String)
    (ec : Nat) : Status :=
  if ec ≠ 0 then
    ioError strerror
      ("create " ++ dir ++ " recursively error: " ++ message ec) ec
  else .okStatus

/-- `remove_all` reports through an error code, zero for none. -/
def removeDirRecursively (strerror message : Nat → String) (dir : String)
    (ec : Nat) : Status :=
  if ec ≠ 0 then
    ioError strerror
      ("remove " ++ dir ++ " recursively error: " ++ message ec) ec
  else .okStatus

/-- `std::error_code` as an answer. -/
def answerOf (ec : Nat) : CallAnswer :=
  if ec = 0 then .succeeded else .failed ec

/-- The status tells how a call ended: what was missing or in the way is told
apart from other errors, and the message says what was attempted. -/
structure Reports (strerror : Nat → String) (context : String)
    (answer : CallAnswer) (status : Status) : Prop where
  ok : status.ok = true ↔ answer = .succeeded
  notFound : status.isNotFound = true ↔ answer = .failed ENOENT
  alreadyExist : status.code = .alreadyExist ↔ answer = .failed EEXIST
  message : ∀ errNumber, answer = .failed errNumber →
    status.message = Status.cString (context ++ " " ++ strerror errNumber)

theorem reports_called (strerror : Nat → String) (context : String)
    {answer : CallAnswer} (nonzero : answer ≠ .failed 0) :
    Reports strerror context answer (called strerror context answer) := by
  cases answer with
  | succeeded =>
      constructor
      · exact iff_of_true rfl rfl
      · exact iff_of_false (show ¬Status.okStatus.isNotFound = true by decide)
          (by simp)
      · exact iff_of_false
          (show Status.okStatus.code ≠ .alreadyExist by decide) (by simp)
      · intro errNumber impossible
        cases impossible
  | failed errNumber =>
      have number : errNumber ≠ 0 := fun zero =>
        nonzero (congrArg CallAnswer.failed zero)
      constructor
      · rw [called, ok_ioError strerror context number]
        simp
      · rw [called, isNotFound_ioError, CallAnswer.failed.injEq]
      · rw [called, alreadyExist_ioError, CallAnswer.failed.injEq]
      · rintro _ ⟨⟩
        exact message_ioError strerror context number

/-- All calls that only check the answer report how they ended. -/
theorem reports_checked (strerror : Nat → String) (name : String)
    (file : PosixFile) {answer : CallAnswer} (nonzero : answer ≠ .failed 0) :
    Reports strerror name answer (makeDir strerror name answer) ∧
      Reports strerror name answer (removeDir strerror name answer) ∧
      Reports strerror name answer (removeFile strerror name answer) ∧
      Reports strerror name answer (fileExists strerror name answer) ∧
      Reports strerror ("While syncing file " ++ file.fname) answer
        (file.sync strerror answer) :=
  ⟨reports_called strerror name nonzero, reports_called strerror name nonzero,
    reports_called strerror name nonzero, reports_called strerror name nonzero,
    reports_called strerror _ nonzero⟩

private theorem reports_answerOf (strerror : Nat → String) (context : String)
    (ec : Nat) :
    Reports strerror context (answerOf ec)
      (if ec ≠ 0 then ioError strerror context ec else .okStatus) := by
  by_cases zero : ec = 0
  · rw [answerOf, if_pos zero, if_neg (not_not_intro zero)]
    exact reports_called strerror context (by simp)
  · rw [answerOf, if_neg zero, if_pos zero]
    exact reports_called strerror context (by simp [zero])

/-- So do those that work on whole trees, with a message that holds two texts of
the error. -/
theorem reports_recursive (strerror message : Nat → String) (dir : String)
    (ec : Nat) :
    Reports strerror ("create " ++ dir ++ " recursively error: " ++ message ec)
        (answerOf ec) (makeDirRecursively strerror message dir ec) ∧
      Reports strerror
        ("remove " ++ dir ++ " recursively error: " ++ message ec)
        (answerOf ec) (removeDirRecursively strerror message dir ec) :=
  ⟨reports_answerOf strerror _ ec, reports_answerOf strerror _ ec⟩

/-- The entries that are handed to the callback. -/
def realEntries (names : List String) : List String :=
  names.filter fun name => name ≠ "." ∧ name ≠ ".."

section Visit

variable {σ : Type} (cb : σ → String → CallbackResult σ)

/-- Call the callback for one name after the other until it asks to stop. -/
def visit : List String → σ → CallbackResult σ
  | [], state => { proceed := true, state }
  | name :: names, state =>
      let r := cb state name
      if r.proceed then visit names r.state else r

theorem readDirLoop_entries (names : List String)
    (rest : List ReadDirAnswer) (errno : Nat) (state : σ) :
    readDirLoop cb (names.map .entry ++ rest) errno state =
      let seen := visit cb (realEntries names) state
      if seen.proceed then readDirLoop cb rest errno seen.state
      else some (false, errno, seen.state) := by
  induction names generalizing state with
  | nil => rfl
  | cons name names induction =>
      rw [List.map_cons, List.cons_append, readDirLoop]
      by_cases dots : name = "." ∨ name = ".."
      · have skipped : realEntries (name :: names) = realEntries names := by
          apply List.filter_cons_of_neg
          rw [decide_eq_true_iff]
          rintro ⟨notHere, notAbove⟩
          exact dots.elim notHere notAbove
        rw [if_pos dots, induction, skipped]
      · have handed : realEntries (name :: names) =
            name :: realEntries names := by
          apply List.filter_cons_of_pos
          rw [decide_eq_true_iff]
          exact not_or.mp dots
        rw [if_neg dots, handed, visit]
        dsimp only
        cases proceed : (cb state name).proceed with
        | true => exact induction (cb state name).state
        | false => simp [proceed]

end Visit

theorem visit_collect (names result : List String) :
    visit (fun result name => { proceed := true, state := result ++ [name] })
        names result =
      { proceed := true, state := result ++ names } := by
  induction names generalizing result with
  | nil => rw [visit, List.append_nil]
  | cons name names induction =>
      rw [visit, if_pos rfl, induction, List.append_assoc]
      rfl

section Ends

variable {σ : Type} (cb : σ → String → CallbackResult σ)
  (strerror : Nat → String) (dir : String) (names : List String)
  (rest : List ReadDirAnswer) (closedir : CallAnswer) (state : σ)

private theorem closing_eq (null : Bool) (errno : Nat)
    (harmless : ¬(null = true ∧ errno ≠ 0)) :
    (if null = true ∧ errno ≠ 0 then
        some (Iteration.mk (ioError strerror dir errno) state true)
      else
        match closedir with
        | .failed errNumber =>
            some (Iteration.mk (ioError strerror dir errNumber) state false)
        | .succeeded => some (Iteration.mk .okStatus state false)) =
      some (Iteration.mk (called strerror dir closedir) state false) := by
  rw [if_neg harmless]
  cases closedir <;> rfl

theorem iterateDir_stopped
    (stopped : (visit cb (realEntries names) state).proceed = false) :
    iterateDir cb strerror dir .succeeded (names.map .entry ++ rest) closedir
        state =
      some
        { status := called strerror dir closedir
          state := (visit cb (realEntries names) state).state
          leftOpen := false } := by
  have loop := readDirLoop_entries cb names rest 0 state
  rw [if_neg (by rw [stopped]; exact Bool.false_ne_true)] at loop
  simp only [iterateDir, loop]
  exact closing_eq strerror dir closedir _ false 0 (by simp)

variable (proceeds : (visit cb (realEntries names) state).proceed = true)

include proceeds in
theorem iterateDir_ended :
    iterateDir cb strerror dir .succeeded
        (names.map .entry ++ .endOfDir :: rest) closedir state =
      some
        { status := called strerror dir closedir
          state := (visit cb (realEntries names) state).state
          leftOpen := false } := by
  have loop := readDirLoop_entries cb names (.endOfDir :: rest) 0 state
  rw [if_pos proceeds, readDirLoop] at loop
  simp only [iterateDir, loop]
  exact closing_eq strerror dir closedir _ true 0 (by simp)

include proceeds in
theorem iterateDir_failed {errNumber : Nat} (nonzero : errNumber ≠ 0) :
    iterateDir cb strerror dir .succeeded
        (names.map .entry ++ .failed errNumber :: rest) closedir state =
      some
        { status := ioError strerror dir errNumber
          state := (visit cb (realEntries names) state).state
          leftOpen := true } := by
  have loop := readDirLoop_entries cb names (.failed errNumber :: rest) 0
    state
  rw [if_pos proceeds, readDirLoop] at loop
  simp only [iterateDir, loop]
  exact if_pos ⟨rfl, nonzero⟩

end Ends

/-- The callback is called once for each entry but `.` and `..`, in order,
until it asks to stop; whatever comes behind is not read.  If it never asks,
the end of the directory is no error, and an error of `readdir` is returned,
with the directory stream left open on this path alone. -/
theorem iterateDir_visits {σ : Type} (cb : σ → String → CallbackResult σ)
    (strerror : Nat → String) (dir : String) (names : List String)
    (rest : List ReadDirAnswer) (closedir : CallAnswer) (state : σ) :
    let seen := visit cb (realEntries names) state
    let closing := called strerror dir closedir
    (seen.proceed = false →
      iterateDir cb strerror dir .succeeded (names.map .entry ++ rest)
          closedir state =
        some { status := closing, state := seen.state, leftOpen := false }) ∧
    (seen.proceed = true →
      iterateDir cb strerror dir .succeeded
          (names.map .entry ++ .endOfDir :: rest) closedir state =
        some { status := closing, state := seen.state, leftOpen := false } ∧
      ∀ errNumber, errNumber ≠ 0 →
        iterateDir cb strerror dir .succeeded
            (names.map .entry ++ .failed errNumber :: rest) closedir state =
          some
            { status := ioError strerror dir errNumber
              state := seen.state
              leftOpen := true }) := by
  intro seen closing
  constructor
  · exact iterateDir_stopped cb strerror dir names rest closedir state
  · intro proceeds
    constructor
    · exact iterateDir_ended cb strerror dir names rest closedir state proceeds
    · intro errNumber nonzero
      exact iterateDir_failed cb strerror dir names rest closedir state
        proceeds nonzero

/-- Answers that are used up, reach the end, or fail. -/
private inductive Answered : List ReadDirAnswer → Prop where
  | usedUp (names : List String) : Answered (names.map .entry)
  | ended (names : List String) (rest : List ReadDirAnswer) :
      Answered (names.map .entry ++ .endOfDir :: rest)
  | failed (names : List String) (errNumber : Nat)
      (rest : List ReadDirAnswer) :
      Answered (names.map .entry ++ .failed errNumber :: rest)

private theorem answered (answers : List ReadDirAnswer) :
    Answered answers := by
  induction answers with
  | nil => exact .usedUp []
  | cons answer answers induction =>
      cases answer with
      | endOfDir => exact .ended [] answers
      | failed errNumber => exact .failed [] errNumber answers
      | entry name =>
          cases induction with
          | usedUp names => exact .usedUp (name :: names)
          | ended names rest => exact .ended (name :: names) rest
          | failed names errNumber rest =>
              exact .failed (name :: names) errNumber rest

section ListDir

variable (strerror : Nat → String) (dir : String) (names : List String)
  (rest : List ReadDirAnswer) (closedir : CallAnswer)

private theorem listDir_ended :
    listDir strerror dir .succeeded (names.map .entry ++ .endOfDir :: rest)
        closedir =
      some
        { status := called strerror dir closedir
          state := realEntries names
          leftOpen := false } := by
  have collected := visit_collect (realEntries names) []
  rw [listDir, iterateDir_ended _ _ _ _ _ _ _ (by rw [collected]), collected]
  rfl

private theorem listDir_failed {errNumber : Nat} (nonzero : errNumber ≠ 0) :
    listDir strerror dir .succeeded
        (names.map .entry ++ .failed errNumber :: rest) closedir =
      some
        { status := ioError strerror dir errNumber
          state := realEntries names
          leftOpen := true } := by
  have collected := visit_collect (realEntries names) []
  rw [listDir, iterateDir_failed _ _ _ _ _ _ _ (by rw [collected]) nonzero,
    collected]
  rfl

private theorem listDir_usedUp :
    listDir strerror dir .succeeded (names.map .entry) closedir = none := by
  have loop := readDirLoop_entries
    (fun result name => { proceed := true, state := result ++ [name] })
    names [] 0 []
  rw [List.append_nil, visit_collect] at loop
  simp only [listDir, iterateDir, loop]
  rfl

/-- A directory that is open is listed once `readdir` has returned a null
pointer. -/
private theorem listDir_returns_iff (strerror : Nat → String) (dir : String)
    (opendir closedir : CallAnswer) (answers : List ReadDirAnswer)
    (reads : .failed 0 ∉ answers) :
    (∃ listing,
      listDir strerror dir opendir answers closedir = some listing) ↔
      opendir ≠ .succeeded ∨
        ∃ answer, answer ∈ answers ∧ ∀ name, answer ≠ .entry name := by
  cases opendir with
  | failed errNumber => exact iff_of_true ⟨_, rfl⟩ (Or.inl (by simp))
  | succeeded =>
      cases answered answers with
      | usedUp names =>
          apply iff_of_false
          · rintro ⟨listing, returned⟩
            rw [listDir_usedUp] at returned
            cases returned
          · rintro (absurdity | ⟨answer, member, other⟩)
            · exact absurdity rfl
            · obtain ⟨name, -, same⟩ := List.mem_map.mp member
              exact other name same.symm
      | ended names rest =>
          exact iff_of_true ⟨_, listDir_ended strerror dir names rest closedir⟩
            (Or.inr ⟨.endOfDir, by simp, by simp⟩)
      | failed names errNumber rest =>
          have number : errNumber ≠ 0 := by
            rintro rfl
            exact reads (List.mem_append_right _ (List.mem_cons_self ..))
          exact iff_of_true
            ⟨_, listDir_failed strerror dir names rest closedir number⟩
            (Or.inr ⟨.failed errNumber, by simp, by simp⟩)

private theorem listing_ok_iff (strerror : Nat → String) (dir : String)
    {opendir closedir : CallAnswer} {answers : List ReadDirAnswer}
    (opens : opendir ≠ .failed 0) (closes : closedir ≠ .failed 0)
    (reads : .failed 0 ∉ answers) {listing : Iteration (List String)}
    (returned : listDir strerror dir opendir answers closedir =
      some listing) :
    (listing.status.ok = true ↔
      opendir = .succeeded ∧ closedir = .succeeded ∧
        ∃ names rest, answers = names.map .entry ++ .endOfDir :: rest ∧
          listing.state = realEntries names) ∧
    (listing.leftOpen = true ↔
      opendir = .succeeded ∧ ∃ names errNumber rest,
        answers = names.map .entry ++ .failed errNumber :: rest ∧
          listing.state = realEntries names) := by
  cases opendir with
  | failed errNumber =>
      have number : errNumber ≠ 0 := fun zero =>
        opens (congrArg CallAnswer.failed zero)
      cases returned
      rw [ok_ioError strerror dir number]
      simp
  | succeeded =>
      cases answered answers with
      | usedUp names =>
          rw [listDir_usedUp] at returned
          cases returned
      | ended names rest =>
          rw [listDir_ended] at returned
          cases returned
          constructor
          · rw [(reports_called strerror dir closes).ok]
            constructor
            · exact fun closed => ⟨rfl, closed, names, rest, rfl, rfl⟩
            · exact fun whole => whole.2.1
          · constructor
            · intro impossible
              cases impossible
            · rintro ⟨-, others, errNumber, behind, same, -⟩
              have number : errNumber ≠ 0 := by
                rintro rfl
                rw [same] at reads
                exact reads (List.mem_append_right _ (List.mem_cons_self ..))
              have ended := listDir_ended strerror dir names rest closedir
              rw [same, listDir_failed _ _ _ _ _ number] at ended
              exact absurd
                (congrArg Iteration.leftOpen (Option.some.inj ended)).symm
                Bool.false_ne_true
      | failed names errNumber rest =>
          have number : errNumber ≠ 0 := by
            rintro rfl
            exact reads (List.mem_append_right _ (List.mem_cons_self ..))
          rw [listDir_failed _ _ _ _ _ number] at returned
          cases returned
          rw [ok_ioError strerror dir number]
          constructor
          · constructor
            · intro impossible
              cases impossible
            · rintro ⟨-, -, others, behind, same, -⟩
              have failed := listDir_failed strerror dir names rest closedir
                number
              rw [same, listDir_ended] at failed
              exact absurd
                (congrArg Iteration.leftOpen (Option.some.inj failed))
                Bool.false_ne_true
          · constructor
            · exact fun _ => ⟨rfl, names, errNumber, rest, rfl, rfl⟩
            · exact fun _ => rfl

/-- `listDir` returns exactly if the directory cannot be opened or `readdir`
comes to an end or an error.  It succeeds exactly if the directory can be
opened, read to its end and closed, and returns its entries but `.` and `..`,
in order.  The stream is left open exactly if reading fails. -/
theorem listDir_ok_iff (strerror : Nat → String) (dir : String)
    {opendir closedir : CallAnswer} {answers : List ReadDirAnswer}
    (opens : opendir ≠ .failed 0) (closes : closedir ≠ .failed 0)
    (reads : .failed 0 ∉ answers) :
    ((∃ listing,
      listDir strerror dir opendir answers closedir = some listing) ↔
      opendir ≠ .succeeded ∨
        ∃ answer, answer ∈ answers ∧ ∀ name, answer ≠ .entry name) ∧
    ∀ listing,
      listDir strerror dir opendir answers closedir = some listing →
      (listing.status.ok = true ↔
        opendir = .succeeded ∧ closedir = .succeeded ∧
          ∃ names rest, answers = names.map .entry ++ .endOfDir :: rest ∧
            listing.state = realEntries names) ∧
      (listing.leftOpen = true ↔
        opendir = .succeeded ∧ ∃ names errNumber rest,
          answers = names.map .entry ++ .failed errNumber :: rest ∧
            listing.state = realEntries names) :=
  ⟨listDir_returns_iff strerror dir opendir closedir answers reads,
    fun _ returned => listing_ok_iff strerror dir opens closes reads returned⟩

theorem listDir_ok_iff_oneFile :
    ∃ listing,
      listDir (fun _ => "") "db" .succeeded
          [.entry ".", .entry "log", .entry "..", .endOfDir] .succeeded =
        some listing ∧ listing.status.ok = true := by
  obtain ⟨returns, ends⟩ := listDir_ok_iff (fun _ => "") "db"
    (show CallAnswer.succeeded ≠ .failed 0 by decide)
    (show CallAnswer.succeeded ≠ .failed 0 by decide)
    (show .failed 0 ∉ [ReadDirAnswer.entry ".", .entry "log", .entry "..",
      .endOfDir] by decide)
  obtain ⟨listing, returned⟩ := returns.mpr
    (Or.inr ⟨.endOfDir, by simp, by simp⟩)
  refine ⟨listing, returned, (ends listing returned).1.mpr
    ⟨rfl, rfl, [".", "log", ".."], [], rfl, ?_⟩⟩
  cases returned
  decide

end ListDir

end PosixFileSystem

end LiteLsm
