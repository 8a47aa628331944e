import LiteLsm.Filesystem.PosixFile
import LiteLsm.Support.Runs

/-!
# Who owns a file descriptor

The system hands out descriptors that are not open, so a released one may be
handed out again.  `close` forgets its descriptor only where the system reports
success, although the descriptor is released in either case.  From then on the
file keeps a number that may come to stand for another file, and its
destructor closes it once more.
-/

namespace LiteLsm

/-- A file with the descriptor it was opened with; `-1` once it is closed. -/
structure OpenedFile extends PosixFile where
  fd : Int

/-- `openRWFile` and `openReadableFile`, which differ in the flags of `open`,
once `open` has returned a descriptor, or `-1` with an error number. -/
def openFile (strerror : Nat → String) (fname : String) (fd : Int)
    (errNumber : Nat) : Status × Option OpenedFile :=
  if fd = -1 then
    (ioError strerror ("While openning file " ++ fname) errNumber, none)
  else
    (.okStatus, some { fname, fd })

/-- What `::close` returns: zero, or `-1` with an error number. -/
inductive CloseAnswer where
  | closed
  | failed (errNumber : Nat)
  deriving DecidableEq, Repr

/-- `PosixFile::close` -/
def OpenedFile.close (strerror : Nat → String) (file : OpenedFile) :
    CloseAnswer → Status × OpenedFile
  | .failed errNumber =>
      (ioError strerror ("While closing file " ++ file.fname) errNumber, file)
  | .closed => (.okStatus, { file with fd := -1 })

/-- The descriptors that are open, each with the file it was opened for, and
the files that are alive.  Files are numbered as they are opened. -/
structure FileTable where
  openedFor : Int → Option Nat
  files : Nat → Option OpenedFile
  nextFile : Nat

namespace FileTable

/-- Nothing is open yet. -/
def initial : FileTable :=
  { openedFor := fun _ => none
    files := fun _ => none
    nextFile := 0 }

/-- What can happen to files: one is opened, closed, or destroyed, which
closes it first. -/
inductive Event where
  | opening (fname : String) (fd : Int) (errNumber : Nat)
  | close (id : Nat) (answer : CloseAnswer)
  | destroy (id : Nat) (answer : CloseAnswer)
  deriving DecidableEq

/-- `::close` releases an open descriptor whatever it returns. -/
def release (openedFor : Int → Option Nat) (fd : Int) :
    Int → Option Nat :=
  fun other => if other = fd then none else openedFor other

def replace (files : Nat → Option OpenedFile) (id : Nat)
    (file : Option OpenedFile) : Nat → Option OpenedFile :=
  fun other => if other = id then file else files other

/-- The texts of the system's errors have no influence on the table. -/
def apply (strerror : Nat → String) (table : FileTable) :
    Event → FileTable
  | .opening fname fd errNumber =>
      match (openFile strerror fname fd errNumber).2 with
      | none => table
      | some file =>
          { openedFor := fun other =>
              if other = fd then some table.nextFile
              else table.openedFor other
            files := replace table.files table.nextFile (some file)
            nextFile := table.nextFile + 1 }
  | .close id answer =>
      match table.files id with
      | none => table
      | some file =>
          { table with
            openedFor := release table.openedFor file.fd
            files := replace table.files id
              (some (file.close strerror answer).2) }
  | .destroy id _ =>
      match table.files id with
      | none => table
      | some file =>
          { table with
            openedFor := release table.openedFor file.fd
            files := replace table.files id none }

/-- What the system promises: a new descriptor is not open, and closing one
which is not open is reported as an error.  Only live files are closed. -/
def Permitted (table : FileTable) : Event → Prop
  | .opening _ fd _ => fd ≠ -1 → 0 ≤ fd ∧ table.openedFor fd = none
  | .close id answer | .destroy id answer =>
      ∃ file, table.files id = some file ∧
        (answer = .closed → table.openedFor file.fd ≠ none)

/-- Every live file that has a descriptor owns it: the descriptor is open, and
for this file. -/
def Owned (table : FileTable) : Prop :=
  ∀ id file, table.files id = some file → file.fd ≠ -1 →
    table.openedFor file.fd = some id

/-- No descriptor is released that was opened for another live file. -/
def ReleasesOwn (table : FileTable) : Event → Prop
  | .opening _ _ _ => True
  | .close id _ | .destroy id _ =>
      ∀ file other, table.files id = some file →
        table.openedFor file.fd = some other →
        other = id ∨ table.files other = none

/-- What is expected of a step. -/
def Safe (strerror : Nat → String) (table : FileTable) (event : Event) :
    Prop :=
  ReleasesOwn table event ∧ Owned (apply strerror table event)

/-- An explicit `close` of a file that has a descriptor does not report an
error. -/
def ClosesWell (table : FileTable) : Event → Prop
  | .close id (.failed _) =>
      ∀ file, table.files id = some file → file.fd = -1
  | _ => True

/-- What carries ownership from step to step. -/
structure Sound (table : FileTable) : Prop where
  owned : table.Owned
  nonneg : ∀ fd id, table.openedFor fd = some id → 0 ≤ fd

theorem Owned.exclusive {table : FileTable} (owned : table.Owned)
    {left right : Nat} {leftFile rightFile : OpenedFile}
    (leftLive : table.files left = some leftFile)
    (rightLive : table.files right = some rightFile)
    (hasFd : leftFile.fd ≠ -1) (same : leftFile.fd = rightFile.fd) :
    left = right := by
  have leftOwner := owned left leftFile leftLive hasFd
  have rightOwner := owned right rightFile rightLive (same ▸ hasFd)
  rw [same, rightOwner] at leftOwner
  exact (Option.some.inj leftOwner).symm

section Step

variable {table : FileTable}

theorem sound_initial : initial.Sound := by
  constructor
  · intro id file live
    cases live
  · intro fd id opened
    cases opened

/-- A file releases its own descriptor or, without one, nothing. -/
private theorem Sound.releasesOwn (sound : table.Sound) {id : Nat}
    {file : OpenedFile} (live : table.files id = some file) {other : Nat}
    (released : table.openedFor file.fd = some other) : other = id := by
  by_cases without : file.fd = -1
  · have nonneg := sound.nonneg file.fd other released
    omega
  · have owner := sound.owned id file live without
    rw [released] at owner
    exact Option.some.inj owner

/-- What a file releases belongs to no other file. -/
private theorem Sound.release_other (sound : table.Sound) {id other : Nat}
    {file otherFile : OpenedFile} (live : table.files id = some file)
    (otherLive : table.files other = some otherFile) (different : other ≠ id)
    (hasFd : otherFile.fd ≠ -1) :
    release table.openedFor file.fd otherFile.fd = some other := by
  have apart : otherFile.fd ≠ file.fd := by
    intro same
    exact different
      (sound.owned.exclusive otherLive live hasFd same)
  rw [release, if_neg apart]
  exact sound.owned other otherFile otherLive hasFd

/-- Ownership is kept if the file that releases its descriptor forgets it. -/
private theorem Sound.owned_release (sound : table.Sound) {id : Nat}
    {file : OpenedFile} (live : table.files id = some file)
    {now : Option OpenedFile} (nextFile : Nat)
    (forgotten : ∀ file, now = some file → file.fd = -1) :
    Owned
      { openedFor := release table.openedFor file.fd
        files := replace table.files id now
        nextFile } := by
  intro other otherFile otherLive hasFd
  by_cases same : other = id
  · have replaced : now = some otherFile := by
      simpa [replace, same] using otherLive
    exact absurd (forgotten otherFile replaced) hasFd
  · have before : table.files other = some otherFile := by
      simpa [replace, same] using otherLive
    exact sound.release_other live before same hasFd

theorem apply_opening (strerror : Nat → String) (fname : String)
    {fd : Int} (succeeded : fd ≠ -1) (errNumber : Nat) :
    table.apply strerror (.opening fname fd errNumber) =
      { openedFor := fun other =>
          if other = fd then some table.nextFile else table.openedFor other
        files := replace table.files table.nextFile (some { fname, fd })
        nextFile := table.nextFile + 1 } := by
  rw [apply, openFile, if_neg succeeded]

theorem apply_opening_failed (strerror : Nat → String)
    (fname : String) (errNumber : Nat) :
    table.apply strerror (.opening fname (-1) errNumber) = table := by
  rw [apply, openFile, if_pos rfl]

private theorem Sound.owned_opened (sound : table.Sound) {fname : String}
    {fd : Int} (closed : table.openedFor fd = none) :
    Owned
      { openedFor := fun other =>
          if other = fd then some table.nextFile else table.openedFor other
        files := replace table.files table.nextFile (some { fname, fd })
        nextFile := table.nextFile + 1 } := by
  intro other otherFile otherLive hasFd
  dsimp only at otherLive ⊢
  by_cases same : other = table.nextFile
  · rw [replace, if_pos same] at otherLive
    cases otherLive
    rw [if_pos rfl, same]
  · rw [replace, if_neg same] at otherLive
    have owner := sound.owned other otherFile otherLive hasFd
    have apart : otherFile.fd ≠ fd := by
      intro equal
      rw [equal, closed] at owner
      cases owner
    rw [if_neg apart]
    exact owner

/-- The step: what is expected happens unless an explicit `close` reports an
error. -/
private theorem Sound.safe_iff (sound : table.Sound)
    (strerror : Nat → String) (event : Event)
    (permitted : table.Permitted event) :
    table.Safe strerror event ↔ table.ClosesWell event := by
  cases event with
  | opening fname fd errNumber =>
      constructor
      · intro _
        trivial
      · intro _
        refine ⟨trivial, ?_⟩
        by_cases failed : fd = -1
        · rw [failed, apply_opening_failed]
          exact sound.owned
        · rw [apply_opening strerror fname failed errNumber]
          exact sound.owned_opened (permitted failed).2
  | destroy id answer =>
      obtain ⟨file, live, -⟩ := permitted
      constructor
      · intro _
        trivial
      · intro _
        constructor
        · intro closing other closingLive released
          exact Or.inl (sound.releasesOwn closingLive released)
        · rw [apply, live]
          exact sound.owned_release live table.nextFile
            (fun _ impossible => by cases impossible)
  | close id answer =>
      obtain ⟨file, live, -⟩ := permitted
      have own : table.ReleasesOwn (.close id answer) := by
        intro closing other closingLive released
        exact Or.inl (sound.releasesOwn closingLive released)
      cases answer with
      | closed =>
          constructor
          · intro _
            trivial
          · intro _
            refine ⟨own, ?_⟩
            rw [apply, live]
            apply sound.owned_release live table.nextFile
            rintro _ ⟨⟩
            rfl
      | failed errNumber =>
          constructor
          · rintro ⟨-, owned⟩ closing closingLive
            rw [live] at closingLive
            cases closingLive
            rw [apply, live] at owned
            -- a file that keeps its descriptor does not own it any more
            apply Decidable.byContradiction
            intro hasFd
            have kept := owned id file (by simp [replace, OpenedFile.close])
              hasFd
            simp [release] at kept
          · intro without
            refine ⟨own, ?_⟩
            rw [apply, live]
            apply sound.owned_release live table.nextFile
            rintro _ ⟨⟩
            exact without file live

theorem Sound.step (sound : table.Sound) (strerror : Nat → String)
    (event : Event) (permitted : table.Permitted event)
    (closesWell : table.ClosesWell event) :
    (table.apply strerror event).Sound := by
  refine ⟨((sound.safe_iff strerror event permitted).mpr closesWell).2, ?_⟩
  have released (closing : Int) : ∀ fd id,
      release table.openedFor closing fd = some id → 0 ≤ fd := by
    intro fd id remains
    rw [release] at remains
    split at remains
    · cases remains
    · exact sound.nonneg fd id remains
  cases event with
  | opening fname newFd errNumber =>
      intro fd id opened
      by_cases failed : newFd = -1
      · rw [failed, apply_opening_failed] at opened
        exact sound.nonneg fd id opened
      · rw [apply_opening strerror fname failed errNumber] at opened
        dsimp only at opened
        split at opened
        · rename_i same
          rw [same]
          exact (permitted failed).1
        · exact sound.nonneg fd id opened
  | close id answer =>
      obtain ⟨file, live, -⟩ := permitted
      rw [apply, live]
      exact released file.fd
  | destroy id answer =>
      obtain ⟨file, live, -⟩ := permitted
      rw [apply, live]
      exact released file.fd

end Step

/-- In a run of any number of files, opened, closed and destroyed in any order,
every file owns its descriptor and releases no other's exactly if no explicit
`close` of a file that has a descriptor reports an error. -/
theorem descriptors_safe_iff (strerror : Nat → String)
    (events : List Event)
    (permitted : Runs.Throughout (apply strerror) Permitted initial events) :
    Runs.Throughout (apply strerror) (Safe strerror) initial events ↔
      Runs.Throughout (apply strerror) ClosesWell initial events :=
  Runs.throughout_iff Sound
    (fun _ event sound allowed => sound.safe_iff strerror event allowed)
    (fun _ event sound allowed well =>
      sound.step strerror event allowed well)
    sound_initial permitted

/-- A file closed twice, and a descriptor handed out again in between. -/
theorem descriptors_safe_handedOutAgain :
    Runs.Throughout (apply fun _ => "") (Safe fun _ => "") initial
      [.opening "a" 3 0, .close 0 .closed, .opening "b" 3 0,
        .close 0 (.failed 9), .destroy 0 (.failed 9),
        .destroy 1 (.failed 5)] := by
  apply (descriptors_safe_iff (fun _ => "") _ ?_).mpr
  · refine ⟨trivial, trivial, trivial, ?_, trivial, trivial, trivial⟩
    rintro _ ⟨⟩
    rfl
  · refine ⟨fun _ => ⟨by decide, rfl⟩, ⟨_, rfl, ?_⟩,
      fun _ => ⟨by decide, rfl⟩, ⟨_, rfl, ?_⟩, ⟨_, rfl, ?_⟩, ⟨_, rfl, ?_⟩,
      trivial⟩
    · decide
    · decide
    · decide
    · decide

/-- The first file keeps a descriptor whose closing failed.  It then stands
for the second file, and is closed with the first. -/
theorem descriptors_closedForAnother :
    let run : List Event :=
      [.opening "a" 3 0, .close 0 (.failed 5), .opening "b" 3 0]
    let before := Runs.final (apply fun _ => "") initial run
    Runs.Throughout (apply fun _ => "") Permitted initial
        (run ++ [.destroy 0 .closed]) ∧
      ¬before.ReleasesOwn (.destroy 0 .closed) ∧
      ¬Runs.Throughout (apply fun _ => "") (Safe fun _ => "") initial
        (run ++ [.destroy 0 .closed]) := by
  intro run before
  have closesOther : ¬before.ReleasesOwn (.destroy 0 .closed) := by
    intro own
    rcases own { fname := "a", fd := 3 } 1 rfl rfl with same | gone
    · cases same
    · cases gone
  refine ⟨?_, closesOther, ?_⟩
  · refine ⟨fun _ => ⟨by decide, rfl⟩, ⟨_, rfl, ?_⟩,
      fun _ => ⟨by decide, rfl⟩, ⟨_, rfl, ?_⟩, trivial⟩
    · decide
    · decide
  · rintro ⟨-, -, -, last, -⟩
    exact closesOther last.1

end FileTable

end LiteLsm
