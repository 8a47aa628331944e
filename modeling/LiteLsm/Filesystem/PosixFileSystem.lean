import LiteLsm.Filesystem.Descriptors
import LiteLsm.Support.PosixFiles

/-!
# The POSIX file system

`PosixFileSystem` opens files, `PosixFile` writes through the descriptors it
was given.  Where the bytes go depends on the flags: a file from `newRWFile`
has a position of its own, one from `repenRWFile` is written at its end.

The state of the system is what the kernel knows together with the files that
are alive; events are calls with the system's answers to them.
-/

namespace LiteLsm

open Posix (O_RDONLY O_RDWR O_CREAT O_TRUNC O_APPEND NameSpace)

def EBADF : Nat := 9

/-- What a system call without a result returns: zero, or `-1` with an error
number. -/
inductive CallAnswer where
  | succeeded
  | failed (errNumber : Nat)
  deriving DecidableEq, Repr

namespace PosixFileSystem

variable (strerror : Nat → String)

/-- The status of a call that is only checked. -/
def called (context : String) : CallAnswer → Status
  | .failed errNumber => ioError strerror context errNumber
  | .succeeded => .okStatus

def makeDir (dir : String) (answer : CallAnswer) : Status :=
  called strerror dir answer

def removeDir (dir : String) (answer : CallAnswer) : Status :=
  called strerror dir answer

def removeFile (fname : String) (answer : CallAnswer) : Status :=
  called strerror fname answer

def fileExists (fname : String) (answer : CallAnswer) : Status :=
  called strerror fname answer

/-- The flags of `openRWFile`. -/
def rwFlags (isNew : Bool) : Nat :=
  let flags := if isNew then O_CREAT ||| O_TRUNC else O_CREAT ||| O_APPEND
  flags ||| O_RDWR

end PosixFileSystem

/-- `PosixFile::sync` -/
def PosixFile.sync (strerror : Nat → String) (file : PosixFile)
    (answer : CallAnswer) : Status :=
  PosixFileSystem.called strerror ("While syncing file " ++ file.fname) answer

namespace OpenedFile

variable {ν : Type} (strerror : Nat → String) (file : OpenedFile)

/-- The loop of `append` on the files of the system. -/
def appendLoop (slice : Bytes) (answers : List WriteAnswer)
    (left src : Nat) (files : Posix.Files ν UInt8) :
    Option (Status × Posix.Files ν UInt8) :=
  if left ≠ 0 then
    match answers with
    | [] => none
    | .failed errNumber :: answers =>
        if errNumber = EINTR then
          appendLoop slice answers left src files
        else
          some (ioError strerror ("While writting file " ++ file.fname)
            errNumber, files)
    | .wrote done :: answers =>
        appendLoop slice answers ((left + (2 ^ 64 - done)) % 2 ^ 64)
          (src + done) (files.written file.fd ((slice.drop src).take done))
  else
    some (.okStatus, files)

def append (slice : Bytes) (files : Posix.Files ν UInt8)
    (answers : List WriteAnswer) : Option (Status × Posix.Files ν UInt8) :=
  file.appendLoop strerror slice answers slice.length 0 files

/-- What the loop writes is what it would append to an empty file. -/
theorem appendLoop_written {description : Posix.Description}
    {before files : Posix.Files ν UInt8} {done slice : Bytes} {left src : Nat}
    (written : Posix.Written file.fd description done before files)
    (answers : List WriteAnswer) :
    match file.toPosixFile.appendLoop strerror slice answers left src done with
    | none => file.appendLoop strerror slice answers left src files = none
    | some (status, all) =>
        ∃ after,
          file.appendLoop strerror slice answers left src files =
            some (status, after) ∧
          Posix.Written file.fd description all before after := by
  induction answers generalizing files done left src with
  | nil =>
      rw [appendLoop, PosixFile.appendLoop]
      by_cases more : left ≠ 0
      · rw [if_pos more, if_pos more]
      · rw [if_neg more, if_neg more]
        exact ⟨files, rfl, written⟩
  | cons answer answers induction =>
      rw [appendLoop.eq_def, PosixFile.appendLoop.eq_def]
      by_cases more : left ≠ 0
      rotate_left
      · rw [if_neg more, if_neg more]
        exact ⟨files, rfl, written⟩
      rw [if_pos more, if_pos more]
      cases answer with
      | failed errNumber =>
          by_cases interrupted : errNumber = EINTR
          · simp only [if_pos interrupted]
            exact induction written
          · simp only [if_neg interrupted]
            exact ⟨files, rfl, written⟩
      | wrote count =>
          exact induction (written.written ((slice.drop src).take count))

theorem append_atOnce {slice : Bytes} (short : slice.length < 2 ^ 64)
    (nonempty : slice ≠ []) (files : Posix.Files ν UInt8) :
    file.append strerror slice files [.wrote slice.length] =
      some (.okStatus, files.written file.fd slice) := by
  have positive := List.length_pos_iff.mpr nonempty
  have left : (slice.length + (2 ^ 64 - slice.length)) % 2 ^ 64 = 0 := by
    omega
  rw [append, appendLoop, if_pos (Nat.ne_of_gt positive), left, appendLoop,
    if_neg (not_not_intro rfl), List.drop_zero, List.take_length]

/-- A request that is refused at once, or never made, writes nothing. -/
theorem append_refused {slice : Bytes} {answers : List WriteAnswer}
    (refused : slice = [] ∨ ∃ rest, answers = .failed EBADF :: rest) :
    ∃ status,
      (∀ files : Posix.Files ν UInt8,
        file.append strerror slice files answers = some (status, files)) ∧
      ∀ contents,
        file.toPosixFile.append strerror slice contents answers =
          some (status, contents) := by
  by_cases empty : slice = []
  · refine ⟨.okStatus, fun files => ?_, fun contents => ?_⟩
    · rw [empty, append, appendLoop.eq_def]
      rfl
    · rw [empty, PosixFile.append, PosixFile.appendLoop.eq_def]
      rfl
  · obtain ⟨rest, rfl⟩ := refused.resolve_left empty
    have positive : slice.length ≠ 0 := by
      intro zero
      exact empty (List.length_eq_zero_iff.mp zero)
    refine ⟨ioError strerror ("While writting file " ++ file.fname) EBADF,
      fun files => ?_, fun contents => ?_⟩
    · rw [append, appendLoop, if_pos positive]
      rfl
    · rw [PosixFile.append, PosixFile.appendLoop, if_pos positive]
      rfl

end OpenedFile

/-- What is appended does not depend on what it is appended to. -/
theorem PosixFile.appendLoop_onEmpty (strerror : Nat → String)
    (file : PosixFile) (slice : Bytes) (answers : List WriteAnswer)
    (left src : Nat) (contents done : Bytes) :
    file.appendLoop strerror slice answers left src (contents ++ done) =
      (file.appendLoop strerror slice answers left src done).map
        (fun (status, all) => (status, contents ++ all)) := by
  induction answers generalizing left src done with
  | nil =>
      rw [appendLoop, appendLoop]
      split <;> rfl
  | cons answer answers induction =>
      rw [appendLoop.eq_def, appendLoop.eq_def]
      by_cases more : left ≠ 0
      rotate_left
      · rw [if_neg more, if_neg more]
        rfl
      rw [if_pos more, if_pos more]
      cases answer with
      | failed errNumber =>
          by_cases interrupted : errNumber = EINTR
          · simp only [if_pos interrupted]
            exact induction left src done
          · simp only [if_neg interrupted]
            rfl
      | wrote count =>
          simp only [List.append_assoc]
          exact induction _ _ _

theorem PosixFile.append_ok {strerror : Nat → String} {file : PosixFile}
    {slice contents now : Bytes}
    (short : slice.length < 2 ^ 64) {answers : List WriteAnswer}
    (permitted : WriteAnswer.Permitted slice.length answers) {status : Status}
    (returned : file.append strerror slice contents answers =
      some (status, now)) (ok : status.ok = true) :
    now = contents ++ slice := by
  have start : Appending slice contents slice.length 0 contents :=
    ⟨Nat.zero_add _, by rw [List.take_zero, List.append_nil]⟩
  have appended := appendLoop_outcome short start permitted returned
  cases appended with
  | complete => rfl
  | failed member nonzero =>
      rw [ok_ioError strerror _ nonzero] at ok
      cases ok

namespace OpenedFile

variable {ν : Type} (strerror : Nat → String) {file : OpenedFile}
  {description : Posix.Description} {files : Posix.Files ν UInt8}

/-- However a slice is split into writes, the bytes that are accepted end up
where one write would have put them. -/
theorem append_written
    (opened : files.descriptions file.fd = some description) (slice : Bytes)
    (answers : List WriteAnswer) :
    match file.toPosixFile.append strerror slice [] answers with
    | none => file.append strerror slice files answers = none
    | some (status, all) =>
        ∃ after,
          file.append strerror slice files answers = some (status, after) ∧
          Posix.Written file.fd description all files after :=
  file.appendLoop_written strerror (Posix.Written.refl opened) answers

theorem append_atEnd
    (opened : files.descriptions file.fd = some description)
    (atEnd : Posix.AtEnd files description) (slice : Bytes)
    (answers : List WriteAnswer) :
    file.toPosixFile.append strerror slice (files.contents description.file)
        answers =
      (file.append strerror slice files answers).map
        (fun (status, after) => (status, after.contents description.file)) ∧
    ∀ status after,
      file.append strerror slice files answers = some (status, after) →
      ∃ all, Posix.Written file.fd description all files after := by
  have onEmpty := file.toPosixFile.appendLoop_onEmpty strerror slice answers
    slice.length 0 (files.contents description.file) []
  rw [List.append_nil, ← PosixFile.append, ← PosixFile.append] at onEmpty
  have through := append_written strerror opened slice answers
  rw [onEmpty]
  cases onList : file.toPosixFile.append strerror slice [] answers with
  | none =>
      rw [onList] at through
      rw [through]
      exact ⟨rfl, fun _ _ impossible => by cases impossible⟩
  | some outcome =>
      obtain ⟨status, all⟩ := outcome
      rw [onList] at through
      obtain ⟨after, returned, written⟩ := through
      rw [returned]
      refine ⟨?_, fun _ _ same => ⟨all, ?_⟩⟩
      · rw [Option.map_some, Option.map_some]
        dsimp only
        rw [written.file_atEnd atEnd]
      · cases same
        exact written

/-- A successful `append` puts the slice where the description stands, whatever
the pieces it was written in, and touches no other file.  It appends exactly if
the description is at the end, or nothing is written. -/
theorem append_appends_iff (strerror : Nat → String) (file : OpenedFile)
    {description : Posix.Description} {files after : Posix.Files ν UInt8}
    (opened : files.descriptions file.fd = some description)
    {slice : Bytes} (short : slice.length < 2 ^ 64)
    {answers : List WriteAnswer}
    (permitted : WriteAnswer.Permitted slice.length answers) {status : Status}
    (returned : file.append strerror slice files answers =
      some (status, after)) (ok : status.ok = true) :
    after.contents description.file =
        Posix.overwrite (files.contents description.file)
          (files.start description) slice ∧
      (after.contents description.file =
          files.contents description.file ++ slice ↔
        slice = [] ∨ Posix.AtEnd files description) ∧
      (∀ other, other ≠ description.file →
        after.contents other = files.contents other) ∧
      after.paths = files.paths := by
  have through := append_written strerror opened slice answers
  cases onEmpty : file.toPosixFile.append strerror slice [] answers with
  | none =>
      rw [onEmpty] at through
      rw [through] at returned
      cases returned
  | some outcome =>
      obtain ⟨status', all⟩ := outcome
      rw [onEmpty] at through
      obtain ⟨after', returned', written⟩ := through
      rw [returned] at returned'
      cases returned'
      have whole : all = slice :=
        PosixFile.append_ok short permitted onEmpty ok
      rw [whole] at written
      refine ⟨written.file, ?_, fun other different => ?_, written.paths⟩
      · rw [written.file]
        exact Posix.overwrite_eq_append_iff
      · rw [written.contents, Function.update_of_ne different]

/-- A descriptor opened by `newRWFile` that stands behind the end leaves a
gap, in two writes. -/
theorem append_appends_iff_behindEnd :
    let description : Posix.Description :=
      { file := 0, flags := PosixFileSystem.rwFlags true, position := 2 }
    let files : Posix.Files (Posix.Entries id) UInt8 :=
      { paths := ⟨fun _ => some 0⟩
        contents := fun _ => [1]
        descriptions := fun _ => some description
        nextFile := 1 }
    ∃ after,
      (OpenedFile.mk ⟨"log"⟩ 3).append (fun _ => "") [7, 8] files
          [.wrote 1, .wrote 1] = some (.okStatus, after) ∧
      after.contents 0 = [1, 0, 7, 8] ∧ after.contents 0 ≠ [1, 7, 8] := by
  intro description files
  have permitted : WriteAnswer.Permitted ([7, 8] : Bytes).length
      [.wrote 1, .wrote 1] := by
    simp [WriteAnswer.Permitted]
  obtain ⟨placed, appends, -⟩ := append_appends_iff (fun _ => "")
    (OpenedFile.mk ⟨"log"⟩ 3) (show files.descriptions 3 = some description
      from rfl) (by decide) permitted rfl rfl
  refine ⟨_, rfl, placed.trans (by decide), fun appended => ?_⟩
  rcases appends.mp appended with empty | atEnd
  · cases empty
  · exact absurd atEnd (by decide)

end OpenedFile

/-- The files the kernel knows, and the ones that are alive. -/
structure PosixSystem (ν : Type) extends FileTable where
  posix : Posix.Files ν UInt8

/-- What stands on the disk while no file is open. -/
structure Disk (ν : Type) [NameSpace ν] where
  paths : ν
  contents : Nat → Bytes
  nextFile : Nat
  known : ∀ path file, NameSpace.lookup paths path = some file →
    file < nextFile

/-- A path in the working directory, with or without the dot for it. -/
def fromHere (path : String) : String :=
  match path.toList with
  | '.' :: '/' :: name => String.ofList name
  | _ => path

/-- An empty disk. -/
def Disk.empty : Disk (Posix.Entries fromHere) where
  paths := ⟨fun _ => none⟩
  contents := fun _ => []
  nextFile := 0
  known := fun _ _ impossible => by cases impossible

namespace PosixSystem

variable {ν : Type} [NameSpace ν]

/-- No file is open yet. -/
def initial (disk : Disk ν) : PosixSystem ν :=
  { FileTable.initial with
    posix :=
      { paths := disk.paths
        contents := disk.contents
        descriptions := fun _ => none
        nextFile := disk.nextFile } }

/-- Calls on the file system and on the files it has opened. -/
inductive Event where
  | newRWFile (fname : String) (fd : Int) (errNumber : Nat)
  | repenRWFile (fname : String) (fd : Int) (errNumber : Nat)
  | openReadableFile (fname : String) (fd : Int) (errNumber : Nat)
  | append (id : Nat) (slice : Bytes) (answers : List WriteAnswer)
  | close (id : Nat) (answer : CloseAnswer)
  | destroy (id : Nat) (answer : CloseAnswer)
  | removeFile (fname : String) (answer : CallAnswer)
  deriving DecidableEq

/-- `open` on the path with the given flags, and the file made for the
descriptor. -/
def opening (strerror : Nat → String) (system : PosixSystem ν)
    (fname : String) (flags : Nat) (fd : Int) (errNumber : Nat) :
    PosixSystem ν :=
  { toFileTable :=
      system.toFileTable.apply strerror (.opening fname fd errNumber)
    posix :=
      if fd = -1 then system.posix
      else system.posix.opened fd (Status.cString fname) flags }

/-- `::close` on the descriptor of a live file. -/
def releasing (system : PosixSystem ν) (id : Nat) : Posix.Files ν UInt8 :=
  match system.files id with
  | none => system.posix
  | some file => system.posix.closed file.fd

variable (strerror : Nat → String)

def apply (system : PosixSystem ν) : Event → PosixSystem ν
  | .newRWFile fname fd errNumber =>
      system.opening strerror fname (PosixFileSystem.rwFlags true) fd
        errNumber
  | .repenRWFile fname fd errNumber =>
      system.opening strerror fname (PosixFileSystem.rwFlags false) fd
        errNumber
  | .openReadableFile fname fd errNumber =>
      system.opening strerror fname O_RDONLY fd errNumber
  | .append id slice answers =>
      match system.files id with
      | none => system
      | some file =>
          match file.append strerror slice system.posix answers with
          | none => system
          | some (_, posix) => { system with posix }
  | .close id answer =>
      { toFileTable := system.toFileTable.apply strerror (.close id answer)
        posix := system.releasing id }
  | .destroy id answer =>
      { toFileTable := system.toFileTable.apply strerror (.destroy id answer)
        posix := system.releasing id }
  | .removeFile fname answer =>
      match answer with
      | .succeeded =>
          { system with
            posix := system.posix.unlinked (Status.cString fname) }
      | .failed _ => system

theorem apply_append {system : PosixSystem ν} {id : Nat} {slice : Bytes}
    {answers : List WriteAnswer} {file : OpenedFile} {status : Status}
    {posix : Posix.Files ν UInt8} (alive : system.files id = some file)
    (returned : file.append strerror slice system.posix answers =
      some (status, posix)) :
    system.apply strerror (.append id slice answers) =
      { system with posix } := by
  rw [apply, alive]
  simp only [returned]

/-- What an event does to the descriptors. -/
def tableEvent : Event → Option FileTable.Event
  | .newRWFile fname fd errNumber
  | .repenRWFile fname fd errNumber
  | .openReadableFile fname fd errNumber => some (.opening fname fd errNumber)
  | .close id answer => some (.close id answer)
  | .destroy id answer => some (.destroy id answer)
  | .append _ _ _ | .removeFile _ _ => none

/-- A descriptor that is not open for writing is refused. -/
def Refuses (posix : Posix.Files ν UInt8) (fd : Int) (slice : Bytes)
    (answers : List WriteAnswer) : Prop :=
  slice = [] ∨
    (∃ description, posix.descriptions fd = some description ∧
      description.writable = true) ∨
    ∃ rest, answers = .failed EBADF :: rest

/-- What the system promises about its answers. -/
def Permitted (system : PosixSystem ν) (event : Event) : Prop :=
  (∀ tableEvent', tableEvent event = some tableEvent' →
    system.toFileTable.Permitted tableEvent') ∧
  match event with
  | .newRWFile _ _ _ | .repenRWFile _ _ _ => True
  | .openReadableFile fname fd _ =>
      -- a missing file is not created
      fd ≠ -1 →
        NameSpace.lookup system.posix.paths (Status.cString fname) ≠ none
  | .append id slice answers =>
      slice.length < 2 ^ 64 ∧ WriteAnswer.Permitted slice.length answers ∧
      ∃ file, system.files id = some file ∧
        (file.append strerror slice system.posix answers).isSome = true ∧
        Refuses system.posix file.fd slice answers
  | .close _ _ | .destroy _ _ | .removeFile _ _ => True

/-- An explicit `close` does not report an error for an open descriptor. -/
def ClosesWell (system : PosixSystem ν) (event : Event) : Prop :=
  ∀ tableEvent', tableEvent event = some tableEvent' →
    system.toFileTable.ClosesWell tableEvent'

end PosixSystem

end LiteLsm
