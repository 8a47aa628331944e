import LiteLsm.Filesystem.Volume

/-!
# The system behaves like the volume

`Represents` relates the two: every live file that has a descriptor stands for
a handle, and where it writes at a position of its own this is the end of the
log.  Each event keeps the relation as long as no explicit `close` reports an
error and files are opened with discipline.
-/

namespace LiteLsm

open Posix (NameSpace)

variable {ν : Type}

/-- A file with a descriptor, and the handle it stands for. -/
structure StandsFor (posix : Posix.Files ν UInt8) (file : OpenedFile)
    (handle : Handle) : Prop where
  named : handle.toPosixFile = file.toPosixFile
  opened : ∃ position,
    posix.descriptions file.fd =
      some { file := handle.log, flags := handle.access.flags, position } ∧
    (handle.access = .ownPosition →
      position = (posix.contents handle.log).length)

structure Represents [NameSpace ν] (system : PosixSystem ν)
    (volume : Volume ν) : Prop where
  sound : system.toFileTable.Sound
  orderly : volume.Orderly
  paths : system.posix.paths = volume.paths
  logs : system.posix.contents = volume.logs
  nextLog : system.posix.nextFile = volume.nextLog
  nextHandle : system.nextFile = volume.nextHandle
  noDescriptor : system.posix.descriptions (-1) = none
  live : ∀ id file, system.files id = some file → file.fd ≠ -1 →
    ∃ handle, volume.handles id = some handle ∧
      StandsFor system.posix file handle
  gone : ∀ id, (∀ file, system.files id = some file → file.fd = -1) →
    volume.handles id = none

theorem StandsFor.frame {before after : Posix.Files ν UInt8} {file : OpenedFile}
    {handle : Handle} (stands : StandsFor before file handle)
    (description : after.descriptions file.fd = before.descriptions file.fd)
    (log : handle.access = .ownPosition →
      after.contents handle.log = before.contents handle.log) :
    StandsFor after file handle := by
  obtain ⟨position, opened, own⟩ := stands.opened
  refine ⟨stands.named, position, description.trans opened, fun access => ?_⟩
  rw [log access]
  exact own access

namespace Represents

variable [NameSpace ν] {strerror : Nat → String} {system : PosixSystem ν}
  {volume : Volume ν}

theorem initial (disk : Disk ν) :
    Represents (PosixSystem.initial disk) (Volume.initial disk) where
  sound := FileTable.sound_initial
  orderly := Volume.orderly_initial disk
  paths := rfl
  logs := rfl
  nextLog := rfl
  nextHandle := rfl
  noDescriptor := rfl
  live _ _ impossible := by cases impossible
  gone _ _ := rfl

/-- What `open` does to the files is what it does to the logs. -/
theorem opened_eq (represents : Represents system volume) (fname : String)
    (access : Access) (fd : Int)
    (found : access = .readOnly →
      NameSpace.lookup system.posix.paths (Status.cString fname) ≠ none) :
    let after := system.posix.opened fd (Status.cString fname) access.flags
    let opened := volume.opening fname access
    after.paths = opened.paths ∧ after.contents = opened.logs ∧
      after.nextFile = opened.nextLog ∧
      opened.nextHandle = volume.nextHandle + 1 ∧
      ∃ log,
        opened.handles = Function.update volume.handles volume.nextHandle
          (some { fname, log, access }) ∧
        after.descriptions = Function.update system.posix.descriptions fd
          (some { file := log, flags := access.flags, position := 0 }) ∧
        (access = .ownPosition → opened.logs log = []) ∧
        ∀ other, opened.logs other ≠ volume.logs other → other = log ∧
          (NameSpace.lookup volume.paths (Status.cString fname) = some log ∧
              access = .ownPosition ∨ log = volume.nextLog) := by
  intro after opened
  have truncates : access.flags &&& Posix.O_TRUNC ≠ 0 ↔
      access = .ownPosition := by
    cases access <;> decide
  have creates : access ≠ .readOnly → access.flags &&& Posix.O_CREAT ≠ 0 := by
    cases access <;> decide
  cases path : NameSpace.lookup volume.paths (Status.cString fname) with
  | some log =>
      have known : NameSpace.lookup system.posix.paths
          (Status.cString fname) = some log := by
        rw [represents.paths, path]
      simp only [after, opened, Posix.Files.opened, Volume.opening, known,
        path, truncates, represents.logs, true_and]
      refine ⟨represents.paths, represents.nextLog, log, rfl, rfl, ?_, ?_⟩
      · intro own
        rw [if_pos own, Function.update_self]
      · intro other changed
        by_cases own : access = .ownPosition
        · rw [if_pos own] at changed
          by_cases same : other = log
          · exact ⟨same, Or.inl ⟨rfl, own⟩⟩
          · rw [Function.update_of_ne same] at changed
            exact absurd rfl changed
        · rw [if_neg own] at changed
          exact absurd rfl changed
  | none =>
      have missing : NameSpace.lookup system.posix.paths
          (Status.cString fname) = none := by
        rw [represents.paths, path]
      have flags := creates fun reading => found reading missing
      simp only [after, opened, Posix.Files.opened, Volume.opening, path,
        if_pos flags, represents.logs, represents.paths, represents.nextLog]
      refine ⟨trivial, trivial, trivial, trivial, volume.nextLog, rfl, rfl, ?_,
        ?_⟩
      · intro _
        rw [Function.update_self]
      · intro other changed
        by_cases same : other = volume.nextLog
        · exact ⟨same, Or.inr rfl⟩
        · rw [Function.update_of_ne same] at changed
          exact absurd rfl changed

theorem opening (represents : Represents system volume) {fname : String}
    {access : Access} {fd : Int} (errNumber : Nat) (succeeded : fd ≠ -1)
    (permitted : system.toFileTable.Permitted (.opening fname fd errNumber))
    (found : access = .readOnly →
      NameSpace.lookup system.posix.paths (Status.cString fname) ≠ none)
    (admitted : volume.Admits fname access) :
    Represents (system.opening strerror fname access.flags fd errNumber)
      (volume.opening fname access) := by
  obtain ⟨paths, logs, nextLog, nextHandle, log, handles, descriptions, empty,
    changed⟩ := represents.opened_eq fname access fd found
  have sound := represents.sound.step strerror (.opening fname fd errNumber)
    permitted trivial
  have orderly := represents.orderly.opening admitted
  rw [PosixSystem.opening, if_neg succeeded]
  rw [FileTable.apply_opening strerror fname succeeded errNumber] at sound ⊢
  constructor
  · exact sound
  · exact orderly
  · exact paths
  · exact logs
  · exact nextLog
  · rw [nextHandle, ← represents.nextHandle]
  · dsimp only
    rw [descriptions, Function.update_of_ne succeeded.symm]
    exact represents.noDescriptor
  · intro id file live hasFd
    dsimp only [FileTable.replace] at live
    by_cases newest : id = system.nextFile
    · rw [if_pos newest] at live
      cases live
      refine ⟨{ fname, log, access }, ?_, rfl, 0, ?_, fun own => ?_⟩
      · rw [handles, newest, represents.nextHandle, Function.update_self]
      · dsimp only
        rw [descriptions, Function.update_self]
      · dsimp only
        rw [logs, empty own]
        rfl
    · rw [if_neg newest] at live
      obtain ⟨handle, known, stands⟩ := represents.live id file live hasFd
      refine ⟨handle, ?_, stands.frame ?_ fun own => ?_⟩
      · rw [handles, Function.update_of_ne (represents.nextHandle ▸ newest)]
        exact known
      · -- the descriptor is new, so it is not the one of this file
        have owner := represents.sound.owned id file live hasFd
        have apart : file.fd ≠ fd := by
          intro same
          rw [same, (permitted succeeded).2] at owner
          cases owner
        dsimp only
        rw [descriptions, Function.update_of_ne apart]
      · dsimp only
        rw [logs, represents.logs]
        apply Decidable.byContradiction
        intro different
        obtain ⟨same, ⟨path, truncated⟩ | fresh⟩ := changed _ different
        · have reading := (admitted id handle known (same ▸ path)).1 truncated
          rw [own] at reading
          cases reading
        · have older := represents.orderly.knownHandles id handle known
          omega
  · intro id closed
    have notNewest : id ≠ system.nextFile := by
      intro newest
      have unopened := closed { fname, fd } (by
        dsimp only [FileTable.replace]
        rw [if_pos newest])
      exact succeeded unopened
    rw [handles, Function.update_of_ne (represents.nextHandle ▸ notNewest)]
    apply represents.gone
    intro file live
    apply closed
    dsimp only [FileTable.replace]
    rw [if_neg notNewest]
    exact live

omit [NameSpace ν] in
theorem atEnd_of_writes {posix : Posix.Files ν UInt8} {handle : Handle}
    (writes : handle.access ≠ .readOnly) {position : Nat}
    (own : handle.access = .ownPosition →
      position = (posix.contents handle.log).length) :
    Posix.AtEnd posix
      { file := handle.log, flags := handle.access.flags, position } := by
  by_cases sole : handle.access = .ownPosition
  · rw [Posix.atEnd_iff_of_not_appends (by
      rw [Access.appends_flags, sole]
      rfl)]
    exact own sole
  · apply Posix.atEnd_of_appends
    rw [Access.appends_flags, decide_eq_true_iff]
    cases access : handle.access with
    | readOnly => exact absurd access writes
    | ownPosition => exact absurd access sole
    | atEnd => rfl

omit [NameSpace ν] in
/-- `append` does to the log what it does to a file that is written at its
end, and nothing else that matters. -/
theorem append_agrees (strerror : Nat → String) {posix : Posix.Files ν UInt8}
    {file : OpenedFile} {handle : Handle} {slice : Bytes}
    {answers : List WriteAnswer}
    (stands : StandsFor posix file handle)
    (refuses : PosixSystem.Refuses posix file.fd slice answers) :
    handle.append strerror slice (posix.contents handle.log) answers =
      (file.append strerror slice posix answers).map
        (fun (status, after) => (status, after.contents handle.log)) ∧
    ∀ status after,
      file.append strerror slice posix answers = some (status, after) →
      after = posix ∨ handle.access ≠ .readOnly ∧
        ∃ description all, description.file = handle.log ∧
          description.flags = handle.access.flags ∧
          Posix.AtEnd posix description ∧
          Posix.Written file.fd description all posix after := by
  obtain ⟨position, opened, own⟩ := stands.opened
  rw [stands.named]
  by_cases refused : slice = [] ∨ ∃ rest, answers = .failed EBADF :: rest
  · obtain ⟨status, through, onList⟩ :=
      file.append_refused strerror refused
    rw [through, onList]
    refine ⟨rfl, fun _ _ returned => Or.inl ?_⟩
    cases returned
    rfl
  · have writes : handle.access ≠ .readOnly := by
      intro reading
      rcases refuses with empty | ⟨description, found, writable⟩ | badDescriptor
      · exact refused (Or.inl empty)
      · rw [opened] at found
        cases found
        rw [Access.writable_flags, reading] at writable
        cases writable
      · exact refused (Or.inr badDescriptor)
    have atEnd := atEnd_of_writes writes own
    obtain ⟨same, effect⟩ := OpenedFile.append_atEnd strerror opened atEnd slice
      answers
    refine ⟨same, fun status after returned => Or.inr ⟨writes, ?_⟩⟩
    obtain ⟨all, written⟩ := effect status after returned
    exact ⟨_, all, rfl, rfl, atEnd, written⟩

omit [NameSpace ν] in
theorem append_closed {posix : Posix.Files ν UInt8} {file : OpenedFile}
    {slice : Bytes} {answers : List WriteAnswer}
    (closed : posix.descriptions file.fd = none)
    (refuses : PosixSystem.Refuses posix file.fd slice answers)
    {status : Status} {after : Posix.Files ν UInt8}
    (returned : file.append strerror slice posix answers =
      some (status, after)) : after = posix := by
  have refused : slice = [] ∨ ∃ rest, answers = .failed EBADF :: rest := by
    rcases refuses with empty | ⟨description, found, -⟩ | badDescriptor
    · exact Or.inl empty
    · rw [closed] at found
      cases found
    · exact Or.inr badDescriptor
  obtain ⟨status, through, -⟩ := file.append_refused strerror refused
  rw [through] at returned
  cases returned
  rfl

/-- A live file that writes has the only position of its own that matters. -/
private theorem frame_other (represents : Represents system volume)
    {id : Nat} {file : OpenedFile} {handle : Handle}
    (alive : system.files id = some file)
    (known : volume.handles id = some handle)
    (writes : handle.access ≠ .readOnly) {after : Posix.Files ν UInt8}
    (descriptions : ∀ fd, fd ≠ file.fd →
      after.descriptions fd = system.posix.descriptions fd)
    (contents : ∀ log, log ≠ handle.log →
      after.contents log = system.posix.contents log)
    {other : Nat} {otherFile : OpenedFile} (different : other ≠ id)
    (otherAlive : system.files other = some otherFile)
    (otherFd : otherFile.fd ≠ -1) :
    ∃ otherHandle, volume.handles other = some otherHandle ∧
      StandsFor after otherFile otherHandle := by
  obtain ⟨otherHandle, otherKnown, stands⟩ :=
    represents.live other otherFile otherAlive otherFd
  refine ⟨otherHandle, otherKnown, stands.frame (descriptions _ ?_)
    fun own => contents _ ?_⟩
  · intro same
    exact different (represents.sound.owned.exclusive otherAlive alive otherFd
      same)
  · intro same
    exact writes (represents.orderly.soleWriter other otherHandle id handle
      otherKnown known different.symm own same.symm)

theorem append (represents : Represents system volume) {id : Nat}
    {slice : Bytes} {answers : List WriteAnswer}
    (permitted :
      system.Permitted strerror (.append id slice answers)) :
    Represents (system.apply strerror (.append id slice answers))
      (volume.apply strerror (.append id slice answers)) := by
  obtain ⟨-, -, -, file, alive, returns, refuses⟩ := permitted
  obtain ⟨⟨status, after⟩, returned⟩ := Option.isSome_iff_exists.mp returns
  have orderly := represents.orderly.step strerror (.append id slice answers)
    trivial
  rw [PosixSystem.apply_append strerror alive returned]
  rw [Volume.apply] at orderly ⊢
  by_cases hasFd : file.fd = -1
  · have noHandle : volume.handles id = none := by
      apply represents.gone
      intro other otherAlive
      rw [alive] at otherAlive
      cases otherAlive
      exact hasFd
    have unchanged := append_closed
      (by rw [hasFd]; exact represents.noDescriptor) refuses returned
    rw [noHandle, unchanged]
    exact represents
  · obtain ⟨handle, known, stands⟩ := represents.live id file alive hasFd
    obtain ⟨same, effect⟩ := append_agrees strerror stands refuses
    rw [represents.logs, returned, Option.map_some] at same
    simp only [known, same] at orderly ⊢
    rcases effect status after returned with unchanged |
      ⟨writes, description, all, log, flags, atEnd, written⟩
    · rw [unchanged, represents.logs, Function.update_eq_self]
      exact represents
    · have contents (log : Nat) (apart : log ≠ handle.log) :
          after.contents log = system.posix.contents log := by
        rw [written.contents, Function.update_of_ne (by omega)]
      constructor
      · exact represents.sound
      · exact orderly
      · exact written.paths.trans represents.paths
      · dsimp only
        rw [written.contents, log, Function.update_self, represents.logs]
      · exact written.nextFile.trans represents.nextLog
      · exact represents.nextHandle
      · exact (written.others (-1) (Ne.symm hasFd)).trans
          represents.noDescriptor
      · intro other otherFile otherAlive otherFd
        by_cases this : other = id
        · subst this
          rw [alive] at otherAlive
          cases otherAlive
          obtain ⟨position, opened, stays⟩ := written.own_atEnd atEnd
          refine ⟨handle, known, stands.named, position, ?_, fun own => ?_⟩
          · rw [opened, log, flags]
          · rw [Posix.atEnd_iff_of_not_appends] at stays
            · rw [← log]
              exact stays
            · rw [flags, Access.appends_flags, own]
              rfl
        · exact frame_other represents alive known writes
            written.others contents this otherAlive otherFd
      · exact represents.gone

/-- A descriptor is released, and its file forgets it or is destroyed. -/
private theorem releasing (represents : Represents system volume) {id : Nat}
    {file : OpenedFile} (alive : system.files id = some file)
    {table : FileTable} (sound : table.Sound)
    (nextFile : table.nextFile = system.nextFile)
    (others : ∀ other, other ≠ id → table.files other = system.files other)
    (released : ∀ now, table.files id = some now → now.fd = -1) :
    Represents { toFileTable := table, posix := system.posix.closed file.fd }
      (volume.forget id) where
  sound := sound
  orderly := represents.orderly.step (fun _ => "") (.destroy id .closed)
    trivial
  paths := represents.paths
  logs := represents.logs
  nextLog := represents.nextLog
  nextHandle := nextFile.trans represents.nextHandle
  noDescriptor := by
    dsimp only [Posix.Files.closed]
    by_cases without : -1 = file.fd
    · rw [without, Function.update_self]
    · rw [Function.update_of_ne without]
      exact represents.noDescriptor
  live other otherFile otherAlive otherFd := by
    dsimp only at otherAlive
    have different : other ≠ id := by
      intro same
      exact otherFd (released otherFile (same ▸ otherAlive))
    rw [others other different] at otherAlive
    obtain ⟨handle, known, stands⟩ :=
      represents.live other otherFile otherAlive otherFd
    refine ⟨handle, ?_, stands.frame ?_ fun _ => rfl⟩
    · dsimp only [Volume.forget]
      rw [Function.update_of_ne different]
      exact known
    · apply Function.update_of_ne
      intro same
      exact different (represents.sound.owned.exclusive otherAlive alive
        otherFd same)
  gone other closed := by
    dsimp only [Volume.forget] at closed ⊢
    by_cases same : other = id
    · rw [same, Function.update_self]
    · rw [Function.update_of_ne same]
      apply represents.gone
      rwa [others other same] at closed

theorem close (represents : Represents system volume) {id : Nat}
    {answer : CloseAnswer}
    (permitted : system.toFileTable.Permitted (.close id answer))
    (closesWell : system.toFileTable.ClosesWell (.close id answer)) :
    Represents (system.apply strerror (.close id answer))
      (volume.forget id) := by
  obtain ⟨file, alive, opened⟩ := permitted
  have sound := represents.sound.step strerror (.close id answer)
    ⟨file, alive, opened⟩ closesWell
  rw [PosixSystem.apply, PosixSystem.releasing]
  rw [FileTable.apply, alive] at sound ⊢
  apply represents.releasing alive sound rfl
  · intro other different
    exact if_neg different
  · intro now found
    dsimp only [FileTable.replace] at found
    rw [if_pos rfl] at found
    cases found
    cases answer with
    | closed => rfl
    | failed errNumber => exact closesWell file alive

theorem destroy (represents : Represents system volume) {id : Nat}
    {answer : CloseAnswer}
    (permitted : system.toFileTable.Permitted (.destroy id answer)) :
    Represents (system.apply strerror (.destroy id answer))
      (volume.forget id) := by
  obtain ⟨file, alive, opened⟩ := permitted
  have sound := represents.sound.step strerror (.destroy id answer)
    ⟨file, alive, opened⟩ trivial
  rw [PosixSystem.apply, PosixSystem.releasing]
  rw [FileTable.apply, alive] at sound ⊢
  apply represents.releasing alive sound rfl
  · intro other different
    exact if_neg different
  · intro now found
    dsimp only [FileTable.replace] at found
    rw [if_pos rfl] at found
    cases found

theorem removeFile (represents : Represents system volume) (fname : String)
    (answer : CallAnswer) :
    Represents (system.apply strerror (.removeFile fname answer))
      (volume.apply strerror (.removeFile fname answer)) := by
  have orderly := represents.orderly.step strerror (.removeFile fname answer)
    trivial
  cases answer with
  | failed errNumber => exact represents
  | succeeded =>
      constructor
      · exact represents.sound
      · exact orderly
      · dsimp only [PosixSystem.apply, Volume.apply, Posix.Files.unlinked]
        rw [represents.paths]
      · exact represents.logs
      · exact represents.nextLog
      · exact represents.nextHandle
      · exact represents.noDescriptor
      · intro id file alive hasFd
        obtain ⟨handle, known, stands⟩ := represents.live id file alive hasFd
        exact ⟨handle, known, stands.frame rfl fun _ => rfl⟩
      · exact represents.gone

/-- An attempt to open a file, successful or not. -/
private theorem attempt (represents : Represents system volume)
    {fname : String} {access : Access} {fd : Int} (errNumber : Nat)
    (permitted : system.toFileTable.Permitted (.opening fname fd errNumber))
    (found : access = .readOnly → fd ≠ -1 →
      NameSpace.lookup system.posix.paths (Status.cString fname) ≠ none)
    (admitted : fd ≠ -1 → volume.Admits fname access) :
    Represents (system.opening strerror fname access.flags fd errNumber)
      (if fd = -1 then volume else volume.opening fname access) := by
  by_cases failed : fd = -1
  · rw [if_pos failed, PosixSystem.opening, if_pos failed, failed,
      FileTable.apply_opening_failed]
    exact represents
  · rw [if_neg failed]
    exact represents.opening errNumber failed permitted
      (fun reading => found reading failed) (admitted failed)

theorem step (represents : Represents system volume)
    (event : PosixSystem.Event)
    (permitted : system.Permitted strerror event)
    (closesWell : system.ClosesWell event)
    (disciplined : volume.Disciplined event) :
    Represents (system.apply strerror event)
      (volume.apply strerror event) := by
  have table := permitted.1
  cases event with
  | newRWFile fname fd errNumber =>
      have found : Access.ownPosition = .readOnly → fd ≠ -1 →
          NameSpace.lookup system.posix.paths (Status.cString fname) ≠
            none := by
        intro impossible
        cases impossible
      exact represents.attempt errNumber (table _ rfl) found disciplined
  | repenRWFile fname fd errNumber =>
      have found : Access.atEnd = .readOnly → fd ≠ -1 →
          NameSpace.lookup system.posix.paths (Status.cString fname) ≠
            none := by
        intro impossible
        cases impossible
      exact represents.attempt errNumber (table _ rfl) found disciplined
  | openReadableFile fname fd errNumber =>
      exact represents.attempt errNumber (table _ rfl)
        (fun _ => permitted.2) fun _ => volume.admits_readOnly fname
  | append id slice answers => exact represents.append permitted
  | close id answer =>
      exact represents.close (table _ rfl) (closesWell _ rfl)
  | destroy id answer => exact represents.destroy (table _ rfl)
  | removeFile fname answer => exact represents.removeFile fname answer

end Represents

namespace PosixSystem

variable [NameSpace ν] (strerror : Nat → String)

/-- The system answers as it promises to, and no explicit `close` of an open
file reports an error. -/
def Regular (system : PosixSystem ν) (event : Event) : Prop :=
  system.Permitted strerror event ∧ system.ClosesWell event

section Regular

variable {strerror} {system : PosixSystem ν}

theorem regular_newRWFile {fname : String} {fd : Int} {errNumber : Nat}
    (free : 0 ≤ fd ∧ system.openedFor fd = none) :
    Regular strerror system (.newRWFile fname fd errNumber) := by
  refine ⟨⟨?_, trivial⟩, ?_⟩
  · rintro _ ⟨⟩
    exact fun _ => free
  · rintro _ ⟨⟩
    trivial

theorem regular_repenRWFile {fname : String} {fd : Int} {errNumber : Nat}
    (free : 0 ≤ fd ∧ system.openedFor fd = none) :
    Regular strerror system (.repenRWFile fname fd errNumber) := by
  refine ⟨⟨?_, trivial⟩, ?_⟩
  · rintro _ ⟨⟩
    exact fun _ => free
  · rintro _ ⟨⟩
    trivial

theorem regular_append {id : Nat} {slice : Bytes}
    {answers : List WriteAnswer} {file : OpenedFile}
    {description : Posix.Description}
    (short : slice.length < 2 ^ 64)
    (answered : WriteAnswer.Permitted slice.length answers)
    (alive : system.files id = some file)
    (opened : system.posix.descriptions file.fd = some description)
    (writable : description.writable = true)
    (returns :
      (file.append strerror slice system.posix answers).isSome = true) :
    Regular strerror system (.append id slice answers) := by
  refine ⟨⟨?_, short, answered, file, alive, returns,
    Or.inr (Or.inl ⟨description, opened, writable⟩)⟩, ?_⟩
  · rintro _ ⟨⟩
  · rintro _ ⟨⟩

theorem regular_close {id : Nat} {file : OpenedFile}
    (alive : system.files id = some file)
    (opened : system.openedFor file.fd ≠ none) :
    Regular strerror system (.close id .closed) := by
  refine ⟨⟨?_, trivial⟩, ?_⟩
  · rintro _ ⟨⟩
    exact ⟨file, alive, fun _ => opened⟩
  · rintro _ ⟨⟩
    trivial

end Regular

theorem represents_final (disk : Disk ν) {events : List Event}
    (regular : Runs.Throughout (apply strerror) (Regular strerror)
      (initial disk) events)
    (disciplined : Runs.Throughout (Volume.apply strerror)
      Volume.Disciplined (Volume.initial disk) events) :
    Represents (Runs.final (apply strerror) (initial disk) events)
      (Runs.final (Volume.apply strerror) (Volume.initial disk) events) :=
  Runs.final_related Represents
    (fun _ _ event represents regular disciplined =>
      represents.step event regular.1 regular.2 disciplined)
    (Represents.initial disk) regular disciplined

/-- In a run of any number of files, paths and their contents are those of the
volume, and each file that is open reads the log of its handle and appends to
it. -/
theorem behaves_like_volume (disk : Disk ν) {events : List Event}
    (regular : Runs.Throughout (apply strerror) (Regular strerror)
      (initial disk) events)
    (disciplined : Runs.Throughout (Volume.apply strerror)
      Volume.Disciplined (Volume.initial disk) events) :
    let system := Runs.final (apply strerror) (initial disk) events
    let volume :=
      Runs.final (Volume.apply strerror) (Volume.initial disk) events
    system.posix.paths = volume.paths ∧
    system.posix.contents = volume.logs ∧
    ∀ id file, system.files id = some file → file.fd ≠ -1 →
      ∃ handle, volume.handles id = some handle ∧
        (system.posix.descriptions file.fd).map (·.file) = some handle.log ∧
        ∀ slice answers, Refuses system.posix file.fd slice answers →
          handle.append strerror slice (volume.logs handle.log) answers =
            (file.append strerror slice system.posix answers).map
              (fun (status, after) =>
                (status, after.contents handle.log)) := by
  intro system volume
  have represents : Represents system volume :=
    represents_final strerror disk regular disciplined
  refine ⟨represents.paths, represents.logs, ?_⟩
  intro id file alive hasFd
  obtain ⟨handle, known, stands⟩ := represents.live id file alive hasFd
  obtain ⟨position, opened, -⟩ := stands.opened
  refine ⟨handle, known, by rw [opened]; rfl, ?_⟩
  intro slice answers refuses
  rw [← represents.logs]
  exact (Represents.append_agrees strerror stands refuses).1

/-- A file is written, closed, opened again under another spelling of its path
and written further. -/
def reopened : List Event :=
  [.newRWFile "log" 3 0, .append 0 [1, 2] [.wrote 1, .failed EINTR, .wrote 1],
    .close 0 .closed, .repenRWFile "./log" 3 0, .append 1 [3] [.wrote 1]]

theorem behaves_like_volume_reopened :
    (Runs.final (apply fun _ => "") (initial Disk.empty)
        reopened).posix.contents 0 = [1, 2, 3] := by
  have regular : Runs.Throughout (apply fun _ => "") (Regular fun _ => "")
      (initial Disk.empty) reopened := by
    refine ⟨regular_newRWFile ⟨by decide, rfl⟩,
      regular_append (by decide) ?_ rfl rfl (by decide) (by decide),
      regular_close rfl (by decide),
      regular_repenRWFile ⟨by decide, rfl⟩,
      regular_append (by decide) ?_ rfl rfl (by decide) (by decide), trivial⟩
    · simp [WriteAnswer.Permitted, EINTR]
    · simp [WriteAnswer.Permitted]
  have disciplined : Runs.Throughout (Volume.apply fun _ => "")
      Volume.Disciplined (Volume.initial Disk.empty) reopened := by
    exact ⟨fun _ => Volume.admits_of_unopened (fun _ => rfl) _ _, trivial,
      trivial,
      fun _ => Volume.admits_of_unopened
        (Volume.handles_closedAgain _ (fun _ => rfl) (by decide) 0 _ _ _) _ _,
      trivial, trivial⟩
  rw [(behaves_like_volume (fun _ => "") Disk.empty regular disciplined).2.1]
  decide

/-- Without discipline the first file writes where its position was before the
second one, under another spelling, emptied the log. -/
example : (Runs.final (apply fun _ => "") (initial Disk.empty)
    [.newRWFile "log" 3 0, .append 0 [1, 2] [.wrote 2],
      .newRWFile "./log" 4 0, .append 0 [3] [.wrote 1]]).posix.contents 0 =
        [0, 0, 3] := by
  decide

end PosixSystem

end LiteLsm
