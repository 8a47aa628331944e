import LiteLsm.Filesystem.PosixFileSystem

/-!
# Files as logs

What the file system is for: names stand for logs, files are opened for
reading them or for writing at their end.  Descriptors, positions and partial
writes do not occur.

A file from `newRWFile` writes at a position of its own, which is the end of
the log only as long as nobody else writes it.  The system therefore behaves
like the volume as long as such a file is the only one through which its log
is written.
-/

namespace LiteLsm

/-- How a file was opened. -/
inductive Access where
  | readOnly
  | ownPosition
  | atEnd
  deriving DecidableEq, Repr

namespace Access

def flags : Access → Nat
  | readOnly => Posix.O_RDONLY
  | ownPosition => PosixFileSystem.rwFlags true
  | atEnd => PosixFileSystem.rwFlags false

theorem writable_flags (access : Access) (file position : Nat) :
    (Posix.Description.mk file access.flags position).writable =
      decide (access ≠ .readOnly) := by
  have flags : (access.flags &&& 0o3 != Posix.O_RDONLY) =
      decide (access ≠ .readOnly) := by
    cases access <;> decide
  exact flags

theorem appends_flags (access : Access) (file position : Nat) :
    (Posix.Description.mk file access.flags position).appends =
      decide (access = .atEnd) := by
  have flags : (access.flags &&& Posix.O_APPEND != 0) =
      decide (access = .atEnd) := by
    cases access <;> decide
  exact flags

end Access

/-- A file that is open, with the log it stands for. -/
structure Handle extends PosixFile where
  log : Nat
  access : Access

structure Volume (ν : Type) where
  paths : ν
  logs : Nat → Bytes
  handles : Nat → Option Handle
  nextLog : Nat
  nextHandle : Nat

namespace Volume

open PosixSystem (Event)
open Posix (NameSpace)

variable {ν : Type} [NameSpace ν]

def initial (disk : Disk ν) : Volume ν :=
  { paths := disk.paths
    logs := disk.contents
    handles := fun _ => none
    nextLog := disk.nextFile
    nextHandle := 0 }

/-- Open the log of a path; a new file empties it, and every file but one for
reading makes it if it is missing. -/
def opening (volume : Volume ν) (fname : String) (access : Access) :
    Volume ν :=
  match NameSpace.lookup volume.paths (Status.cString fname) with
  | some log =>
      { volume with
        logs :=
          if access = .ownPosition then Function.update volume.logs log []
          else volume.logs
        handles := Function.update volume.handles volume.nextHandle
          (some { fname, log, access })
        nextHandle := volume.nextHandle + 1 }
  | none =>
      { paths := NameSpace.created (Status.cString fname) volume.nextLog
          volume.paths
        logs := Function.update volume.logs volume.nextLog []
        handles := Function.update volume.handles volume.nextHandle
          (some { fname, log := volume.nextLog, access })
        nextLog := volume.nextLog + 1
        nextHandle := volume.nextHandle + 1 }

/-- The file is not used any more. -/
def forget (volume : Volume ν) (id : Nat) : Volume ν :=
  { volume with handles := Function.update volume.handles id none }

variable (strerror : Nat → String)

def apply (volume : Volume ν) : Event → Volume ν
  | .newRWFile fname fd _ =>
      if fd = -1 then volume else volume.opening fname .ownPosition
  | .repenRWFile fname fd _ =>
      if fd = -1 then volume else volume.opening fname .atEnd
  | .openReadableFile fname fd _ =>
      if fd = -1 then volume else volume.opening fname .readOnly
  | .append id slice answers =>
      match volume.handles id with
      | none => volume
      | some handle =>
          match handle.append strerror slice (volume.logs handle.log)
              answers with
          | none => volume
          | some (_, log) =>
              { volume with
                logs := Function.update volume.logs handle.log log }
  | .close id _ | .destroy id _ => volume.forget id
  | .removeFile fname answer =>
      match answer with
      | .succeeded =>
          { volume with
            paths := NameSpace.unlinked (Status.cString fname) volume.paths }
      | .failed _ => volume

theorem apply_append (volume : Volume ν) (id : Nat) (slice : Bytes)
    (answers : List WriteAnswer) :
    ∃ logs, volume.apply strerror (.append id slice answers) =
      { volume with logs } := by
  rw [apply]
  cases volume.handles id with
  | none => exact ⟨volume.logs, rfl⟩
  | some handle =>
      dsimp only
      cases handle.append strerror slice (volume.logs handle.log) answers with
      | none => exact ⟨volume.logs, rfl⟩
      | some outcome => exact ⟨_, rfl⟩

/-- Of two files that write one log, neither has a position of its own. -/
def Admits (volume : Volume ν) (fname : String) (access : Access) : Prop :=
  ∀ id handle, volume.handles id = some handle →
    NameSpace.lookup volume.paths (Status.cString fname) = some handle.log →
      (access = .ownPosition → handle.access = .readOnly) ∧
        (handle.access = .ownPosition → access = .readOnly)

theorem admits_of_unopened {volume : Volume ν}
    (unopened : ∀ id, volume.handles id = none) (fname : String)
    (access : Access) : volume.Admits fname access := by
  intro id handle known
  rw [unopened] at known
  cases known

theorem handles_forget_opening {volume : Volume ν}
    (unopened : ∀ id, volume.handles id = none) (fname : String)
    (access : Access) (id : Nat) :
    ((volume.opening fname access).forget volume.nextHandle).handles id =
      none := by
  by_cases own : id = volume.nextHandle
  · rw [own]
    exact Function.update_self _ _ _
  · refine (Function.update_of_ne own _ _).trans ?_
    rw [opening]
    split <;> exact (Function.update_of_ne own _ _).trans (unopened id)

/-- A file that is opened, written and closed leaves none open. -/
theorem handles_closedAgain {volume : Volume ν}
    (unopened : ∀ id, volume.handles id = none) {fname : String} {fd : Int}
    (succeeded : fd ≠ -1) (errNumber : Nat) (slice : Bytes)
    (answers : List WriteAnswer) (answer : CloseAnswer) (id : Nat) :
    (((volume.apply strerror (.newRWFile fname fd errNumber)).apply strerror
      (.append volume.nextHandle slice answers)).apply strerror
        (.close volume.nextHandle answer)).handles id = none := by
  obtain ⟨logs, written⟩ :=
    (volume.apply strerror (.newRWFile fname fd errNumber)).apply_append
      strerror volume.nextHandle slice answers
  rw [written, apply, apply, if_neg succeeded]
  exact handles_forget_opening unopened fname .ownPosition id

/-- A new file finds no other writer, and a reopened one none with a position
of its own. -/
def Disciplined (volume : Volume ν) : Event → Prop
  | .newRWFile fname fd _ => fd ≠ -1 → volume.Admits fname .ownPosition
  | .repenRWFile fname fd _ => fd ≠ -1 → volume.Admits fname .atEnd
  | _ => True

/-- A log that is written at a position of a file's own has no other
writer. -/
structure Orderly (volume : Volume ν) : Prop where
  soleWriter : ∀ id handle other otherHandle,
    volume.handles id = some handle →
    volume.handles other = some otherHandle → other ≠ id →
    handle.access = .ownPosition → otherHandle.log = handle.log →
      otherHandle.access = .readOnly
  knownPaths : ∀ path log, NameSpace.lookup volume.paths path = some log →
    log < volume.nextLog
  knownHandles : ∀ id handle, volume.handles id = some handle →
    handle.log < volume.nextLog
  futureHandles : ∀ id, volume.nextHandle ≤ id → volume.handles id = none

section Orderly

variable {volume : Volume ν}

theorem orderly_initial (disk : Disk ν) : (initial disk).Orderly where
  soleWriter _ _ _ _ live := by cases live
  knownPaths := disk.known
  knownHandles _ _ live := by cases live
  futureHandles _ _ := rfl

theorem admits_readOnly (volume : Volume ν) (fname : String) :
    volume.Admits fname .readOnly := by
  intro id handle _ _
  exact ⟨fun impossible => (by cases impossible), fun _ => rfl⟩

theorem Orderly.of_fewerHandles (orderly : volume.Orderly) {other : Volume ν}
    (handles : ∀ id handle, other.handles id = some handle →
      volume.handles id = some handle)
    (paths : ∀ path log, NameSpace.lookup other.paths path = some log →
      NameSpace.lookup volume.paths path = some log)
    (nextLog : other.nextLog = volume.nextLog)
    (nextHandle : other.nextHandle = volume.nextHandle) :
    other.Orderly where
  soleWriter id handle another anotherHandle live anotherLive :=
    orderly.soleWriter id handle another anotherHandle (handles _ _ live)
      (handles _ _ anotherLive)
  knownPaths path log known := by
    rw [nextLog]
    exact orderly.knownPaths path log (paths path log known)
  knownHandles id handle live := by
    rw [nextLog]
    exact orderly.knownHandles id handle (handles id handle live)
  futureHandles id future := by
    rw [nextHandle] at future
    have unused := orderly.futureHandles id future
    apply Option.eq_none_iff_forall_ne_some.mpr
    intro handle live
    rw [handles id handle live] at unused
    cases unused

/-- A further handle keeps the volume orderly if it respects the writers of
its log, and they it. -/
private theorem Orderly.of_newHandle (orderly : volume.Orderly)
    {other : Volume ν} {handle : Handle}
    (handles : other.handles =
      Function.update volume.handles volume.nextHandle (some handle))
    (nextHandle : other.nextHandle = volume.nextHandle + 1)
    (knownPaths : ∀ path log, NameSpace.lookup other.paths path = some log →
      log < other.nextLog)
    (grown : volume.nextLog ≤ other.nextLog)
    (knownHandle : handle.log < other.nextLog)
    (admitted : ∀ id earlier, volume.handles id = some earlier →
      earlier.log = handle.log →
        (handle.access = .ownPosition → earlier.access = .readOnly) ∧
          (earlier.access = .ownPosition → handle.access = .readOnly)) :
    other.Orderly where
  soleWriter id first another second live anotherLive different own same := by
    rw [handles] at live anotherLive
    by_cases newest : id = volume.nextHandle
    · rw [newest, Function.update_self] at live
      rw [newest] at different
      rw [Function.update_of_ne different] at anotherLive
      cases live
      exact (admitted another second anotherLive same).1 own
    · rw [Function.update_of_ne newest] at live
      by_cases anotherNewest : another = volume.nextHandle
      · rw [anotherNewest, Function.update_self] at anotherLive
        cases anotherLive
        exact (admitted id first live same.symm).2 own
      · rw [Function.update_of_ne anotherNewest] at anotherLive
        exact orderly.soleWriter id first another second live anotherLive
          different own same
  knownPaths := knownPaths
  knownHandles id found live := by
    rw [handles] at live
    by_cases newest : id = volume.nextHandle
    · rw [newest, Function.update_self] at live
      cases live
      exact knownHandle
    · rw [Function.update_of_ne newest] at live
      exact Nat.lt_of_lt_of_le (orderly.knownHandles id found live) grown
  futureHandles id future := by
    rw [nextHandle] at future
    rw [handles, Function.update_of_ne (by omega)]
    exact orderly.futureHandles id (by omega)

theorem Orderly.opening (orderly : volume.Orderly) {fname : String}
    {access : Access} (admitted : volume.Admits fname access) :
    (volume.opening fname access).Orderly := by
  cases found : NameSpace.lookup volume.paths (Status.cString fname) with
  | some log =>
      simp only [Volume.opening, found]
      refine orderly.of_newHandle rfl rfl orderly.knownPaths (Nat.le_refl _)
        (orderly.knownPaths _ log found) ?_
      intro id earlier live same
      exact admitted id earlier live (by rw [found, same])
  | none =>
      simp only [Volume.opening, found]
      refine orderly.of_newHandle rfl rfl ?_ (Nat.le_succ _)
        (Nat.lt_succ_self _) ?_
      · intro path log known
        rcases NameSpace.of_lookup_created known with rfl | earlier
        · exact Nat.lt_succ_self _
        · exact Nat.lt_succ_of_lt (orderly.knownPaths path log earlier)
      · intro id earlier live same
        have older := orderly.knownHandles id earlier live
        exact absurd same (Nat.ne_of_lt older)

theorem Orderly.step (orderly : volume.Orderly) (event : Event)
    (disciplined : volume.Disciplined event) :
    (volume.apply strerror event).Orderly := by
  have forgotten (id : Nat) : (volume.forget id).Orderly := by
    refine orderly.of_fewerHandles ?_ (fun _ _ known => known) rfl rfl
    intro other handle live
    by_cases same : other = id
    · simp [forget, same] at live
    · simpa [forget, same] using live
  have opening (fname : String) (fd : Int) (access : Access)
      (admitted : fd ≠ -1 → volume.Admits fname access) :
      (if fd = -1 then volume else volume.opening fname access).Orderly := by
    split
    · exact orderly
    · rename_i succeeded
      exact orderly.opening (admitted succeeded)
  cases event with
  | newRWFile fname fd errNumber => exact opening fname fd _ disciplined
  | repenRWFile fname fd errNumber => exact opening fname fd _ disciplined
  | openReadableFile fname fd errNumber =>
      exact opening fname fd _ fun _ => volume.admits_readOnly fname
  | append id slice answers =>
      obtain ⟨logs, written⟩ := volume.apply_append strerror id slice answers
      rw [written]
      exact orderly.of_fewerHandles (fun _ _ live => live)
        (fun _ _ known => known) rfl rfl
  | close id answer => exact forgotten id
  | destroy id answer => exact forgotten id
  | removeFile fname answer =>
      cases answer with
      | failed errNumber => exact orderly
      | succeeded =>
          refine orderly.of_fewerHandles (fun _ _ live => live) ?_ rfl rfl
          intro path log known
          exact NameSpace.of_lookup_unlinked known

end Orderly

end Volume

end LiteLsm
