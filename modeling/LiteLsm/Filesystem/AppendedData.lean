import LiteLsm.Filesystem.PosixFileRead
import LiteLsm.Filesystem.VolumeRefinement
import Mathlib.Data.List.Infix

/-!
# What was appended stays

A log grows until a new file empties it.  A slice that was appended with
success therefore stays where it was put, whatever is opened, written, closed
or removed afterwards.
-/

namespace LiteLsm

namespace PosixFile

variable {strerror : Nat → String} {file : PosixFile}

theorem prefix_appendLoop {slice contents now : Bytes}
    {answers : List WriteAnswer} {left src : Nat} {status : Status}
    (returned : file.appendLoop strerror slice answers left src contents =
      some (status, now)) :
    contents <+: now := by
  induction answers generalizing contents left src with
  | nil =>
      rw [appendLoop] at returned
      split at returned
      · cases returned
      · cases returned
        exact List.prefix_refl _
  | cons answer answers induction =>
      rw [appendLoop.eq_def] at returned
      split at returned
      · cases answer with
        | failed errNumber =>
            simp only at returned
            split at returned
            · exact induction returned
            · cases returned
              exact List.prefix_refl _
        | wrote done =>
            exact (List.prefix_append contents _).trans (induction returned)
      · cases returned
        exact List.prefix_refl _

end PosixFile

namespace Volume

open PosixSystem (Event)
open Posix (NameSpace)

variable {ν : Type} [NameSpace ν] (strerror : Nat → String)
  {volume : Volume ν}

theorem opening_grows {log : Nat} (known : log < volume.nextLog)
    {fname : String} {access : Access}
    (kept : access = .ownPosition →
      NameSpace.lookup volume.paths (Status.cString fname) ≠ some log) :
    volume.logs log <+: (volume.opening fname access).logs log ∧
      log < (volume.opening fname access).nextLog := by
  cases found : NameSpace.lookup volume.paths (Status.cString fname) with
  | none =>
      simp only [Volume.opening, found]
      rw [Function.update_of_ne (Nat.ne_of_lt known)]
      exact ⟨List.prefix_refl _, Nat.lt_succ_of_lt known⟩
  | some other =>
      simp only [Volume.opening, found]
      refine ⟨?_, known⟩
      by_cases own : access = .ownPosition
      · have apart : log ≠ other := by
          intro same
          exact kept own (same ▸ found)
        rw [if_pos own, Function.update_of_ne apart]
      · rw [if_neg own]

theorem attempt_grows {log : Nat} (known : log < volume.nextLog)
    {fname : String} {fd : Int} {access : Access}
    (kept : fd ≠ -1 → access = .ownPosition →
      NameSpace.lookup volume.paths (Status.cString fname) ≠ some log) :
    let after := if fd = -1 then volume else volume.opening fname access
    volume.logs log <+: after.logs log ∧ log < after.nextLog := by
  by_cases failed : fd = -1
  · rw [if_pos failed]
    exact ⟨List.prefix_refl _, known⟩
  · rw [if_neg failed]
    exact volume.opening_grows known (kept failed)

/-- A step that does not empty a log only adds to it. -/
theorem log_grows {log : Nat} (known : log < volume.nextLog)
    (event : Event)
    (kept : ∀ fname fd errNumber, event = .newRWFile fname fd errNumber →
      fd ≠ -1 →
        NameSpace.lookup volume.paths (Status.cString fname) ≠ some log) :
    volume.logs log <+: (volume.apply strerror event).logs log ∧
      log < (volume.apply strerror event).nextLog := by
  cases event with
  | newRWFile fname fd errNumber =>
      exact attempt_grows known fun succeeded _ =>
        kept fname fd errNumber rfl succeeded
  | repenRWFile fname fd errNumber =>
      exact attempt_grows known fun _ impossible => by cases impossible
  | openReadableFile fname fd errNumber =>
      exact attempt_grows known fun _ impossible => by cases impossible
  | append id slice answers =>
      rw [apply]
      cases volume.handles id with
      | none => exact ⟨List.prefix_refl _, known⟩
      | some handle =>
          dsimp only
          cases returned : handle.append strerror slice
              (volume.logs handle.log) answers with
          | none => exact ⟨List.prefix_refl _, known⟩
          | some outcome =>
              refine ⟨?_, known⟩
              dsimp only
              by_cases same : log = handle.log
              · rw [same, Function.update_self]
                exact PosixFile.prefix_appendLoop returned
              · rw [Function.update_of_ne same]
  | close id answer => exact ⟨List.prefix_refl _, known⟩
  | destroy id answer => exact ⟨List.prefix_refl _, known⟩
  | removeFile fname answer =>
      cases answer <;> exact ⟨List.prefix_refl _, known⟩

end Volume

namespace PosixSystem

open Posix (NameSpace)

variable {ν : Type} [NameSpace ν] (strerror : Nat → String)

/-- The file is not opened as a new one. -/
def Keeps (number : Nat) (system : PosixSystem ν) : Event → Prop
  | .newRWFile fname fd _ =>
      fd ≠ -1 →
        NameSpace.lookup system.posix.paths (Status.cString fname) ≠
          some number
  | _ => True

theorem contents_grow {system : PosixSystem ν} {volume : Volume ν}
    (represents : Represents system volume) {number : Nat}
    (known : number < system.posix.nextFile) {events : List Event}
    (regular : Runs.Throughout (apply strerror) (Regular strerror) system
      events)
    (disciplined : Runs.Throughout (Volume.apply strerror)
      Volume.Disciplined volume events)
    (kept : Runs.Throughout (apply strerror) (Keeps number) system events) :
    system.posix.contents number <+:
      (Runs.final (apply strerror) system events).posix.contents number := by
  have related := Runs.final_related
    (fun now (logs : Volume ν) => Represents now logs ∧
      number < logs.nextLog ∧
      system.posix.contents number <+: logs.logs number)
    (fun now logs event holds property condition => by
      obtain ⟨represents, known, grown⟩ := holds
      obtain ⟨⟨permitted, closesWell⟩, kept⟩ := property
      obtain ⟨grows, still⟩ := logs.log_grows strerror known event (by
        rintro fname fd errNumber rfl succeeded
        rw [← represents.paths]
        exact kept succeeded)
      exact ⟨represents.step event permitted closesWell condition, still,
        grown.trans grows⟩)
    ⟨represents, by rw [← represents.nextLog]; exact known,
      by rw [represents.logs]⟩
    (Runs.throughout_and regular kept) disciplined
  rw [related.1.logs]
  exact related.2.2

/-- A run in which a slice is appended with success, to a file that is kept
from then on. -/
structure KeptAppend (disk : Disk ν) where
  before : List Event
  id : Nat
  slice : Bytes
  answers : List WriteAnswer
  later : List Event
  regular : Runs.Throughout (apply strerror) (Regular strerror) (initial disk)
    (before ++ .append id slice answers :: later)
  disciplined : Runs.Throughout (Volume.apply strerror) Volume.Disciplined
    (Volume.initial disk) (before ++ .append id slice answers :: later)
  file : OpenedFile
  alive :
    (Runs.final (apply strerror) (initial disk) before).files id = some file
  description : Posix.Description
  opened : (Runs.final (apply strerror) (initial disk)
    before).posix.descriptions file.fd = some description
  status : Status
  after : Posix.Files ν UInt8
  returned : file.append strerror slice
    (Runs.final (apply strerror) (initial disk) before).posix answers =
      some (status, after)
  ok : status.ok = true
  kept : Runs.Throughout (apply strerror) (Keeps description.file)
    { Runs.final (apply strerror) (initial disk) before with posix := after }
    later

namespace KeptAppend

variable {strerror} {disk : Disk ν} (run : KeptAppend strerror disk)

/-- What the file holds before the slice is appended. -/
def earlier : Bytes :=
  (Runs.final (apply strerror) (initial disk) run.before).posix.contents
    run.description.file

/-- What the file holds at the end of the run. -/
def contents : Bytes :=
  (Runs.final (apply strerror) (initial disk)
    (run.before ++ .append run.id run.slice run.answers ::
      run.later)).posix.contents run.description.file

def offset : Nat :=
  run.earlier.length

/-- The slice stands behind what the file held, and the run goes on. -/
theorem appended :
    run.after.contents run.description.file = run.earlier ++ run.slice ∧
      run.description.file < run.after.nextFile ∧
      ∃ volume,
        Represents
          { Runs.final (apply strerror) (initial disk) run.before with
            posix := run.after } volume ∧
        Runs.Throughout (Volume.apply strerror) Volume.Disciplined volume
          run.later := by
  obtain ⟨regularBefore, regularHere, -⟩ :=
    Runs.throughout_append.mp run.regular
  obtain ⟨disciplinedBefore, disciplinedHere, disciplinedLater⟩ :=
    Runs.throughout_append.mp run.disciplined
  have represents := represents_final strerror disk regularBefore
    disciplinedBefore
  have next := represents.step (.append run.id run.slice run.answers)
    regularHere.1 regularHere.2 disciplinedHere
  rw [apply_append strerror run.alive run.returned] at next
  have hasFd : run.file.fd ≠ -1 := by
    intro without
    have opened := run.opened
    rw [without, represents.noDescriptor] at opened
    cases opened
  obtain ⟨handle, known, stands⟩ :=
    represents.live run.id run.file run.alive hasFd
  obtain ⟨position, own, -⟩ := stands.opened
  have number : run.description.file = handle.log := by
    rw [run.opened] at own
    rw [Option.some.inj own]
  obtain ⟨-, short, answered, other, otherAlive, -, refuses⟩ := regularHere.1
  have same : other = run.file := by
    rw [run.alive] at otherAlive
    exact (Option.some.inj otherAlive).symm
  have agrees := (Represents.append_agrees strerror stands
    (same ▸ refuses)).1
  rw [run.returned, Option.map_some] at agrees
  have whole := PosixFile.append_ok short answered agrees run.ok
  have older := next.orderly.knownHandles run.id handle (by
    rw [Volume.apply, known]
    dsimp only
    split <;> exact known)
  rw [← next.nextLog] at older
  refine ⟨?_, number ▸ older, _, next, disciplinedLater⟩
  rw [earlier, number, whole]

theorem grows : run.earlier ++ run.slice <+: run.contents := by
  obtain ⟨appended, known, volume, represents, disciplined⟩ := run.appended
  have effect := apply_append strerror run.alive run.returned
  obtain ⟨-, -, regular⟩ := Runs.throughout_append.mp run.regular
  rw [effect] at regular
  have grown := contents_grow strerror represents known regular disciplined
    run.kept
  have final : Runs.final (apply strerror) (initial disk)
      (run.before ++ .append run.id run.slice run.answers :: run.later) =
        Runs.final (apply strerror)
          { Runs.final (apply strerror) (initial disk) run.before with
            posix := run.after } run.later := by
    rw [Runs.final_append, ← effect]
    rfl
  rw [contents, final, ← appended]
  exact grown

theorem length_le : run.offset + run.slice.length ≤ run.contents.length := by
  have bound := run.grows.length_le
  rwa [List.length_append] at bound

theorem requested_eq :
    PosixFile.requested run.contents run.offset run.slice.length =
      run.slice := by
  obtain ⟨rest, whole⟩ := run.grows
  rw [← whole, PosixFile.requested, offset, List.append_assoc, List.drop_left,
    List.take_left]

end KeptAppend

/-- A slice is written to a new file in one piece.  The file is closed, opened
again under another spelling of its path, and written further. -/
def keptAtOnce (slice : Bytes) (short : slice.length < 2 ^ 64)
    (nonempty : slice ≠ []) : KeptAppend (fun _ => "") Disk.empty where
  before := [.newRWFile "log" 3 0]
  id := 0
  slice
  answers := [.wrote slice.length]
  later :=
    [.close 0 .closed, .repenRWFile "./log" 3 0, .append 1 [9] [.wrote 1]]
  regular := by
    have effect := apply_append (fun _ => "")
      (show (apply (fun _ => "") (initial Disk.empty)
        (.newRWFile "log" 3 0)).files 0 = some ⟨⟨"log"⟩, 3⟩ from rfl)
      (OpenedFile.append_atOnce _ _ short nonempty _)
    refine ⟨regular_newRWFile ⟨by decide, rfl⟩,
      regular_append short ?_ rfl rfl (by decide) ?_, ?_⟩
    · intro _
      exact ⟨List.length_pos_iff.mpr nonempty, Nat.le_refl _, trivial⟩
    · rw [OpenedFile.append_atOnce _ _ short nonempty]
      rfl
    · rw [effect]
      exact ⟨regular_close rfl (Option.some_ne_none 0),
        regular_repenRWFile ⟨by decide, rfl⟩,
        regular_append (by decide) (by simp [WriteAnswer.Permitted]) rfl rfl
          (by decide) rfl, trivial⟩
  disciplined :=
    ⟨fun _ => Volume.admits_of_unopened (fun _ => rfl) _ _, trivial, trivial,
      fun _ => Volume.admits_of_unopened
        (Volume.handles_closedAgain _ (fun _ => rfl) (by decide) 0 _ _ _) _ _,
      trivial, trivial⟩
  file := { fname := "log", fd := 3 }
  alive := rfl
  description :=
    { file := 0, flags := PosixFileSystem.rwFlags true, position := 0 }
  opened := rfl
  status := .okStatus
  after := _
  returned := OpenedFile.append_atOnce _ _ short nonempty _
  ok := rfl
  kept := ⟨trivial, trivial, trivial, trivial⟩

theorem contents_keptAtOnce (slice : Bytes) (short : slice.length < 2 ^ 64)
    (nonempty : slice ≠ []) :
    (keptAtOnce slice short nonempty).contents = slice ++ [9] := by
  let run := keptAtOnce slice short nonempty
  have written := apply_append (fun _ => "") run.alive run.returned
  have first : Posix.overwrite [] 0 slice = slice :=
    Posix.overwrite_length [] slice
  calc
    run.contents = (Runs.final (apply fun _ => "")
        (apply (fun _ => "") (Runs.final (apply fun _ => "")
          (initial Disk.empty) run.before)
            (.append run.id run.slice run.answers))
        run.later).posix.contents 0 := rfl
    _ = Posix.overwrite (Posix.overwrite [] 0 slice)
        (Posix.overwrite [] 0 slice).length [9] := by
      rw [written]
      rfl
    _ = slice ++ [9] := by
      rw [first, Posix.overwrite_length]

end PosixSystem

end LiteLsm
