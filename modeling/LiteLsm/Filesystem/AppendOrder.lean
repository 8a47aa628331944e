import LiteLsm.Filesystem.ConcurrentAppends
import LiteLsm.Filesystem.VolumeRefinement

/-!
# The order of appends

If the system never writes short, concurrent calls of `append` leave their
slices whole, one after the other.  In every state that a run of the file
system reaches, calls on any of the files that are open for writing may be
concurrent.
-/

namespace LiteLsm

namespace AppendRequests

variable {ν ι : Type} [DecidableEq ι] {requests : AppendRequests ν ι}

/-- A `write` that succeeds takes all that is left. -/
def Complete (state : ConcurrentAppends ν ι) (event : ι × WriteAnswer) : Prop :=
  ∀ done, event.2 = .wrote done → done = (state.calls event.1).left

/-- The slices of some of the calls are written, and of no other, one after
the other. -/
structure WrittenInOrder (requests : AppendRequests ν ι)
    (state : ConcurrentAppends ν ι) (order : List ι) : Prop where
  nodup : order.Nodup
  written : ∀ caller, (state.calls caller).written =
    if caller ∈ order then requests.slice caller else []
  contents : ∀ number, state.posix.contents number =
    requests.posix.contents number ++
      (order.filter fun caller =>
        (requests.description caller).file = number).flatMap requests.slice

namespace WrittenInOrder

variable {state after : ConcurrentAppends ν ι} {order : List ι} {caller : ι}
  (inOrder : WrittenInOrder requests state order)

theorem begin : WrittenInOrder requests requests.begin [] where
  nodup := List.nodup_nil
  written _ := AppendCall.written_enter _ _
  contents _ := (List.append_nil _).symm

include inOrder in
theorem nothing (advanced : Advanced requests state after caller []) :
    WrittenInOrder requests after order where
  nodup := inOrder.nodup
  written other := by
    rw [← inOrder.written other]
    by_cases same : other = caller
    · rw [same, advanced.written_self, List.append_nil]
    · exact advanced.written_of_ne same
  contents number := by
    rw [advanced.contents_eq, ite_self, List.append_nil, inOrder.contents]

include inOrder in
theorem piece_eq (balanced : (state.calls caller).Balanced
      (requests.file caller) (requests.slice caller))
    (running : (state.calls caller).returned = none) :
    caller ∉ order ∧ ((requests.slice caller).drop
      (state.calls caller).src).take (state.calls caller).left =
        requests.slice caller := by
  have more := balanced.running running
  have outside : caller ∉ order := by
    intro inside
    have written := inOrder.written caller
    rw [if_pos inside] at written
    exact more (balanced.written_eq_iff.mp written)
  have nothing := inOrder.written caller
  rw [if_neg outside, AppendCall.written, balanced.sameSlice] at nothing
  have balance := balanced.balance
  have rest : (state.calls caller).left =
      ((requests.slice caller).drop (state.calls caller).src).length := by
    rw [List.length_drop]
    omega
  refine ⟨outside, ?_⟩
  rw [rest, List.take_length]
  exact (List.nil_append _).symm.trans
    (nothing ▸ List.take_append_drop (state.calls caller).src _)

include inOrder in
theorem whole (outside : caller ∉ order)
    (advanced : Advanced requests state after caller
      (requests.slice caller)) :
    WrittenInOrder requests after (order ++ [caller]) where
  nodup := by
    rw [← List.concat_eq_append]
    exact inOrder.nodup.concat outside
  written other := by
    by_cases same : other = caller
    · have nothing := inOrder.written caller
      rw [if_neg outside] at nothing
      rw [same, advanced.written_self, nothing, if_pos (by simp)]
      rfl
    · rw [advanced.written_of_ne same, inOrder.written other]
      simp only [List.mem_append, List.mem_singleton, same, or_false]
  contents number := by
    rw [advanced.contents_eq, inOrder.contents, List.append_assoc,
      List.filter_append, List.flatMap_append]
    by_cases own : (requests.description caller).file = number
    · simp [own]
    · simp [own]

end WrittenInOrder

/-- If no write is short, the slices stay whole: those of the calls that
succeed stand behind the old contents in one order, and nothing else does. -/
theorem appends_whole (strerror : Nat → String)
    (requests : AppendRequests ν ι) (disciplined : requests.Disciplined)
    {events : List (ι × WriteAnswer)}
    (permitted : Runs.Throughout (ConcurrentAppends.apply strerror)
      ConcurrentAppends.Permitted requests.begin events)
    (complete : Runs.Throughout (ConcurrentAppends.apply strerror) Complete
      requests.begin events) :
    let final := Runs.final (ConcurrentAppends.apply strerror) requests.begin
      events
    ∃ order : List ι, order.Nodup ∧
      (∀ caller, requests.slice caller ≠ [] →
        (caller ∈ order ↔ ∃ status,
          (final.calls caller).returned = some status ∧ status.ok = true)) ∧
      ∀ number, final.posix.contents number =
        requests.posix.contents number ++
          (order.filter fun caller =>
            (requests.description caller).file = number).flatMap
              requests.slice := by
  intro final
  obtain ⟨accounted, order, inOrder⟩ := Runs.final_of_throughout
    (fun state => Accounted requests state ∧
      ∃ order, WrittenInOrder requests state order)
    (fun state event holds allowed => by
      obtain ⟨accounted, order, inOrder⟩ := holds
      obtain ⟨permitted, complete⟩ := allowed
      obtain ⟨caller, answer⟩ := event
      cases answer with
      | failed errNumber =>
          have advanced := accounted.failed strerror permitted
          exact ⟨accounted.advanced advanced, order, inOrder.nothing advanced⟩
      | wrote done =>
          have advanced := accounted.wrote disciplined strerror permitted
          obtain ⟨outside, piece⟩ :=
            inOrder.piece_eq (accounted.balanced caller) permitted.1
          have taken : done = (state.calls caller).left := complete done rfl
          rw [← taken] at piece
          rw [piece] at advanced
          exact ⟨accounted.advanced advanced, _,
            inOrder.whole outside advanced⟩)
    ⟨accounted_begin, [], .begin⟩ (Runs.throughout_and permitted complete)
  refine ⟨order, inOrder.nodup, fun caller nonempty => ?_, inOrder.contents⟩
  have balanced := accounted.balanced caller
  have written := inOrder.written caller
  constructor
  · intro inside
    rw [if_pos inside] at written
    have done := balanced.written_eq_iff.mp written
    cases returned : (final.calls caller).returned with
    | none => exact absurd done (balanced.running returned)
    | some status => exact ⟨status, rfl, (balanced.ended _ returned).mpr done⟩
  · rintro ⟨status, returned, ok⟩
    have done := (balanced.ended status returned).mp ok
    by_contra outside
    rw [if_neg outside, balanced.written_eq_iff.mpr done] at written
    exact nonempty written

/-- A short write may be followed by one of another call. -/
example : (Runs.final (ConcurrentAppends.apply fun _ => "")
    (onSharedFile false).begin
    [(false, .wrote 1), (true, .wrote 1), (false, .wrote 1)]).posix.contents 0 =
      [1, 7, 2] := by
  rfl

/-- The second call is served while the first one is interrupted. -/
theorem appends_whole_onSharedFile :
    let final := Runs.final (ConcurrentAppends.apply fun _ => "")
      (onSharedFile false).begin
      [(false, .failed EINTR), (true, .wrote 1), (false, .wrote 2)]
    ∃ order : List Bool, order.Nodup ∧ (∀ caller, caller ∈ order) ∧
      final.posix.contents 0 = order.flatMap (onSharedFile false).slice := by
  intro final
  have permitted : Runs.Throughout (ConcurrentAppends.apply fun _ => "")
      ConcurrentAppends.Permitted (onSharedFile false).begin
      [(false, .failed EINTR), (true, .wrote 1), (false, .wrote 2)] :=
    ⟨⟨rfl, by decide⟩, ⟨rfl, by decide, by decide, _, rfl, rfl⟩,
      ⟨rfl, by decide, by decide, _, rfl, rfl⟩, trivial⟩
  have complete : Runs.Throughout (ConcurrentAppends.apply fun _ => "")
      Complete (onSharedFile false).begin
      [(false, .failed EINTR), (true, .wrote 1), (false, .wrote 2)] := by
    refine ⟨fun done impossible => ?_, fun done same => ?_, fun done same => ?_,
      trivial⟩
    · cases impossible
    · cases same
      rfl
    · cases same
      rfl
  obtain ⟨order, nodup, succeeded, contents⟩ := appends_whole (fun _ => "")
    (onSharedFile false) disciplined_onSharedFile permitted complete
  refine ⟨order, nodup, fun caller => ?_, (contents 0).trans
    (congrArg (List.flatMap _) (List.filter_true order))⟩
  have nonempty : (onSharedFile false).slice caller ≠ [] := by
    cases caller <;> decide
  refine (succeeded caller nonempty).mpr ⟨.okStatus, ?_, rfl⟩
  cases caller <;> rfl

end AppendRequests

namespace Represents

variable {ν : Type} [Posix.NameSpace ν] {system : PosixSystem ν}
  {volume : Volume ν}
  (represents : Represents system volume)

include represents in
theorem writer {file : OpenedFile} (live : ∃ id, system.files id = some file)
    {description : Posix.Description}
    (opened : system.posix.descriptions file.fd = some description)
    (writable : description.writable = true) :
    ∃ id handle, system.files id = some file ∧
      volume.handles id = some handle ∧ handle.log = description.file ∧
      handle.access ≠ .readOnly ∧
      (handle.access = .atEnd → description.appends = true) ∧
      Posix.AtEnd system.posix description := by
  obtain ⟨id, alive⟩ := live
  have hasFd : file.fd ≠ -1 := by
    intro without
    rw [without, represents.noDescriptor] at opened
    cases opened
  obtain ⟨handle, known, stands⟩ := represents.live id file alive hasFd
  obtain ⟨position, found, own⟩ := stands.opened
  rw [opened] at found
  cases found
  have writes : handle.access ≠ .readOnly := by
    rw [Access.writable_flags] at writable
    exact of_decide_eq_true writable
  refine ⟨id, handle, alive, known, rfl, writes, fun appending => ?_,
    atEnd_of_writes writes own⟩
  rw [Access.appends_flags]
  exact decide_eq_true appending

include represents in
/-- Two files that are open for writing on one log are the same or append. -/
theorem writers {file other : OpenedFile}
    (live : ∃ id, system.files id = some file)
    (otherLive : ∃ id, system.files id = some other)
    {description otherDescription : Posix.Description}
    (opened : system.posix.descriptions file.fd = some description)
    (otherOpened : system.posix.descriptions other.fd = some otherDescription)
    (writable : description.writable = true)
    (otherWritable : otherDescription.writable = true)
    (sameFile : description.file = otherDescription.file) :
    file.fd = other.fd ∨
      description.appends = true ∧ otherDescription.appends = true := by
  obtain ⟨id, handle, alive, known, log, writes, appends, -⟩ :=
    represents.writer live opened writable
  obtain ⟨otherId, otherHandle, otherAlive, otherKnown, otherLog, otherWrites,
    otherAppends, -⟩ := represents.writer otherLive otherOpened otherWritable
  have sameLog : otherHandle.log = handle.log := by
    rw [log, otherLog, sameFile]
  by_cases same : otherId = id
  · rw [same, alive] at otherAlive
    exact .inl (congrArg OpenedFile.fd (Option.some.inj otherAlive))
  · have apart := represents.orderly.soleWriter
    have atEnd : handle.access = .atEnd := by
      cases access : handle.access with
      | readOnly => exact absurd access writes
      | ownPosition =>
          exact absurd (apart id handle otherId otherHandle known otherKnown
            same access sameLog) otherWrites
      | atEnd => rfl
    have otherAtEnd : otherHandle.access = .atEnd := by
      cases access : otherHandle.access with
      | readOnly => exact absurd access otherWrites
      | ownPosition =>
          exact absurd (apart otherId otherHandle id handle otherKnown known
            (Ne.symm same) access sameLog.symm) writes
      | atEnd => rfl
    exact .inr ⟨appends atEnd, otherAppends otherAtEnd⟩

end Represents

namespace PosixSystem

/-- In every state of a run, calls of `append` on any files that are open for
writing may be concurrent: nothing is lost in any order of the answers. -/
theorem concurrent_lossless {ν ι : Type} [Posix.NameSpace ν] [DecidableEq ι]
    (strerror : Nat → String) (disk : Disk ν) {events : List Event}
    (regular : Runs.Throughout (apply strerror) (Regular strerror)
      (initial disk) events)
    (disciplined : Runs.Throughout (Volume.apply strerror)
      Volume.Disciplined (Volume.initial disk) events)
    {file : ι → OpenedFile} {slice : ι → Bytes}
    {description : ι → Posix.Description}
    (live : ∀ caller, ∃ id, (Runs.final (apply strerror) (initial disk)
      events).files id = some (file caller))
    (opened : ∀ caller, (Runs.final (apply strerror) (initial disk)
      events).posix.descriptions (file caller).fd = some (description caller))
    (writable : ∀ caller, (description caller).writable = true)
    (short : ∀ caller, (slice caller).length < 2 ^ 64) :
    ∃ requests : AppendRequests ν ι,
      requests.file = file ∧ requests.slice = slice ∧
      requests.description = description ∧
      requests.posix =
        (Runs.final (apply strerror) (initial disk) events).posix ∧
      requests.LosslessInAnyOrder strerror := by
  have represents := represents_final strerror disk regular disciplined
  let requests : AppendRequests ν ι :=
    { file, slice, description, short, opened, writable
      posix := (Runs.final (apply strerror) (initial disk) events).posix
      atEnd := fun caller => by
        obtain ⟨id, handle, -, -, -, -, -, atEnd⟩ :=
          represents.writer (live caller) (opened caller) (writable caller)
        exact atEnd }
  have allowed : requests.Disciplined := fun caller other sameFile =>
    represents.writers (live caller) (live other) (opened caller)
      (opened other) (writable caller) (writable other) sameFile
  exact ⟨requests, rfl, rfl, rfl, rfl, fun events permitted =>
    AppendRequests.lossless_of_disciplined allowed strerror permitted⟩

/-- A file is opened twice for appending. -/
def openedTwice : List Event :=
  [.repenRWFile "log" 3 0, .repenRWFile "log" 4 0]

theorem concurrent_lossless_openedTwice :
    ∃ requests : AppendRequests (Posix.Entries fromHere) Bool,
      (∀ second, requests.slice second = if second then [7] else [1, 2]) ∧
      requests.posix = (Runs.final (apply fun _ => "") (initial Disk.empty)
        openedTwice).posix ∧
      requests.LosslessInAnyOrder fun _ => "" := by
  have regular : Runs.Throughout (apply fun _ => "") (Regular fun _ => "")
      (initial Disk.empty) openedTwice :=
    ⟨regular_repenRWFile ⟨by decide, rfl⟩,
      regular_repenRWFile ⟨by decide, rfl⟩, trivial⟩
  have disciplined : Runs.Throughout (Volume.apply fun _ => "")
      Volume.Disciplined (Volume.initial Disk.empty) openedTwice := by
    refine ⟨fun _ => Volume.admits_of_unopened (fun _ => rfl) _ _, ?_,
      trivial⟩
    intro _ id handle known
    by_cases first : id = 0
    · rw [first] at known
      cases known
      exact fun _ => ⟨by decide, by decide⟩
    · have unopened : (Volume.initial Disk.empty).handles id =
          some handle := by
        rw [← known]
        exact (Function.update_of_ne first _ _).symm
      cases unopened
  let file (second : Bool) : OpenedFile :=
    { fname := "log", fd := if second then 4 else 3 }
  have live : ∀ second, ∃ id, (Runs.final (apply fun _ => "")
      (initial Disk.empty) openedTwice).files id = some (file second) := by
    intro second
    cases second
    · exact ⟨0, rfl⟩
    · exact ⟨1, rfl⟩
  have opened : ∀ second, (Runs.final (apply fun _ => "")
      (initial Disk.empty) openedTwice).posix.descriptions (file second).fd =
        some { file := 0, flags := PosixFileSystem.rwFlags false
               position := 0 } := by
    intro second
    cases second <;> rfl
  have short : ∀ second : Bool,
      (if second then [7] else [1, 2] : Bytes).length < 2 ^ 64 := by decide
  obtain ⟨requests, -, slice, -, posix, lossless⟩ := concurrent_lossless
    (fun _ => "") Disk.empty regular disciplined live opened
    (fun _ => by decide) short
  exact ⟨requests, fun second => by rw [slice], posix, lossless⟩

end PosixSystem

end LiteLsm
