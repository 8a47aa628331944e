import LiteLsm.Filesystem.AppendCalls
import LiteLsm.Support.Interleaving

/-!
# Concurrent appends

Calls of `append` begin on descriptors that stand at the end of their files,
descriptors of their own or shared ones.  A call that was served in part writes
the rest where its descriptor then stands.  Whether that is the end again
decides whether anything is lost.
-/

namespace LiteLsm

/-- Slices to be appended, through descriptors that are open for writing and
stand at the end of their files. -/
structure AppendRequests (ν ι : Type) where
  file : ι → OpenedFile
  slice : ι → Bytes
  posix : Posix.Files ν UInt8
  description : ι → Posix.Description
  short : ∀ caller, (slice caller).length < 2 ^ 64
  opened : ∀ caller,
    posix.descriptions (file caller).fd = some (description caller)
  writable : ∀ caller, (description caller).writable = true
  atEnd : ∀ caller, Posix.AtEnd posix (description caller)

namespace AppendRequests

variable {ν ι : Type} (requests : AppendRequests ν ι)

/-- Every call has been entered, and nothing is written yet. -/
def begin : ConcurrentAppends ν ι where
  calls caller := .enter (requests.file caller) (requests.slice caller)
  posix := requests.posix

/-- Calls on one file share a descriptor or have descriptors that append. -/
def Disciplined : Prop :=
  ∀ caller other,
    (requests.description caller).file = (requests.description other).file →
      (requests.file caller).fd = (requests.file other).fd ∨
        (requests.description caller).appends = true ∧
          (requests.description other).appends = true

/-- What the calls on a file have written. -/
def parts (calls : ι → AppendCall) (number : Nat) : ι → Bytes :=
  fun caller =>
    if (requests.description caller).file = number then
      (calls caller).written
    else []

/-- Nothing is lost and nothing is overwritten: behind its old contents every
file holds what the calls have written, in pieces, and a call reports success
exactly if it has written all of its slice. -/
structure Lossless [DecidableEq ι] (state : ConcurrentAppends ν ι) : Prop where
  contents : ∀ number, ∃ added,
    state.posix.contents number = requests.posix.contents number ++ added ∧
      Interleaves (requests.parts state.calls number) added
  reported : ∀ caller status, (state.calls caller).returned = some status →
    (status.ok = true ↔
      (state.calls caller).written = requests.slice caller)

/-- The descriptors still stand at the end. -/
def Standing (posix : Posix.Files ν UInt8) : Prop :=
  ∀ caller, ∃ position,
    posix.descriptions (requests.file caller).fd =
        some { requests.description caller with position } ∧
      Posix.AtEnd posix { requests.description caller with position }

theorem standing_begin : requests.Standing requests.posix :=
  fun caller => ⟨_, requests.opened caller, requests.atEnd caller⟩

variable {requests} (disciplined : requests.Disciplined)

include disciplined in
/-- A piece is appended, and all descriptors are at the end again. -/
theorem Standing.written {posix : Posix.Files ν UInt8}
    (standing : requests.Standing posix) (caller : ι) (piece : Bytes) :
    let number := (requests.description caller).file
    let after := posix.written (requests.file caller).fd piece
    requests.Standing after ∧
      after.contents =
        Function.update posix.contents number
          (posix.contents number ++ piece) := by
  intro number after
  obtain ⟨position, opened, atEnd⟩ := standing caller
  have written := (Posix.Written.refl opened).written piece
  rw [List.nil_append] at written
  have grown := written.file_atEnd atEnd
  have contents : after.contents = Function.update posix.contents number
      (posix.contents number ++ piece) := by
    funext other
    by_cases same : other = number
    · rw [same, Function.update_self]
      exact grown
    · rw [Function.update_of_ne same, written.contents,
        Function.update_of_ne same]
  refine ⟨fun other => ?_, contents⟩
  obtain ⟨otherPosition, otherOpened, otherAtEnd⟩ := standing other
  by_cases shared : (requests.file other).fd = (requests.file caller).fd
  · have sameDescription :
        requests.description other = requests.description caller := by
      have both := requests.opened other
      rw [shared, requests.opened caller] at both
      exact (Option.some.inj both).symm
    obtain ⟨moved, stands, stillAtEnd⟩ := written.own_atEnd atEnd
    rw [shared, sameDescription]
    exact ⟨moved, stands, stillAtEnd⟩
  · refine ⟨otherPosition, ?_, ?_⟩
    · rw [written.others _ shared, otherOpened]
    · by_cases sameFile : (requests.description other).file = number
      · have appends := (disciplined other caller sameFile).resolve_left shared
        exact Posix.atEnd_of_appends appends.1
      · have kept : after.contents (requests.description other).file =
            posix.contents (requests.description other).file := by
          rw [contents, Function.update_of_ne sameFile]
        rw [Posix.AtEnd, Posix.Files.start, kept]
        exact otherAtEnd

/-- What holds while the calls are on their way. -/
structure Accounted (requests : AppendRequests ν ι)
    (state : ConcurrentAppends ν ι) : Prop where
  balanced : ∀ caller, (state.calls caller).Balanced (requests.file caller)
    (requests.slice caller)
  standing : requests.Standing state.posix

theorem parts_begin (number : Nat) :
    requests.parts requests.begin.calls number = fun _ => [] := by
  funext caller
  simp only [parts, begin, AppendCall.written_enter, ite_self]

theorem accounted_begin : Accounted requests requests.begin where
  balanced _ := .enter _ _
  standing := requests.standing_begin

variable [DecidableEq ι]

/-- A call has written a piece more, and nothing else has happened. -/
structure Advanced (requests : AppendRequests ν ι)
    (state after : ConcurrentAppends ν ι) (caller : ι) (piece : Bytes) :
    Prop where
  calls : ∃ next, after.calls = Function.update state.calls caller next ∧
    next.Balanced (requests.file caller) (requests.slice caller) ∧
    next.written = (state.calls caller).written ++ piece
  standing : requests.Standing after.posix
  contents : after.posix.contents =
    Function.update state.posix.contents (requests.description caller).file
      (state.posix.contents (requests.description caller).file ++ piece)

namespace Accounted

variable {state after : ConcurrentAppends ν ι} {caller : ι}
  (accounted : Accounted requests state) (strerror : Nat → String)

include accounted in
theorem failed {errNumber : Nat}
    (permitted : state.Permitted (caller, .failed errNumber)) :
    Advanced requests state
      (state.apply strerror (caller, .failed errNumber)) caller [] := by
  obtain ⟨running, nonzero⟩ := permitted
  obtain ⟨balanced, written, posix⟩ := (accounted.balanced caller).failed
    strerror nonzero running state.posix
  rw [ConcurrentAppends.apply_running strerror running]
  refine ⟨⟨_, rfl, balanced, ?_⟩, ?_, ?_⟩
  · rw [written, List.append_nil]
  · rw [posix]
    exact accounted.standing
  · rw [posix, List.append_nil, Function.update_eq_self]

include disciplined accounted in
theorem wrote {done : Nat}
    (permitted : state.Permitted (caller, .wrote done)) :
    Advanced requests state (state.apply strerror (caller, .wrote done)) caller
      (((requests.slice caller).drop (state.calls caller).src).take done) := by
  obtain ⟨running, -, within, -⟩ := permitted
  obtain ⟨balanced, written, posix⟩ := (accounted.balanced caller).wrote
    strerror (requests.short caller) within running state.posix
  obtain ⟨standing, contents⟩ := accounted.standing.written disciplined caller
    (((requests.slice caller).drop (state.calls caller).src).take done)
  rw [ConcurrentAppends.apply_running strerror running]
  refine ⟨⟨_, rfl, balanced, written⟩, ?_, ?_⟩
  · rw [posix]
    exact standing
  · rw [posix, contents]

include accounted in
theorem advanced {piece : Bytes}
    (advanced : Advanced requests state after caller piece) :
    Accounted requests after := by
  obtain ⟨next, calls, balanced, -⟩ := advanced.calls
  refine ⟨fun other => ?_, advanced.standing⟩
  rw [calls]
  by_cases same : other = caller
  · rw [same, Function.update_self]
    exact balanced
  · rw [Function.update_of_ne same]
    exact accounted.balanced other

end Accounted

namespace Advanced

variable {state after : ConcurrentAppends ν ι} {caller : ι} {piece : Bytes}
  (advanced : Advanced requests state after caller piece)

include advanced in
theorem written_self :
    (after.calls caller).written = (state.calls caller).written ++ piece := by
  obtain ⟨next, calls, -, written⟩ := advanced.calls
  rw [calls, Function.update_self, written]

include advanced in
theorem written_of_ne {other : ι} (different : other ≠ caller) :
    (after.calls other).written = (state.calls other).written := by
  obtain ⟨next, calls, -, -⟩ := advanced.calls
  rw [calls, Function.update_of_ne different]

include advanced in
theorem parts_eq (number : Nat) :
    requests.parts after.calls number =
      Function.update (requests.parts state.calls number) caller
        (requests.parts state.calls number caller ++
          if (requests.description caller).file = number then piece
          else []) := by
  funext other
  by_cases same : other = caller
  · rw [same, Function.update_self, parts, parts, advanced.written_self]
    split
    · rfl
    · rfl
  · rw [Function.update_of_ne same, parts, parts, advanced.written_of_ne same]

include advanced in
theorem contents_eq (number : Nat) :
    after.posix.contents number = state.posix.contents number ++
      if (requests.description caller).file = number then piece else [] := by
  rw [advanced.contents]
  by_cases own : (requests.description caller).file = number
  · rw [if_pos own, ← own, Function.update_self]
  · rw [if_neg own, Function.update_of_ne (Ne.symm own), List.append_nil]

end Advanced

include disciplined in
/-- Nothing is lost whatever the order of the answers. -/
theorem lossless_of_disciplined (strerror : Nat → String)
    {events : List (ι × WriteAnswer)}
    (permitted : Runs.Throughout (ConcurrentAppends.apply strerror)
      ConcurrentAppends.Permitted requests.begin events) :
    Lossless requests (Runs.final (ConcurrentAppends.apply strerror)
      requests.begin events) := by
  have final := Runs.final_of_throughout
    (fun state => Accounted requests state ∧ ∀ number, ∃ added,
      state.posix.contents number = requests.posix.contents number ++ added ∧
        Interleaves (requests.parts state.calls number) added)
    (fun state event holds permitted => by
      obtain ⟨accounted, contents⟩ := holds
      obtain ⟨caller, answer⟩ := event
      obtain ⟨piece, advanced⟩ : ∃ piece, Advanced requests state
          (state.apply strerror (caller, answer)) caller piece := by
        cases answer with
        | failed errNumber => exact ⟨_, accounted.failed strerror permitted⟩
        | wrote done =>
            exact ⟨_, accounted.wrote disciplined strerror permitted⟩
      refine ⟨accounted.advanced advanced, fun number => ?_⟩
      obtain ⟨added, held, interleaved⟩ := contents number
      refine ⟨_, ?_, advanced.parts_eq number ▸ interleaved.extend caller _⟩
      rw [advanced.contents_eq, held, List.append_assoc])
    ⟨accounted_begin, fun number => ⟨[], (List.append_nil _).symm, by
      rw [parts_begin]
      exact .nil⟩⟩
    permitted
  obtain ⟨accounted, contents⟩ := final
  refine ⟨contents, fun caller status returned => ?_⟩
  have balanced := accounted.balanced caller
  rw [balanced.ended status returned, balanced.written_eq_iff]

theorem whole_write (strerror : Nat → String) {state : ConcurrentAppends ν ι}
    {caller : ι}
    (entered : state.calls caller = requests.begin.calls caller)
    (nonempty : requests.slice caller ≠ [])
    (opened : state.posix.descriptions (requests.file caller).fd =
      some (requests.description caller)) :
    let event := (caller, .wrote (requests.slice caller).length)
    state.Permitted event ∧ ∃ next, next.written = requests.slice caller ∧
      state.apply strerror event =
        { calls := Function.update state.calls caller next
          posix := state.posix.written (requests.file caller).fd
            (requests.slice caller) } := by
  intro event
  have positive : (requests.slice caller).length ≠ 0 := by
    rwa [Ne, List.length_eq_zero_iff]
  have call : state.calls caller =
      { file := requests.file caller
        slice := requests.slice caller
        left := (requests.slice caller).length
        src := 0
        returned := none } := by
    rw [entered]
    exact if_pos positive
  have running : (state.calls caller).returned = none := by rw [call]
  have balanced : (state.calls caller).Balanced (requests.file caller)
      (requests.slice caller) := by
    rw [entered]
    exact .enter _ _
  have within : (requests.slice caller).length ≤ (state.calls caller).left := by
    rw [call]
  obtain ⟨-, written, posix⟩ := balanced.wrote strerror
    (requests.short caller) within running state.posix
  have piece : ((requests.slice caller).drop (state.calls caller).src).take
      (requests.slice caller).length = requests.slice caller := by
    rw [call]
    exact List.take_length
  have before : (state.calls caller).written = [] := by
    rw [entered]
    exact AppendCall.written_enter _ _
  rw [piece, before, List.nil_append] at written
  rw [piece] at posix
  constructor
  · refine ⟨running, Nat.pos_of_ne_zero positive, within, _, ?_,
      requests.writable caller⟩
    rw [call]
    exact opened
  · refine ⟨_, written, ?_⟩
    rw [← posix]
    exact ConcurrentAppends.apply_running strerror running _

/-- Whatever the order of the answers, nothing is lost. -/
def LosslessInAnyOrder (strerror : Nat → String)
    (requests : AppendRequests ν ι) : Prop :=
  ∀ events, Runs.Throughout (ConcurrentAppends.apply strerror)
      ConcurrentAppends.Permitted requests.begin events →
    Lossless requests (Runs.final (ConcurrentAppends.apply strerror)
      requests.begin events)

theorem whole_writes (strerror : Nat → String) {caller other : ι}
    (nonempty : requests.slice caller ≠ [])
    (otherNonempty : requests.slice other ≠ [])
    (apart : (requests.file caller).fd ≠ (requests.file other).fd) :
    let events := [(other, .wrote (requests.slice other).length),
      (caller, .wrote (requests.slice caller).length)]
    let last :=
      Runs.final (ConcurrentAppends.apply strerror) requests.begin events
    Runs.Throughout (ConcurrentAppends.apply strerror)
        ConcurrentAppends.Permitted requests.begin events ∧
      (last.calls caller).written = requests.slice caller ∧
      (last.calls other).written = requests.slice other ∧
      last.posix = (requests.posix.written (requests.file other).fd
        (requests.slice other)).written (requests.file caller).fd
          (requests.slice caller) := by
  intro events last
  have different : caller ≠ other := fun same => apart (by rw [same])
  let middle := requests.begin.apply strerror
    (other, .wrote (requests.slice other).length)
  obtain ⟨permitted, first, firstWritten, served⟩ := whole_write strerror
    (show requests.begin.calls other = _ from rfl) otherNonempty
    (requests.opened other)
  have entered : middle.calls caller = requests.begin.calls caller := by
    simp only [middle, served]
    exact Function.update_of_ne different _ _
  have opened : middle.posix.descriptions (requests.file caller).fd =
      some (requests.description caller) := by
    have written := (Posix.Written.refl (requests.opened other)).written
      (requests.slice other)
    simp only [middle, served]
    exact (written.others _ apart).trans (requests.opened caller)
  obtain ⟨permittedNext, second, secondWritten, final⟩ :=
    whole_write strerror entered nonempty opened
  have state : last = _ := final
  refine ⟨⟨permitted, permittedNext, trivial⟩, ?_, ?_, ?_⟩
  · simp only [state, Function.update_self, secondWritten]
  · simp only [state, Function.update_of_ne (Ne.symm different), middle, served,
      Function.update_self, firstWritten]
  · simp only [state, middle, served]
    rfl

/-- Of two descriptors on one file, one that does not append overwrites what
was written through the other. -/
theorem appends_of_lossless {strerror : Nat → String}
    (nonempty : ∀ caller, requests.slice caller ≠ [])
    (lossless : LosslessInAnyOrder strerror requests) {caller other : ι}
    (sameFile : (requests.description caller).file =
      (requests.description other).file)
    (apart : (requests.file caller).fd ≠ (requests.file other).fd) :
    (requests.description caller).appends = true := by
  by_contra notAppends
  have own : (requests.description caller).appends = false :=
    Bool.eq_false_iff.mpr notAppends
  have different : caller ≠ other := fun same => apart (by rw [same])
  -- the other call is served first, and the position is left behind
  obtain ⟨permitted, written, otherWritten, posix⟩ := whole_writes strerror
    (nonempty caller) (nonempty other) apart
  obtain ⟨added, held, interleaved⟩ :=
    (lossless _ permitted).contents (requests.description caller).file
  have both := interleaved.sum_length_le {caller, other}
  rw [Finset.sum_pair different] at both
  simp only [parts, written, otherWritten, sameFile, if_true] at both
  rw [posix, Posix.contents_left_behind (requests.opened caller)
    (requests.opened other) apart sameFile own (requests.atEnd caller)
    (requests.atEnd other)] at held
  have length := congrArg List.length held
  rw [Posix.length_overwrite _ _ (nonempty caller), List.length_append,
    List.length_append] at length
  have positive := List.length_pos_iff.mpr (nonempty caller)
  have otherPositive := List.length_pos_iff.mpr (nonempty other)
  omega

/-- Concurrent calls of `append` with something to write lose nothing in any
order of the answers exactly if those on one file share a descriptor or all
have been opened for appending. -/
theorem lossless_iff_disciplined (strerror : Nat → String)
    (requests : AppendRequests ν ι)
    (nonempty : ∀ caller, requests.slice caller ≠ []) :
    LosslessInAnyOrder strerror requests ↔ requests.Disciplined := by
  constructor
  · intro lossless caller other sameFile
    by_cases shared : (requests.file caller).fd = (requests.file other).fd
    · exact .inl shared
    · exact .inr ⟨appends_of_lossless nonempty lossless sameFile shared,
        appends_of_lossless nonempty lossless sameFile.symm (Ne.symm shared)⟩
  · intro disciplined events permitted
    exact lossless_of_disciplined disciplined strerror permitted

/-- Two calls that write to one new file, through two descriptors. -/
def onSharedFile (isNew : Bool) : AppendRequests (Posix.Entries id) Bool where
  file second := { fname := "log", fd := if second then 4 else 3 }
  slice second := if second then [7] else [1, 2]
  posix :=
    { paths := ⟨fun _ => some 0⟩
      contents := fun _ => []
      descriptions := fun _ => some
        { file := 0, flags := PosixFileSystem.rwFlags isNew, position := 0 }
      nextFile := 1 }
  description _ :=
    { file := 0, flags := PosixFileSystem.rwFlags isNew, position := 0 }
  short := by decide
  opened _ := rfl
  writable _ := by cases isNew <;> rfl
  atEnd _ := by cases isNew <;> rfl

theorem disciplined_onSharedFile : (onSharedFile false).Disciplined := by
  have appends : ∀ caller,
      ((onSharedFile false).description caller).appends = true := by decide
  exact fun caller other _ => .inr ⟨appends caller, appends other⟩

theorem lossless_iff_disciplined_onSharedFile :
    LosslessInAnyOrder (fun _ => "") (onSharedFile false) ∧
      ¬LosslessInAnyOrder (fun _ => "") (onSharedFile true) := by
  constructor
  · exact (lossless_iff_disciplined (fun _ => "") (onSharedFile false)
      (by decide)).mpr disciplined_onSharedFile
  · intro lossless
    have disciplined := (lossless_iff_disciplined (fun _ => "")
      (onSharedFile true) (by decide)).mp lossless
    rcases disciplined true false rfl with shared | ⟨appends, -⟩
    · exact absurd shared (by decide)
    · exact absurd appends (by decide)

end AppendRequests

end LiteLsm
