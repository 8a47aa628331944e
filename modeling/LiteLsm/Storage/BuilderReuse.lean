import LiteLsm.Storage.SliceLifetime
import LiteLsm.Support.Runs

/-!
# Builders that are used again

`reset` clears the buffer, the restart offsets and the record count.  It keeps
the remembered restart key and the checksum of the last page.  Neither is read
before it is written: the first `add` after a reset starts a group, and
`finish` computes the checksum anew.  A builder that was reset is therefore as
good as a new one of its type, whatever was done with it before.
-/

namespace LiteLsm

namespace DataPageBuilder

/-- The arguments of a call of `add`, and what slices denote by then. -/
structure Addition (SliceType : Type) where
  view : SliceType → Bytes
  key : SliceType
  value : SliceType

/-- What a user of a builder can call; finishing happens wherever the buffer
stands at that moment. -/
inductive BuilderCall (SliceType : Type) where
  | add (addition : Addition SliceType)
  | finish (address : Nat)
  | reset

variable {SliceType : Type}

def BuilderCall.apply (builder : DataPageBuilder SliceType) :
    BuilderCall SliceType → DataPageBuilder SliceType
  | .add addition => builder.add addition.view addition.key addition.value
  | .finish address => builder.finish address
  | .reset => builder.reset

/-- Make the calls one after another. -/
def perform (builder : DataPageBuilder SliceType)
    (calls : List (BuilderCall SliceType)) : DataPageBuilder SliceType :=
  calls.foldl BuilderCall.apply builder

/-- Add one pair after the other. -/
def addEach (builder : DataPageBuilder SliceType)
    (additions : List (Addition SliceType)) : DataPageBuilder SliceType :=
  addAll Addition.view Addition.key Addition.value builder additions

private theorem type_apply (builder : DataPageBuilder SliceType)
    (call : BuilderCall SliceType) :
    (call.apply builder).footer.type = builder.footer.type := by
  cases call with
  | add addition =>
      rw [BuilderCall.apply, footer_add]
  | finish address => rfl
  | reset => rfl

private theorem type_perform (builder : DataPageBuilder SliceType)
    (calls : List (BuilderCall SliceType)) :
    (builder.perform calls).footer.type = builder.footer.type := by
  have step (now : DataPageBuilder SliceType)
      (call : BuilderCall SliceType)
      (same : now.footer.type = builder.footer.type) :
      (call.apply now).footer.type = builder.footer.type := by
    rw [type_apply, same]
  exact Runs.final_preserves
    (fun (now : DataPageBuilder SliceType) =>
      now.footer.type = builder.footer.type) step rfl calls

/-- All that later calls depend on is the same.  The remembered key counts
inside a group only, and the checksum not at all. -/
structure SameFuture (left right : DataPageBuilder SliceType) : Prop where
  buffer : left.buffer = right.buffer
  type : left.footer.type = right.footer.type
  recordNum : left.recordNum = right.recordNum
  restartPointOffsets : left.restartPointOffsets = right.restartPointOffsets
  restartKey : left.recordNum % restartPointInterval ≠ 0 →
    left.lastRestartPointKey = right.lastRestartPointKey

namespace SameFuture

variable {left right : DataPageBuilder SliceType}

theorem prefixLength (same : SameFuture left right)
    (view : SliceType → Bytes) (key : SliceType) :
    DataPageBuilder.prefixLength view key left =
      DataPageBuilder.prefixLength view key right := by
  rw [DataPageBuilder.prefixLength, DataPageBuilder.prefixLength,
    ← same.recordNum]
  split
  · rfl
  · rename_i inside
    rw [same.restartKey inside]

theorem newEntry (same : SameFuture left right) (view : SliceType → Bytes)
    (key value : SliceType) :
    DataPageBuilder.newEntry view key value left =
      DataPageBuilder.newEntry view key value right := by
  rw [DataPageBuilder.newEntry, DataPageBuilder.newEntry, suffixLength,
    suffixLength, same.prefixLength view key]

/-- The step: the first key of a group is remembered by both builders. -/
theorem add (same : SameFuture left right) (view : SliceType → Bytes)
    (key value : SliceType) :
    SameFuture (left.add view key value) (right.add view key value) := by
  constructor
  · rw [buffer_add, buffer_add, same.buffer, same.newEntry]
  · rw [footer_add, footer_add, same.type]
  · rw [recordNum_add, recordNum_add, same.recordNum]
  · rw [restartPointOffsets_add, restartPointOffsets_add, same.recordNum,
      same.restartPointOffsets, same.buffer]
  · intro inside
    rw [lastRestartPointKey_add, lastRestartPointKey_add, ← same.recordNum]
    split
    · rfl
    · rename_i within
      exact same.restartKey within

/-- The run: any pairs can be added to both. -/
theorem addEach (same : SameFuture left right)
    (additions : List (Addition SliceType)) :
    SameFuture (left.addEach additions) (right.addEach additions) := by
  induction additions using List.reverseRecOn with
  | nil => exact same
  | append_singleton additions addition induction =>
      rw [DataPageBuilder.addEach, DataPageBuilder.addEach, addAll_concat,
        addAll_concat]
      exact induction.add _ _ _

theorem estimateSize (same : SameFuture left right) :
    left.estimateSize = right.estimateSize := by
  rw [DataPageBuilder.estimateSize, DataPageBuilder.estimateSize,
    same.buffer, same.restartPointOffsets]

theorem finish (same : SameFuture left right)
    (leftAddress rightAddress : Nat) :
    (left.finish leftAddress).buffer =
      (right.finish rightAddress).buffer := by
  rw [DataPageBuilder.finish, DataPageBuilder.finish, same.buffer,
    same.restartPointOffsets]
  apply buffer_finish_congr
  · rfl
  · exact same.type

end SameFuture

variable [Inhabited SliceType]

/-- A reset leaves nothing that the future depends on, except the type. -/
private theorem sameFuture_reset (builder : DataPageBuilder SliceType)
    {type : PageType} (typed : builder.footer.type = type) (pageSize : Nat) :
    SameFuture builder.reset (ofTypeAndSize type pageSize) := by
  constructor
  · rfl
  · exact typed
  · rfl
  · rfl
  · intro inside
    exact absurd rfl inside

/-- After any calls and a reset, a builder adds pairs and finishes as a new
builder of its type does. -/
theorem reset_asFresh (type : PageType) (pageSize freshSize : Nat)
    (history : List (BuilderCall SliceType))
    (additions : List (Addition SliceType)) :
    let reused :=
      ((ofTypeAndSize type pageSize : DataPageBuilder SliceType).perform
        history).reset
    let fresh : DataPageBuilder SliceType := ofTypeAndSize type freshSize
    (∀ address freshAddress,
      ((reused.addEach additions).finish address).buffer =
        ((fresh.addEach additions).finish freshAddress).buffer) ∧
    ∀ count,
      (reused.addEach (additions.take count)).recordNum =
        (fresh.addEach (additions.take count)).recordNum ∧
      (reused.addEach (additions.take count)).estimateSize =
        (fresh.addEach (additions.take count)).estimateSize := by
  intro reused fresh
  have same : SameFuture reused fresh :=
    sameFuture_reset _ (type_perform _ history) freshSize
  constructor
  · intro address freshAddress
    exact (same.addEach additions).finish address freshAddress
  · intro count
    have along := same.addEach (additions.take count)
    exact ⟨along.recordNum, along.estimateSize⟩

end DataPageBuilder

end LiteLsm
