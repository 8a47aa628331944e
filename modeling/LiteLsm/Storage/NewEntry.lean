import LiteLsm.Storage.DataPageBuilder

/-!
# What `add` appends

The effect of one call of `add` on each part of a builder, for a builder in
any state and for any way of denoting bytes by slices.  Everything about pages
and their sizes rests on these equations and not on the code of `add`.
-/

namespace LiteLsm

namespace Layout

/-- The three varints in front of an entry. -/
def header (sharedLen suffixLen valueLen : Nat) : Bytes :=
  encodeVarint32 (UInt32.ofNat sharedLen) ++
    encodeVarint32 (UInt32.ofNat suffixLen) ++
    encodeVarint32 (UInt32.ofNat valueLen)

theorem commonPrefix_le_left (key lastKey : Bytes) :
    DataPageBuilder.commonPrefix key lastKey ≤ key.length := by
  induction key generalizing lastKey with
  | nil => simp [DataPageBuilder.commonPrefix]
  | cons keyByte key induction =>
      cases lastKey with
      | nil => simp [DataPageBuilder.commonPrefix]
      | cons lastByte lastKey =>
          unfold DataPageBuilder.commonPrefix
          split
          · exact Nat.succ_le_succ (induction lastKey)
          · exact Nat.zero_le _

theorem take_commonPrefix (key lastKey : Bytes) :
    key.take (DataPageBuilder.commonPrefix key lastKey) =
      lastKey.take (DataPageBuilder.commonPrefix key lastKey) := by
  induction key generalizing lastKey with
  | nil => simp [DataPageBuilder.commonPrefix]
  | cons keyByte key induction =>
      cases lastKey with
      | nil => simp [DataPageBuilder.commonPrefix]
      | cons lastByte lastKey =>
          unfold DataPageBuilder.commonPrefix
          split
          · rename_i same
            rw [List.take_succ_cons, List.take_succ_cons, same,
              induction lastKey]
          · rfl

theorem commonPrefix_le (key lastKey : Bytes) :
    DataPageBuilder.commonPrefix key lastKey ≤ lastKey.length := by
  have shared := congrArg List.length (take_commonPrefix key lastKey)
  rw [List.length_take, List.length_take,
    Nat.min_eq_left (commonPrefix_le_left key lastKey)] at shared
  rw [shared]
  exact Nat.min_le_right _ _

end Layout

open Layout

namespace DataPageBuilder

variable {SliceType : Type} (view : SliceType → Bytes)
  (key value : SliceType) (builder : DataPageBuilder SliceType)

/-- How many leading bytes `add` leaves out of the key. -/
def prefixLength : Nat :=
  if builder.recordNum % restartPointInterval = 0 then 0
  else commonPrefix (view key) (view builder.lastRestartPointKey)

def suffixLength : Nat :=
  (view key).length - prefixLength view key builder

/-- The bytes `add` appends. -/
def newEntry : Bytes :=
  header (prefixLength view key builder) (suffixLength view key builder)
      (view value).length ++
    (view key).drop (prefixLength view key builder) ++ view value

theorem prefixLength_le :
    prefixLength view key builder ≤ (view key).length := by
  unfold prefixLength
  split
  · exact Nat.zero_le _
  · exact commonPrefix_le_left _ _

private theorem appendEntry_eq (buffer : Bytes) {shared : Nat}
    (stored : prefixLength view key builder = shared) :
    add.appendEntry view key value buffer shared
        ((view key).length - shared) =
      buffer ++ newEntry view key value builder := by
  have whole : ((view key).drop shared).take ((view key).length - shared) =
      (view key).drop shared := by
    rw [← List.length_drop, List.take_length]
  rw [newEntry, suffixLength, stored]
  simp [add.appendEntry, putVarint32, header, whole]

theorem toPageBuilder_add :
    (builder.add view key value).toPageBuilder =
      { builder.toPageBuilder with
        buffer := builder.buffer ++ newEntry view key value builder } := by
  by_cases restart : builder.recordNum % restartPointInterval = 0
  · have stored : prefixLength view key builder = 0 := by
      rw [prefixLength, if_pos restart]
    rw [add, if_pos restart, ← appendEntry_eq view key value builder _ stored]
    rfl
  · have stored : prefixLength view key builder =
        commonPrefix (view key) (view builder.lastRestartPointKey) := by
      rw [prefixLength, if_neg restart]
    rw [add, if_neg restart, ← appendEntry_eq view key value builder _ stored]

theorem buffer_add :
    (builder.add view key value).buffer =
      builder.buffer ++ newEntry view key value builder :=
  congrArg PageBuilder.buffer (toPageBuilder_add view key value builder)

theorem recordNum_add :
    (builder.add view key value).recordNum = builder.recordNum + 1 := by
  rw [add]
  split <;> rfl

theorem restartPointOffsets_add :
    (builder.add view key value).restartPointOffsets =
      if builder.recordNum % restartPointInterval = 0 then
        builder.restartPointOffsets ++ [UInt32.ofNat builder.buffer.length]
      else
        builder.restartPointOffsets := by
  rw [add]
  split <;> rfl

theorem lastRestartPointKey_add :
    (builder.add view key value).lastRestartPointKey =
      if builder.recordNum % restartPointInterval = 0 then key
      else builder.lastRestartPointKey := by
  rw [add]
  split <;> rfl

theorem length_newEntry :
    (newEntry view key value builder).length =
      (header (prefixLength view key builder)
          (suffixLength view key builder) (view value).length).length +
        suffixLength view key builder + (view value).length := by
  simp [newEntry, suffixLength, Nat.add_assoc]

theorem length_header_le (sharedLen suffixLen valueLen : Nat) :
    (header sharedLen suffixLen valueLen).length ≤ 15 := by
  have first := length_encodeVarint32_le (UInt32.ofNat sharedLen)
  have second := length_encodeVarint32_le (UInt32.ofNat suffixLen)
  have third := length_encodeVarint32_le (UInt32.ofNat valueLen)
  simp only [header, List.length_append]
  omega

end DataPageBuilder

end LiteLsm
