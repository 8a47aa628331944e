import LiteLsm.Storage.EntryEncoding

/-!
# The size estimate

The estimate of a page is four bytes above its size.  The estimate of an entry
counts other things than `add` writes: no varint for the prefix length, the
whole key, and a restart offset for every entry.  It is short of the entry by
less than these four bytes and the whole key make up for.
-/

namespace LiteLsm

open Checked Layout

namespace DataPageBuilder

variable {SliceType : Type}

/-- The states a builder can be in when pairs were only added to a fresh or a
reset builder while the estimates stayed within the budget.  What slices
denote may be different in each call. -/
inductive FilledWithin [Inhabited SliceType] (budget : Nat) :
    DataPageBuilder SliceType → Prop where
  | fresh (type : PageType) (pageSize : Nat) :
      FilledWithin budget (ofTypeAndSize type pageSize)
  | reset (builder : DataPageBuilder SliceType) :
      FilledWithin budget builder.reset
  | add {builder : DataPageBuilder SliceType} (view : SliceType → Bytes)
      (key value : SliceType) :
      FilledWithin budget builder →
      builder.estimateSize + estimateEntrySize (view key) (view value) ≤
        budget →
      FilledWithin budget (builder.add view key value)

theorem length_finish (address : Nat) (builder : DataPageBuilder SliceType) :
    (builder.finish address).buffer.length =
      builder.buffer.length + 4 * builder.restartPointOffsets.length + 9 := by
  have offsets := length_words builder.restartPointOffsets
  rw [List.flatMap_def] at offsets
  rw [finish, LiteLsm.length_finish, List.foldl_append_eq_append,
    List.length_append, List.length_append, offsets, length_encodeFixed32Le]
  rfl

/-- The estimate is four bytes above the size, in every state. -/
theorem estimateSize_eq (address : Nat)
    (builder : DataPageBuilder SliceType) :
    builder.estimateSize = (builder.finish address).buffer.length + 4 := by
  rw [length_finish, estimateSize, pageFooterSize]
  omega

theorem length_restartPointOffsets_add (view : SliceType → Bytes)
    (key value : SliceType) (builder : DataPageBuilder SliceType) :
    (builder.add view key value).restartPointOffsets.length =
      builder.restartPointOffsets.length +
        if builder.recordNum % restartPointInterval = 0 then 1 else 0 := by
  rw [restartPointOffsets_add]
  split
  · exact List.length_append
  · rfl

theorem length_varint_le (length : Nat) :
    (encodeVarint32 (UInt32.ofNat length)).length ≤
      varintLength (UInt64.ofNat length) := by
  rw [encodeVarint32_eq, varintLength_eq, UInt32.toNat_ofNat',
    UInt64.toNat_ofNat']
  apply Base128.length_encode_mono
  omega

/-- The varint of the prefix length is paid for by the bytes left out. -/
theorem length_varint_le_succ (length : Nat) :
    (encodeVarint32 (UInt32.ofNat length)).length ≤ length + 1 := by
  rw [encodeVarint32_eq, UInt32.toNat_ofNat']
  exact Nat.le_trans (Base128.length_encode_le_succ _)
    (Nat.succ_le_succ (Nat.mod_le _ _))

/-- What `add` makes the page grow by, against the estimate of the entry. -/
theorem length_newEntry_le (view : SliceType → Bytes) (key value : SliceType)
    (builder : DataPageBuilder SliceType) :
    (newEntry view key value builder).length +
        4 * (if builder.recordNum % restartPointInterval = 0 then 1 else 0) ≤
      estimateEntrySize (view key) (view value) + 1 := by
  have valueVarint := length_varint_le (view value).length
  have parts := length_newEntry view key value builder
  rw [header, List.length_append, List.length_append] at parts
  rw [estimateEntrySize]
  by_cases restart : builder.recordNum % restartPointInterval = 0
  · -- the whole key is stored, and a restart offset with it
    have noPrefix : prefixLength view key builder = 0 := by
      rw [prefixLength, if_pos restart]
    have keyVarint := length_varint_le (view key).length
    have zero : (encodeVarint32 (UInt32.ofNat 0)).length = 1 := rfl
    rw [suffixLength, noPrefix, Nat.sub_zero, zero] at parts
    rw [if_pos restart]
    omega
  · have prefixVarint := length_varint_le_succ
      (prefixLength view key builder)
    have suffixVarint := length_encodeVarint32_le
      (UInt32.ofNat (suffixLength view key builder))
    have keyVarint : 1 ≤ varintLength (UInt64.ofNat (view key).length) := by
      rw [varintLength_eq]
      exact Base128.length_encode_pos _
    have within := prefixLength_le view key builder
    have rest : suffixLength view key builder =
        (view key).length - prefixLength view key builder := rfl
    rw [if_neg restart]
    omega

/-- The step: a pair whose estimate fits leaves a page which fits, with three
bytes to spare. -/
theorem length_finish_add_le (address : Nat) {budget : Nat}
    (view : SliceType → Bytes) (key value : SliceType)
    {builder : DataPageBuilder SliceType}
    (fits : builder.estimateSize + estimateEntrySize (view key) (view value) ≤
      budget) :
    ((builder.add view key value).finish address).buffer.length + 3 ≤
      budget := by
  have growth := length_newEntry_le view key value builder
  have before := estimateSize_eq address builder
  have appended := congrArg List.length (buffer_add view key value builder)
  rw [List.length_append] at appended
  rw [length_finish] at before ⊢
  rw [length_restartPointOffsets_add]
  omega

/-- The run: three bytes of the budget are never used. -/
theorem FilledWithin.length_finish_le [Inhabited SliceType] {budget : Nat}
    (enough : 13 ≤ budget) {builder : DataPageBuilder SliceType}
    (filled : FilledWithin budget builder) (address : Nat) :
    (builder.finish address).buffer.length + 3 ≤ budget := by
  cases filled with
  | fresh type pageSize =>
      rw [length_finish]
      exact Nat.le_trans (show 0 + 4 * 0 + 9 + 3 ≤ 13 by decide) enough
  | reset builder =>
      rw [length_finish]
      exact Nat.le_trans (show 0 + 4 * 0 + 9 + 3 ≤ 13 by decide) enough
  | add view key value filled fits =>
      exact length_finish_add_le address view key value fits

theorem FilledWithin.addPairs {budget : Nat}
    {builder : DataPageBuilder Bytes} (filled : FilledWithin budget builder)
    (pairs : List Pair)
    (fits : ∀ count pair, pairs[count]? = some pair →
      (builder.addPairs (pairs.take count)).estimateSize +
        estimateEntrySize pair.1 pair.2 ≤ budget) :
    FilledWithin budget (builder.addPairs pairs) := by
  induction pairs using List.reverseRecOn with
  | nil => exact filled
  | append_singleton pairs pair induction =>
      rw [addPairs_concat]
      refine .add id pair.1 pair.2 (induction fun count earlier found => ?_) ?_
      · have before := (List.getElem?_eq_some_iff.mp found).1
        have same := fits count earlier
          ((List.getElem?_append_left before).trans found)
        rwa [List.take_append_of_le_length (Nat.le_of_lt before)] at same
      · have own := fits pairs.length pair (by simp)
        rwa [List.take_left] at own

/-- Pages filled within a budget keep to it, and the estimate is an upper
bound of the page's size in every state. -/
theorem estimateSize_sound [Inhabited SliceType] {budget : Nat}
    (enough : 13 ≤ budget) (builder : DataPageBuilder SliceType)
    (address : Nat) :
    (FilledWithin budget builder →
        (builder.finish address).buffer.length ≤ budget) ∧
      (builder.finish address).buffer.length ≤ builder.estimateSize := by
  constructor
  · intro filled
    exact Nat.le_of_add_right_le (filled.length_finish_le enough address)
  · rw [estimateSize_eq address]
    exact Nat.le_add_right _ _

/-- Eighteen pairs with two restart points, in the smallest budget their
estimates allow. -/
theorem estimateSize_sound_twoGroups :
    ((ofTypeAndSize .dataPage 0).addPairs
      ((List.range 18).map fun index =>
        ([0x61, UInt8.ofNat index], [0x07])) |>.finish 0).buffer.length ≤
          117 := by
  refine (estimateSize_sound (show 13 ≤ 117 by decide) _ 0).1
    (FilledWithin.addPairs (.fresh .dataPage 0) _ fun count pair found => ?_)
  have inside := (List.getElem?_eq_some_iff.mp found).1
  have fits : ∀ count, count < 18 →
      ((ofTypeAndSize .dataPage 0).addPairs (((List.range 18).map fun index =>
        (([0x61, UInt8.ofNat index], [0x07]) : Pair)).take
          count)).estimateSize + 9 ≤ 117 := by
    decide +kernel
  have sizes : estimateEntrySize pair.1 pair.2 = 9 := by
    have listed : pair ∈ (List.range 18).map fun index =>
        (([0x61, UInt8.ofNat index], [0x07]) : Pair) :=
      List.mem_of_getElem? found
    obtain ⟨index, -, rfl⟩ := List.mem_map.mp listed
    have one : varintLength 1 = 1 := by decide +kernel
    have two : varintLength 2 = 1 := by decide +kernel
    simp [estimateEntrySize, one, two]
  rw [sizes]
  exact fits count (by simpa using inside)

end DataPageBuilder

end LiteLsm
