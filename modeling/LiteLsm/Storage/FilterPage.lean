import LiteLsm.Common.FilterPolicy
import LiteLsm.Storage.Page
import Mathlib.Logic.Function.Iterate

/-!
# Filter pages

The builder pools the keys of data blocks and makes one filter for every
window of `2^11` bytes of block offsets.  A filter is generated when a block
starts in a later window, and for the last window when the page is finished.
Behind the filters stand their offsets, the position of the first of these
offsets, and the number `11`.

A reader finds the filters of a page through the words behind them.  Address
`0` of its memory is the first byte of the page.
-/

namespace LiteLsm

open Checked

/-- `kFilterBaseLg` -/
def filterBaseLg : Nat := 11

/-- `kFilterBase` -/
def filterBase : Nat := 1 <<< filterBaseLg

structure FilterPageBuilder extends PageBuilder where
  policy : FilterPolicy
  /-- Flattened key contents -/
  keys : Bytes
  /-- Starting index in `keys` of each key -/
  start : List Nat
  filterOffsets : List UInt32

namespace FilterPageBuilder

/-- The page size is not considered for filter pages: it is `-1`. -/
def construct (policy : FilterPolicy) : FilterPageBuilder :=
  { footer := { type := .filterPage }
    pageSize := 2 ^ 64 - 1
    buffer := []
    policy
    keys := []
    start := []
    filterOffsets := [] }

/-- The list of keys from the flattened key structure; it exists for one call
of `GenerateFilter` only. -/
def tmpKeys (builder : FilterPageBuilder) : List Bytes :=
  let start := builder.start ++ [builder.keys.length]
  (List.range builder.start.length).map fun i =>
    let base := start.getD i 0
    let length := start.getD (i + 1) 0 - base
    (builder.keys.drop base).take length

/-- Append a filter of the pooled keys.  `CreateFilter` receives their number
as an `int`. -/
def generateFilter (builder : FilterPageBuilder) : FilterPageBuilder :=
  let numKeys := builder.start.length
  let filterOffsets :=
    builder.filterOffsets ++ [UInt32.ofNat builder.buffer.length]
  if numKeys = 0 then
    -- no keys for this filter
    { builder with filterOffsets }
  else
    let n : Int := (numKeys : Int).bmod (2 ^ 32)
    { builder with
      filterOffsets
      buffer :=
        builder.policy.createFilter (builder.tmpKeys.take n.toNat)
          builder.buffer
      keys := []
      start := [] }

def startBlock (blockOffset : UInt64) (builder : FilterPageBuilder) :
    Program FilterPageBuilder :=
  let filterIndex := blockOffset.toNat / filterBase
  if builder.filterOffsets.length ≤ filterIndex then
    whileLoop
      (fun (builder : FilterPageBuilder) =>
        pure (decide (builder.filterOffsets.length < filterIndex)))
      (fun builder => pure builder.generateFilter)
      filterIndex builder
  else
    fault .assertion

def addKey (key : Bytes) (builder : FilterPageBuilder) : FilterPageBuilder :=
  { builder with
    start := builder.start ++ [builder.keys.length]
    keys := builder.keys ++ key }

/-- Generate the last filter, append the offsets and the encoding parameter,
then the footer. -/
def finish (address : Nat) (builder : FilterPageBuilder) :
    FilterPageBuilder :=
  let builder :=
    if builder.start.isEmpty then builder else builder.generateFilter
  let arrayOffset := UInt32.ofNat builder.buffer.length
  let buffer := builder.filterOffsets.foldl putFixed32Le builder.buffer
  let buffer := putFixed32Le buffer arrayOffset
  let buffer := buffer ++ [UInt8.ofNat filterBaseLg]
  { builder with
    toPageBuilder :=
      PageBuilder.finish address { builder.toPageBuilder with buffer } }

@[simp] theorem length_generateFilter (builder : FilterPageBuilder) :
    builder.generateFilter.filterOffsets.length =
      builder.filterOffsets.length + 1 := by
  simp only [generateFilter]
  split <;> exact List.length_append

@[simp] theorem footer_generateFilter (builder : FilterPageBuilder) :
    builder.generateFilter.footer = builder.footer := by
  simp only [generateFilter]
  split <;> rfl

theorem length_iterate (builder : FilterPageBuilder) (count : Nat) :
    (generateFilter^[count] builder).filterOffsets.length =
      builder.filterOffsets.length + count := by
  induction count with
  | zero => rfl
  | succ count induction =>
      rw [Function.iterate_succ_apply', length_generateFilter, induction]
      rfl

theorem footer_iterate (builder : FilterPageBuilder) (count : Nat) :
    (generateFilter^[count] builder).footer = builder.footer := by
  induction count with
  | zero => rfl
  | succ count induction =>
      rw [Function.iterate_succ_apply', footer_generateFilter, induction]

/-- `StartBlock` generates one filter for each window it passes. -/
theorem startBlock_eq {builder : FilterPageBuilder} {blockOffset : UInt64}
    (started : builder.filterOffsets.length ≤
      blockOffset.toNat / filterBase) :
    builder.startBlock blockOffset =
      pure (generateFilter^[blockOffset.toNat / filterBase -
        builder.filterOffsets.length] builder) := by
  rw [startBlock, if_pos started]
  apply whileLoop_follows fun count => generateFilter^[count] builder
  · omega
  · intro count before
    rw [length_iterate, decide_eq_true (by omega)]
  · intro count before
    rw [Function.iterate_succ_apply']
  · rw [length_iterate, decide_eq_false (by omega)]

end FilterPageBuilder

structure FilterPageReader where
  memory : Memory
  policy : FilterPolicy
  /-- Pointer to filter data -/
  data : Nat
  /-- Pointer to beginning of offset array -/
  offset : Nat
  /-- Number of entries in offset array -/
  num : Nat
  baseLg : UInt64

namespace FilterPageReader

/-- The constructor, on the slice of the given size at address `0`.  The
encoding parameter is a `char` converted to `size_t`. -/
def construct (policy : FilterPolicy) (memory : Memory) (size : Nat) :
    Program FilterPageReader := do
  let reader : FilterPageReader :=
    { memory, policy, data := 0, offset := 0, num := 0, baseLg := 0 }
  let n := (size + (2 ^ 64 - pageFooterSize)) % 2 ^ 64
  if n < 5 then
    pure reader
  else
    let last ← memory.readByte (n - 1)
    let reader :=
      { reader with baseLg := ⟨last.toBitVec.signExtend 64⟩ }
    let lastWord ← decodeFixed32LeAt memory (n - 5)
    if n - 5 < lastWord.toNat then
      pure reader
    else
      pure { reader with
        offset := reader.data + lastWord.toNat
        num := (n - 5 - lastWord.toNat) / 4 }

/-- Shifts are those of a 64-bit processor: the encoding parameter counts
modulo `64`. -/
def keyMayMatch (reader : FilterPageReader) (blockOffset : UInt64)
    (key : Bytes) : Program Bool := do
  let index := (blockOffset >>> reader.baseLg).toNat
  if index < reader.num then
    let start ← decodeFixed32LeAt reader.memory (reader.offset + index * 4)
    let limit ← decodeFixed32LeAt reader.memory (reader.offset + index * 4 + 4)
    if start ≤ limit ∧ limit.toNat ≤ reader.offset - reader.data then
      let filter ← reader.memory.read (reader.data + start.toNat)
        (limit.toNat - start.toNat)
      pure (reader.policy.keyMayMatch key filter)
    else if start = limit then
      -- empty filters do not match any keys
      pure false
    else
      pure true
  else
    -- errors are treated as potential matches
    pure true

end FilterPageReader

end LiteLsm
