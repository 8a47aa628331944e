import LiteLsm.Common.Comparator
import LiteLsm.Storage.Page

/-!
# Iterating over data pages

The iterator checks no bounds.  It runs over a `Memory` whose address `0` is
the first byte of the page, and its arithmetic is that of the C++ types:
`size_t` sums are taken modulo `2^64`, the restart count is a `uint32_t`, and
the restart index is a signed integer.  `key_` and `value_` are cleared before
each use, so `key` and `value` simply return their contents.

Every loop is bounded: scans by a third of the entry bytes, since no parsed
entry is shorter than three bytes, and the binary search by the 32 bits of the
restart count.
-/

namespace LiteLsm

open Checked

structure DataPageIterator where
  /-- The memory around `data_.data()`, which is address `0`. -/
  memory : Memory
  /-- `data_.getSize()` -/
  dataSize : Nat
  comparator : Compare
  cur : Nat
  restartPointNum : UInt32
  restartPointStart : Nat
  curRestartPoint : Int

namespace DataPageIterator

/-- `sizeof(RestartPointType)`, and likewise for the inner lengths and
counts. -/
def restartPointTypeSize : Nat := 4

def innerLengthTypeSize : Nat := 4

def innerCountTypeSize : Nat := 4

/-- Conversion of a `uint32_t` to `int`. -/
def toInt (number : UInt32) : Int :=
  (number.toNat : Int).bmod (2 ^ 32)

/-- Conversion of a signed sum to `size_t`. -/
def toSize (number : Int) : Nat :=
  (number % (2 ^ 64 : Int)).toNat

/-- The constructor, on the slice of the given size at address `0`. -/
def construct (memory : Memory) (size : Nat) (comparator : Compare) :
    Program DataPageIterator := do
  let dataSize := toSize ((size : Int) - pageFooterSize)
  let restartPointNum ←
    decodeFixed32LeAt memory (toSize ((dataSize : Int) - innerCountTypeSize))
  -- the product is a `uint32_t`, the differences are `size_t`
  let restartBytes : Nat :=
    restartPointNum.toNat * restartPointTypeSize % 2 ^ 32
  pure
    { memory
      dataSize
      comparator
      cur := 0
      restartPointNum
      restartPointStart :=
        toSize ((dataSize : Int) - innerCountTypeSize - restartBytes)
      curRestartPoint := 0 }

variable (iterator : DataPageIterator)

def valid : Bool :=
  decide (iterator.cur < iterator.restartPointStart)

/-- One `get_varint32` on the window of four bytes at `cur`. -/
def readLength (cur : Nat) : Program (Option UInt32) :=
  getVarint32 iterator.memory cur innerLengthTypeSize

def getEntrySize (entryOffset : Nat) : Program Nat := do
  let cur := entryOffset
  -- key prefix length
  let length ← (← iterator.readLength cur).getDM unset
  let entrySize := varintLength length.toUInt64
  let cur := cur + varintLength length.toUInt64
  -- key suffix length; on failure the variable keeps its previous value
  let length := (← iterator.readLength cur).getD length
  let entrySize := entrySize + varintLength length.toUInt64 + length.toNat
  let cur := cur + varintLength length.toUInt64
  -- value length
  let length := (← iterator.readLength cur).getD length
  pure (entrySize + varintLength length.toUInt64 + length.toNat)

def getRestartPointOffset (restartPointIndex : Int) : Nat :=
  toSize (iterator.restartPointStart + restartPointIndex * restartPointTypeSize)

def getRestartPointEntry (restartPointIndex : Int) : Program Nat := do
  let entry ← decodeFixed32LeAt iterator.memory
    (iterator.getRestartPointOffset restartPointIndex)
  pure entry.toNat

/-- The slice of the key stored at a restart point. -/
def getRestartPointKey (restartPoint : Int) : Program Slice := do
  let entry ← iterator.getRestartPointEntry restartPoint
  let cur := entry
  let length ← (← iterator.readLength cur).getDM unset
  let cur := cur + varintLength length.toUInt64
  let keyLength ← (← iterator.readLength cur).getDM unset
  let cur := cur + varintLength keyLength.toUInt64
  let length := (← iterator.readLength cur).getD length
  let cur := cur + varintLength length.toUInt64
  pure { data := cur, size := keyLength.toNat }

def key : Program Bytes := do
  let cur := iterator.cur
  let prefixLength ← (← iterator.readLength cur).getDM unset
  let cur := cur + varintLength prefixLength.toUInt64
  let suffixLength ← (← iterator.readLength cur).getDM unset
  let cur := cur + varintLength suffixLength.toUInt64
  let valueLength ← (← iterator.readLength cur).getDM unset
  let cur := cur + varintLength valueLength.toUInt64
  let restartKey ← iterator.getRestartPointKey iterator.curRestartPoint
  let leading ← iterator.memory.readThrough restartKey prefixLength.toNat
  let suffix ← iterator.memory.read cur suffixLength.toNat
  pure (leading ++ suffix)

def value : Program Bytes := do
  let cur := iterator.cur
  let prefixLength ← (← iterator.readLength cur).getDM unset
  let cur := cur + varintLength prefixLength.toUInt64
  let suffixLength ← (← iterator.readLength cur).getDM unset
  let cur := cur + varintLength suffixLength.toUInt64
  let valueLength ← (← iterator.readLength cur).getDM unset
  let cur := cur + varintLength valueLength.toUInt64 + suffixLength.toNat
  iterator.memory.read cur valueLength.toNat

def seekToFirst : DataPageIterator :=
  { iterator with cur := 0, curRestartPoint := 0 }

/-- The loop `while (curEntry + getEntrySize(curEntry) < bound)` of
`seekToLast` and `prev`. -/
def scanBelow (bound curEntry : Nat) : Program Nat :=
  whileLoop
    (fun curEntry => do
      let size ← iterator.getEntrySize curEntry
      pure (decide ((curEntry + size) % 2 ^ 64 < bound)))
    (fun curEntry => do
      let size ← iterator.getEntrySize curEntry
      pure ((curEntry + size) % 2 ^ 64))
    (iterator.restartPointStart / 3 + 1) curEntry

def seekToLast : Program DataPageIterator := do
  let curRestartPoint := toInt (iterator.restartPointNum - 1)
  let curEntry ← decodeFixed32LeAt iterator.memory
    (iterator.getRestartPointOffset curRestartPoint)
  let curEntry ←
    iterator.scanBelow iterator.restartPointStart curEntry.toNat
  pure { iterator with cur := curEntry, curRestartPoint }

def next : Program DataPageIterator :=
  if iterator.valid then do
    let size ← iterator.getEntrySize iterator.cur
    let cur := (iterator.cur + size) % 2 ^ 64
    if cur = iterator.getRestartPointOffset (iterator.curRestartPoint + 1) then
      pure { iterator with
        cur, curRestartPoint := iterator.curRestartPoint + 1 }
    else
      pure { iterator with cur }
  else
    pure iterator

def prev : Program DataPageIterator :=
  if iterator.valid then
    if iterator.cur = 0 then
      pure { iterator with
        cur := iterator.restartPointStart
        curRestartPoint := toInt (iterator.restartPointNum - 1) }
    else do
      let entry ← iterator.getRestartPointEntry iterator.curRestartPoint
      let curRestartPoint :=
        if iterator.cur = entry then iterator.curRestartPoint - 1
        else iterator.curRestartPoint
      let curEntry ← iterator.getRestartPointEntry curRestartPoint
      let curEntry ← iterator.scanBelow iterator.cur curEntry
      pure { iterator with cur := curEntry, curRestartPoint }
  else
    pure iterator

/-- `comparator_->compare(getRestartPointKey(index), target) < 0` -/
def restartPointBelow (target : Bytes) (index : Int) : Program Bool := do
  let slice ← iterator.getRestartPointKey index
  let key ← iterator.memory.readThrough slice slice.size
  pure (decide (iterator.comparator key target < 0))

/-- The binary search of `seek`, up to its assertion. -/
def searchRestartPoint (target : Bytes) : Program Int := do
  let bounds ← whileLoop
    (fun (bounds : Int × Int) => pure (decide (bounds.1 < bounds.2)))
    (fun (bounds : Int × Int) => do
      let mid := (bounds.1 + bounds.2) / 2
      if ← iterator.restartPointBelow target mid then
        pure (mid + 1, bounds.2)
      else
        pure (bounds.1, mid))
    32 (0, toInt (iterator.restartPointNum - 1))
  if bounds.1 = bounds.2 then pure bounds.1 else fault .assertion

/-- The restart point whose entry `seek` starts from, once the search has
ended at `left`. -/
def startRestartPoint (target : Bytes) (left : Int) : Program Int :=
  if left = (iterator.restartPointNum - 1).toNat then do
    if ← iterator.restartPointBelow target left then
      -- every restart point is lower than the target
      pure left
    else
      pure (left - 1)
  else
    pure (left - 1)

/-- The final loop of `seek`, over the iterator and the key it shows. -/
def scanToTarget (target : Bytes) : Program DataPageIterator := do
  let key ← iterator.key
  let final ← whileLoop
    (fun (state : DataPageIterator × Bytes) =>
      pure (state.1.valid &&
        decide (state.1.comparator state.2 target < 0)))
    (fun (state : DataPageIterator × Bytes) => do
      let next ← state.1.next
      let key ← next.key
      pure (next, key))
    (iterator.restartPointStart / 3 + 1) (iterator, key)
  pure final.1

def seek (target : Bytes) : Program DataPageIterator :=
  if iterator.restartPointNum = 0 then
    -- empty page
    pure iterator
  else do
    let left ← iterator.searchRestartPoint target
    if left = 0 then
      pure iterator.seekToFirst
    else do
      let start ← iterator.startRestartPoint target left
      let cur ← decodeFixed32LeAt iterator.memory
        (iterator.getRestartPointOffset start)
      scanToTarget { iterator with cur := cur.toNat } target

end DataPageIterator

/-- `DataPageReader::newIterator` on a page at address `0`. -/
def DataPageReader.newIterator (memory : Memory) (page : Bytes)
    (comparator : Compare) : Program DataPageIterator :=
  DataPageIterator.construct memory page.length comparator

end LiteLsm
