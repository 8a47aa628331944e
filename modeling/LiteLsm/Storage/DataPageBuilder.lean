import LiteLsm.Storage.Page
import Mathlib.Data.List.Induction

/-!
# Building data pages

The builder compresses each key against the first key of its group of sixteen
entries and remembers where each group starts.  It keeps that first key as a
slice, not as bytes.  How slices denote bytes is therefore a parameter of
every operation: `view` gives the bytes behind a slice at the time of the
call.  For callers which keep every key in a buffer of its own, slices are the
bytes themselves and `view` is the identity.
-/

namespace LiteLsm

/-- `RestartPointInterval` -/
def restartPointInterval : Nat := 16

structure DataPageBuilder (SliceType : Type) extends PageBuilder where
  recordNum : Nat
  lastRestartPointKey : SliceType
  restartPointOffsets : List UInt32

namespace DataPageBuilder

/-- The number of leading bytes two keys share: the loop stops at the first
difference or at the end of the shorter key. -/
def commonPrefix : Bytes → Bytes → Nat
  | keyByte :: key, lastByte :: lastKey =>
      if keyByte = lastByte then commonPrefix key lastKey + 1 else 0
  | _, _ => 0

variable {SliceType : Type}

/-- `DataPageBuilder(PageType type, size_t pageSize)`.  The constructor stores
`PAGESIZE`, whatever size it is given. -/
def ofTypeAndSize [Inhabited SliceType] (type : PageType) (_pageSize : Nat) :
    DataPageBuilder SliceType :=
  { footer := { type := type }
    pageSize := defaultPageSize
    buffer := []
    recordNum := 0
    lastRestartPointKey := default
    restartPointOffsets := [] }

/-- What a page is expected to grow by.  No sum of sizes of objects in memory
reaches `2^64`. -/
def estimateEntrySize (key value : Bytes) : Nat :=
  varintLength (UInt64.ofNat key.length) + key.length +
    varintLength (UInt64.ofNat value.length) + value.length + 4

/-- The remembered key is not reset. -/
def reset (builder : DataPageBuilder SliceType) : DataPageBuilder SliceType :=
  { builder with
    buffer := []
    restartPointOffsets := []
    recordNum := 0 }

def estimateSize (builder : DataPageBuilder SliceType) : Nat :=
  builder.buffer.length + pageFooterSize + 4 +
    (1 + builder.restartPointOffsets.length) * 4

/-- Lengths are narrowed to 32 bits where they are encoded, and so is the
offset of a restart point where it is stored. -/
def add (view : SliceType → Bytes) (key value : SliceType)
    (builder : DataPageBuilder SliceType) : DataPageBuilder SliceType :=
  if builder.recordNum % restartPointInterval = 0 then
    let prefixLen := 0
    let suffixLen := (view key).length
    { builder with
      lastRestartPointKey := key
      restartPointOffsets :=
        builder.restartPointOffsets ++ [UInt32.ofNat builder.buffer.length]
      buffer := appendEntry builder.buffer prefixLen suffixLen
      recordNum := builder.recordNum + 1 }
  else
    let prefixLen := commonPrefix (view key) (view builder.lastRestartPointKey)
    let suffixLen := (view key).length - prefixLen
    { builder with
      buffer := appendEntry builder.buffer prefixLen suffixLen
      recordNum := builder.recordNum + 1 }
where
  /-- The header of three varints, then the key's suffix and the value. -/
  appendEntry (buffer : Bytes) (prefixLen suffixLen : Nat) : Bytes :=
    let buffer := putVarint32 buffer (UInt32.ofNat prefixLen)
    let buffer := putVarint32 buffer (UInt32.ofNat suffixLen)
    let buffer := putVarint32 buffer (UInt32.ofNat (view value).length)
    buffer ++ ((view key).drop prefixLen).take suffixLen ++ view value

/-- Append the restart offsets and their number, then the footer. -/
def finish (address : Nat) (builder : DataPageBuilder SliceType) :
    DataPageBuilder SliceType :=
  let buffer := builder.restartPointOffsets.foldl
    (fun buffer offset => buffer ++ encodeFixed32Le offset) builder.buffer
  let restartPointOffsetsSize :=
    UInt32.ofNat builder.restartPointOffsets.length
  let buffer := buffer ++ encodeFixed32Le restartPointOffsetsSize
  { builder with
    toPageBuilder :=
      PageBuilder.finish address { builder.toPageBuilder with buffer } }

end DataPageBuilder

/-- A key and its value. -/
abbrev Pair := Bytes × Bytes

namespace DataPageBuilder

/-- Add pairs whose keys and values each stay in a buffer of their own. -/
def addPairs (builder : DataPageBuilder Bytes) (pairs : List Pair) :
    DataPageBuilder Bytes :=
  pairs.foldl (fun builder pair => builder.add id pair.1 pair.2) builder

theorem addPairs_concat (builder : DataPageBuilder Bytes)
    (pairs : List Pair) (pair : Pair) :
    builder.addPairs (pairs ++ [pair]) =
      (builder.addPairs pairs).add id pair.1 pair.2 := by
  simp [addPairs]

theorem footer_add {SliceType : Type} (view : SliceType → Bytes)
    (key value : SliceType) (builder : DataPageBuilder SliceType) :
    (builder.add view key value).footer = builder.footer := by
  rw [add]
  split <;> rfl

theorem footer_addPairs (builder : DataPageBuilder Bytes)
    (pairs : List Pair) : (builder.addPairs pairs).footer = builder.footer := by
  induction pairs using List.reverseRecOn with
  | nil => rfl
  | append_singleton pairs pair induction =>
      rw [addPairs_concat, footer_add, induction]

/-- The page a fresh builder finishes at the given address after the pairs
were added to it. -/
def dataPage (type : PageType) (pageSize address : Nat)
    (pairs : List Pair) : Bytes :=
  (((ofTypeAndSize type pageSize).addPairs pairs).finish address).buffer

end DataPageBuilder

end LiteLsm
