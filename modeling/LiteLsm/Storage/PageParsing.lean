import LiteLsm.Storage.DataPageReader
import LiteLsm.Storage.PageLayout

/-!
# Parsing built pages

`OpenPage` is a memory that holds a page built from a list of pairs, and
`cursor` an iterator over it: the iterator stands at an entry and believes to
be in a group, which need not be the group of that entry.  The functions of
the iterator are evaluated here on such cursors.

Behind the last entry stands the first restart offset, which is zero.  Its
bytes read as the header of an empty entry, so parsing at the end position is
no special case.
-/

namespace LiteLsm

open Checked Layout DataPageIterator

theorem DataPageIterator.toSize_of_lt {number : Int} (nonneg : 0 ≤ number)
    (small : number < 2 ^ 64) : toSize number = number.toNat := by
  rw [toSize, Int.emod_eq_of_lt nonneg small]

/-- A memory with a page built from the pairs at address `0`. -/
structure OpenPage (pairs : List Pair) where
  memory : Memory
  dataSize : Nat
  comparator : Compare
  entriesHeld : memory.HoldsAt 0 (entries pairs pairs.length)
  arrayHeld : memory.HoldsAt (offsetAt pairs pairs.length)
    (restartArray pairs)
  small : offsetAt pairs pairs.length < 2 ^ 28

namespace OpenPage

variable {pairs : List Pair} (page : OpenPage pairs)

/-- The iterator at the entry `index` whose restart index is `group`. -/
def cursor (index group : Nat) : DataPageIterator :=
  { memory := page.memory
    dataSize := page.dataSize
    comparator := page.comparator
    cur := offsetAt pairs index
    restartPointNum := UInt32.ofNat (groupCount pairs)
    restartPointStart := offsetAt pairs pairs.length
    curRestartPoint := group }

theorem valid_cursor (index group : Nat) :
    (page.cursor index group).valid = decide (index < pairs.length) :=
  decide_eq_decide.mpr (offsetAt_lt_offsetAt pairs)

theorem offsetAt_le {index : Nat} (within : index ≤ pairs.length) :
    offsetAt pairs index ≤ offsetAt pairs pairs.length :=
  (offsetAt_strictMono pairs).monotone within

theorem offsetAt_lt (page : OpenPage pairs) {index : Nat}
    (within : index ≤ pairs.length) : offsetAt pairs index < 2 ^ 28 :=
  Nat.lt_of_le_of_lt (offsetAt_le within) page.small

theorem groupCount_lt (page : OpenPage pairs) :
    groupCount pairs < 2 ^ 27 := by
  have atLeast := three_mul_le_offsetAt pairs pairs.length
  have fewer := groupCount_le pairs
  have small := page.small
  omega

theorem length_entryAt_lt (page : OpenPage pairs) {index : Nat}
    (within : index ≤ pairs.length) :
    (entryAt pairs index).length < 2 ^ 28 := by
  rcases Nat.lt_or_eq_of_le within with below | rfl
  · have fits := offsetAt_succ pairs index
    have bound : offsetAt pairs (index + 1) < 2 ^ 28 := page.offsetAt_lt below
    omega
  · rw [entryAt_end]
    decide

theorem lengths_lt (page : OpenPage pairs) {index : Nat}
    (within : index ≤ pairs.length) :
    sharedLength pairs index < 2 ^ 28 ∧
      (suffixAt pairs index).length < 2 ^ 28 ∧
      (valueAt pairs index).length < 2 ^ 28 := by
  have own := page.length_entryAt_lt within
  have start := page.length_entryAt_lt
    (Nat.le_trans (groupStart_le index) within)
  have shared := sharedLength_le pairs index
  have wholeKey :
      suffixAt pairs (groupStart index) = keyAt pairs (groupStart index) := by
    rw [suffixAt, sharedLength_groupStart, List.drop_zero]
  rw [length_entryAt] at own start
  rw [wholeKey] at start
  omega

theorem restartOffsetHeld (page : OpenPage pairs) {group : Nat}
    (below : group < groupCount pairs) :
    page.memory.HoldsAt (offsetAt pairs pairs.length + 4 * group)
      (encodeFixed32Le (UInt32.ofNat
        (offsetAt pairs (restartPointInterval * group)))) := by
  have held := page.arrayHeld
  rw [restartArray, Memory.holdsAt_append] at held
  have bounded : group < (restartOffsets pairs).length := by
    simpa [restartOffsets] using below
  have slot := holdsAt_words held.1 bounded
  simpa [restartOffsets] using slot

theorem entryHeld (page : OpenPage pairs) (nonempty : pairs ≠ [])
    {index : Nat} (within : index ≤ pairs.length) :
    page.memory.HoldsAt (offsetAt pairs index) (entryAt pairs index) := by
  rcases Nat.lt_or_eq_of_le within with below | rfl
  · obtain ⟨after, split⟩ := entries_split pairs below
    have held := page.entriesHeld
    rw [split, Memory.holdsAt_append, Memory.holdsAt_append,
      Nat.zero_add] at held
    exact held.1.2
  · -- the first restart offset
    have zeros := page.restartOffsetHeld (groupCount_pos pairs nonempty)
    have bytes : (encodeFixed32Le (UInt32.ofNat 0)).take 3 = [0, 0, 0] := by
      decide
    rw [entryAt_end, ← bytes]
    exact Memory.holdsAt_take zeros 3

theorem readLength_of_holdsAt {iterator : DataPageIterator}
    {cur length : Nat} (small : length < 2 ^ 28)
    (held : iterator.memory.HoldsAt cur
      (encodeVarint32 (UInt32.ofNat length))) :
    iterator.readLength cur = pure (some (UInt32.ofNat length)) := by
  have exact : (UInt32.ofNat length).toNat = length := by
    rw [UInt32.toNat_ofNat']
    omega
  exact getVarint32_encode held
    (length_encodeVarint32_le_four (by rw [exact]; exact small))

/-- The header of an entry, read field by field from its address on. -/
structure ReadsHeader (iterator : DataPageIterator) (cur sharedLen suffixLen
    valueLen : Nat) : Prop where
  shared : iterator.readLength cur = pure (some (UInt32.ofNat sharedLen))
  suffix : iterator.readLength
    (cur + varintLength (UInt32.ofNat sharedLen).toUInt64) =
      pure (some (UInt32.ofNat suffixLen))
  value : iterator.readLength
    (cur + varintLength (UInt32.ofNat sharedLen).toUInt64 +
      varintLength (UInt32.ofNat suffixLen).toUInt64) =
        pure (some (UInt32.ofNat valueLen))

theorem ReadsHeader.getEntrySize {iterator : DataPageIterator}
    {cur sharedLen suffixLen valueLen : Nat}
    (reads : ReadsHeader iterator cur sharedLen suffixLen valueLen)
    (suffixFits : suffixLen < 2 ^ 32) (valueFits : valueLen < 2 ^ 32) :
    iterator.getEntrySize cur =
      pure ((header sharedLen suffixLen valueLen).length + suffixLen +
        valueLen) := by
  have suffixExact : (UInt32.ofNat suffixLen).toNat = suffixLen := by
    rw [UInt32.toNat_ofNat']
    exact Nat.mod_eq_of_lt suffixFits
  have valueExact : (UInt32.ofNat valueLen).toNat = valueLen := by
    rw [UInt32.toNat_ofNat']
    exact Nat.mod_eq_of_lt valueFits
  simp only [DataPageIterator.getEntrySize, reads.shared, reads.suffix,
    reads.value, pure_bind, Option.getDM_some, Option.getD_some, suffixExact,
    valueExact]
  simp only [varintLength_toUInt64, header, List.length_append]
  congr 1
  omega

theorem readsHeader (nonempty : pairs ≠ []) {index : Nat}
    (within : index ≤ pairs.length) (place group : Nat) :
    ReadsHeader (page.cursor place group) (offsetAt pairs index)
      (sharedLength pairs index) (suffixAt pairs index).length
      (valueAt pairs index).length := by
  obtain ⟨sharedSmall, suffixSmall, valueSmall⟩ := page.lengths_lt within
  have held := page.entryHeld nonempty within
  rw [entryAt, Memory.holdsAt_append, Memory.holdsAt_append, headerAt, header,
    Memory.holdsAt_append, Memory.holdsAt_append] at held
  obtain ⟨⟨⟨⟨sharedHeld, suffixHeld⟩, valueHeld⟩, -⟩, -⟩ := held
  refine ⟨readLength_of_holdsAt sharedSmall sharedHeld, ?_, ?_⟩
  · rw [varintLength_toUInt64]
    exact readLength_of_holdsAt suffixSmall suffixHeld
  · rw [varintLength_toUInt64, varintLength_toUInt64, Nat.add_assoc,
      ← List.length_append]
    exact readLength_of_holdsAt valueSmall valueHeld

private theorem toNat_ofNat_of_lt {length : Nat} (small : length < 2 ^ 28) :
    (UInt32.ofNat length).toNat = length := by
  rw [UInt32.toNat_ofNat']
  omega

theorem length_headerAt (index : Nat) :
    (headerAt pairs index).length =
      varintLength (UInt32.ofNat (sharedLength pairs index)).toUInt64 +
        varintLength (UInt32.ofNat (suffixAt pairs index).length).toUInt64 +
        varintLength (UInt32.ofNat (valueAt pairs index).length).toUInt64 := by
  simp only [headerAt, header, List.length_append, varintLength_toUInt64]

theorem getEntrySize_cursor (nonempty : pairs ≠ []) {index : Nat}
    (within : index ≤ pairs.length) (place group : Nat) :
    (page.cursor place group).getEntrySize (offsetAt pairs index) =
      pure (entryAt pairs index).length := by
  obtain ⟨-, suffixSmall, valueSmall⟩ := page.lengths_lt within
  have reads := page.readsHeader nonempty within place group
  rw [reads.getEntrySize (by omega) (by omega), length_entryAt, headerAt]

theorem getRestartPointOffset_cursor {slot : Nat}
    (within : slot ≤ groupCount pairs) (place group : Nat) :
    (page.cursor place group).getRestartPointOffset slot =
      offsetAt pairs pairs.length + 4 * slot := by
  have start := page.small
  have slots := page.groupCount_lt
  simp only [getRestartPointOffset, cursor, restartPointTypeSize]
  rw [toSize_of_lt (by omega) (by omega)]
  omega

theorem decodeFixed32LeAt_slot {slot : Nat} (below : slot < groupCount pairs)
    (place group : Nat) :
    decodeFixed32LeAt page.memory
        ((page.cursor place group).getRestartPointOffset slot) =
      pure (UInt32.ofNat (offsetAt pairs (restartPointInterval * slot))) := by
  rw [page.getRestartPointOffset_cursor (Nat.le_of_lt below)]
  exact decodeFixed32LeAt_of_holdsAt (page.restartOffsetHeld below)

theorem toNat_restartOffset (page : OpenPage pairs) {slot : Nat}
    (below : slot < groupCount pairs) :
    (UInt32.ofNat (offsetAt pairs (restartPointInterval * slot))).toNat =
      offsetAt pairs (restartPointInterval * slot) :=
  toNat_ofNat_of_lt
    (page.offsetAt_lt (Nat.le_of_lt ((lt_groupCount_iff pairs).mp below)))

theorem getRestartPointEntry_cursor {slot : Nat}
    (below : slot < groupCount pairs) (place group : Nat) :
    (page.cursor place group).getRestartPointEntry slot =
      pure (offsetAt pairs (restartPointInterval * slot)) := by
  have slotRead := page.decodeFixed32LeAt_slot below place group
  have exact := page.toNat_restartOffset below
  simp only [getRestartPointEntry, cursor] at slotRead ⊢
  rw [slotRead, pure_bind, exact]

/-- The slice of the first key of a group, which is stored in full. -/
def restartKey (pairs : List Pair) (group : Nat) : Slice :=
  { data := offsetAt pairs (restartPointInterval * group) +
      (headerAt pairs (restartPointInterval * group)).length
    size := (keyAt pairs (restartPointInterval * group)).length }

theorem sharedLength_restart (group : Nat) :
    sharedLength pairs (restartPointInterval * group) = 0 := by
  rw [sharedLength, if_pos (Nat.mul_mod_right _ _)]

theorem suffixAt_restart (group : Nat) :
    suffixAt pairs (restartPointInterval * group) =
      keyAt pairs (restartPointInterval * group) := by
  rw [suffixAt, sharedLength_restart, List.drop_zero]

theorem getRestartPointKey_cursor {slot : Nat}
    (below : slot < groupCount pairs) (place group : Nat) :
    (page.cursor place group).getRestartPointKey slot =
      pure (restartKey pairs slot) := by
  have inside := (lt_groupCount_iff pairs).mp below
  have nonempty : pairs ≠ [] :=
    List.ne_nil_of_length_pos (Nat.zero_lt_of_lt inside)
  obtain ⟨-, suffixSmall, -⟩ := page.lengths_lt (Nat.le_of_lt inside)
  have reads := page.readsHeader nonempty (Nat.le_of_lt inside) place group
  rw [suffixAt_restart] at reads suffixSmall
  simp only [getRestartPointKey,
    page.getRestartPointEntry_cursor below place group, reads.shared,
    reads.suffix, reads.value, pure_bind, Option.getDM_some,
    Option.getD_some, toNat_ofNat_of_lt suffixSmall, restartKey,
    length_headerAt, suffixAt_restart]
  simp only [Nat.add_assoc]

theorem value_cursor (nonempty : pairs ≠ []) {index : Nat}
    (within : index ≤ pairs.length) (group : Nat) :
    (page.cursor index group).value = pure (valueAt pairs index) := by
  obtain ⟨-, suffixSmall, valueSmall⟩ := page.lengths_lt within
  have reads := page.readsHeader nonempty within index group
  have held := page.entryHeld nonempty within
  rw [entryAt, Memory.holdsAt_append, List.length_append, length_headerAt]
    at held
  have copied := Memory.read_of_holdsAt held.2
  have place : (page.cursor index group).cur = offsetAt pairs index := rfl
  simp only [value, place, reads.shared, reads.suffix, reads.value, pure_bind,
    Option.getDM_some, toNat_ofNat_of_lt suffixSmall,
    toNat_ofNat_of_lt valueSmall]
  simp only [Nat.add_assoc] at copied ⊢
  exact copied

/-- `key` takes the leading bytes from the first key of whatever group the
iterator believes to be in. -/
theorem key_cursor {index group : Nat} (within : index ≤ pairs.length)
    (below : group < groupCount pairs) :
    (page.cursor index group).key = (do
      let leading ← page.memory.readThrough (restartKey pairs group)
        (sharedLength pairs index)
      pure (leading ++ suffixAt pairs index)) := by
  have inside := (lt_groupCount_iff pairs).mp below
  have nonempty : pairs ≠ [] :=
    List.ne_nil_of_length_pos (Nat.zero_lt_of_lt inside)
  obtain ⟨sharedSmall, suffixSmall, -⟩ := page.lengths_lt within
  have reads := page.readsHeader nonempty within index group
  have held := page.entryHeld nonempty within
  rw [entryAt, List.append_assoc, Memory.holdsAt_append,
    Memory.holdsAt_append, length_headerAt] at held
  have copied := Memory.read_of_holdsAt held.2.1
  have place : (page.cursor index group).cur = offsetAt pairs index := rfl
  have belief : (page.cursor index group).curRestartPoint = group := rfl
  have same : (page.cursor index group).memory = page.memory := rfl
  simp only [key, place, belief, same, reads.shared, reads.suffix,
    reads.value, pure_bind, Option.getDM_some,
    page.getRestartPointKey_cursor below, toNat_ofNat_of_lt sharedSmall,
    toNat_ofNat_of_lt suffixSmall]
  simp only [Nat.add_assoc] at copied ⊢
  simp only [copied, pure_bind]

theorem restartKeyHeld {group : Nat} (below : group < groupCount pairs) :
    page.memory.HoldsAt (restartKey pairs group).data
      (keyAt pairs (restartPointInterval * group)) := by
  have inside := (lt_groupCount_iff pairs).mp below
  have nonempty : pairs ≠ [] :=
    List.ne_nil_of_length_pos (Nat.zero_lt_of_lt inside)
  have held := page.entryHeld nonempty (Nat.le_of_lt inside)
  rw [entryAt, List.append_assoc, Memory.holdsAt_append,
    Memory.holdsAt_append, suffixAt_restart] at held
  exact held.2.1

theorem key_cursor_of_le {index group : Nat} (within : index ≤ pairs.length)
    (below : group < groupCount pairs)
    (longEnough : sharedLength pairs index ≤
      (keyAt pairs (restartPointInterval * group)).length) :
    (page.cursor index group).key =
      pure ((keyAt pairs (restartPointInterval * group)).take
        (sharedLength pairs index) ++ suffixAt pairs index) := by
  have held := Memory.holdsAt_take (page.restartKeyHeld below)
    (sharedLength pairs index)
  have length : ((keyAt pairs (restartPointInterval * group)).take
      (sharedLength pairs index)).length = sharedLength pairs index :=
    List.length_take_of_le longEnough
  have copied := Memory.readThrough_of_holdsAt
    (fun _ => Nat.le_trans (Nat.le_of_eq length) longEnough) held
  rw [length] at copied
  rw [page.key_cursor within below, copied, pure_bind]

/-- In its own group an entry shows the key it was added with. -/
theorem key_cursor_ownGroup {index : Nat} (below : index < pairs.length) :
    (page.cursor index (index / restartPointInterval)).key =
      pure (keyAt pairs index) := by
  have inside : index / restartPointInterval < groupCount pairs :=
    (lt_groupCount_iff pairs).mpr
      (Nat.lt_of_le_of_lt (groupStart_le index) below)
  have shown := page.key_cursor_of_le (Nat.le_of_lt below) inside
    (sharedLength_le pairs index)
  rw [shown]
  congr 1
  calc
    (keyAt pairs (groupStart index)).take (sharedLength pairs index) ++
        suffixAt pairs index =
        (keyAt pairs index).take (sharedLength pairs index) ++
          suffixAt pairs index := by rw [take_sharedLength]
    _ = keyAt pairs index := take_append_suffixAt pairs index

/-- Where slices are enforced, `key` never copies more than the restart key
has to offer. -/
theorem key_cursor_of_lt (guarded : page.memory.guarded = true)
    {index group : Nat} (within : index ≤ pairs.length)
    (below : group < groupCount pairs)
    (tooShort : (keyAt pairs (restartPointInterval * group)).length <
      sharedLength pairs index) :
    (page.cursor index group).key =
      fault (.pastSlice
        (keyAt pairs (restartPointInterval * group)).length
        (sharedLength pairs index)) := by
  rw [page.key_cursor within below,
    Memory.readThrough_past guarded tooShort, fault_bind]
  rfl

/-- Through a bare pointer it copies whatever follows the restart key. -/
theorem key_cursor_of_held (unguarded : page.memory.guarded = false)
    {index group : Nat} (within : index ≤ pairs.length)
    (below : group < groupCount pairs) {leading : Bytes}
    (length : leading.length = sharedLength pairs index)
    (held : page.memory.HoldsAt (restartKey pairs group).data leading) :
    (page.cursor index group).key =
      pure (leading ++ suffixAt pairs index) := by
  have copied := Memory.readThrough_of_holdsAt
    (fun guarded => absurd guarded (by simp [unguarded])) held
  rw [length] at copied
  rw [page.key_cursor within below, copied, pure_bind]

/-- An iterator that still believes to be in the first group takes the leading
bytes of every key from the page's first key and what follows it. -/
theorem key_cursor_firstGroup (unguarded : page.memory.guarded = false)
    (nonempty : pairs ≠ []) {index : Nat} (within : index ≤ pairs.length) :
    (page.cursor index 0).key = pure (rebuiltKey pairs index) := by
  have held := page.entriesHeld
  rw [entries_eq_append_firstKeyBytes pairs nonempty, Memory.holdsAt_append]
    at held
  have start : (restartKey pairs 0).data = 0 + (headerAt pairs 0).length := by
    rw [restartKey, Nat.mul_zero, offsetAt_zero]
  rw [← start] at held
  exact page.key_cursor_of_held unguarded within
    (groupCount_pos pairs nonempty)
    (List.length_take_of_le (sharedLength_le_firstKeyBytes pairs within))
    (Memory.holdsAt_take held.2 _)

theorem restartPointBelow_cursor (target : Bytes) {slot : Nat}
    (below : slot < groupCount pairs) (place group : Nat) :
    (page.cursor place group).restartPointBelow target slot =
      pure (decide (page.comparator
        (keyAt pairs (restartPointInterval * slot)) target < 0)) := by
  have copied : page.memory.readThrough (restartKey pairs slot)
      (restartKey pairs slot).size =
        pure (keyAt pairs (restartPointInterval * slot)) :=
    Memory.readThrough_of_holdsAt (fun _ => Nat.le_refl _)
      (page.restartKeyHeld below)
  have same : (page.cursor place group).memory = page.memory := rfl
  simp only [restartPointBelow, page.getRestartPointKey_cursor below,
    pure_bind, same, copied]
  rfl

end OpenPage

section Opening

variable {pairs : List Pair} {memory : Memory}

theorem length_dataPage (type : PageType) (pageSize address : Nat)
    (small : offsetAt pairs pairs.length < 2 ^ 28) :
    (DataPageBuilder.dataPage type pageSize address pairs).length =
        offsetAt pairs pairs.length + 4 * (groupCount pairs + 1) +
          pageFooterSize ∧
      groupCount pairs < 2 ^ 28 := by
  obtain ⟨footer, length, layout⟩ :=
    dataPage_eq type pageSize address pairs
  have atLeast := three_mul_le_offsetAt pairs pairs.length
  have fewer := groupCount_le pairs
  constructor
  · rw [layout, List.length_append, List.length_append, length,
      length_restartArray, offsetAt]
  · omega

variable {type : PageType} {pageSize address : Nat}

private theorem holdsAt_dataPage
    (small : offsetAt pairs pairs.length < 2 ^ 28)
    (loaded : memory.bytes =
      DataPageBuilder.dataPage type pageSize address pairs) :
    memory.HoldsAt 0 (entries pairs pairs.length) ∧
      memory.HoldsAt (offsetAt pairs pairs.length) (restartArray pairs) := by
  obtain ⟨footer, -, layout⟩ := dataPage_eq type pageSize address pairs
  obtain ⟨length, groups⟩ := length_dataPage type pageSize address small
  have short : memory.bytes.length ≤ 2 ^ 64 := by
    rw [loaded, length, pageFooterSize]
    omega
  have held := Memory.holdsAt_bytes short
  rw [loaded, layout, Memory.holdsAt_append, Memory.holdsAt_append,
    Nat.zero_add] at held
  exact held.1

/-- A memory whose buffer is a built page. -/
def openPage (small : offsetAt pairs pairs.length < 2 ^ 28)
    (loaded : memory.bytes =
      DataPageBuilder.dataPage type pageSize address pairs)
    (comparator : Compare) : OpenPage pairs where
  memory
  dataSize := offsetAt pairs pairs.length + 4 * (groupCount pairs + 1)
  comparator
  entriesHeld := (holdsAt_dataPage small loaded).1
  arrayHeld := (holdsAt_dataPage small loaded).2
  small

/-- A fresh iterator stands at the first entry, in the first group. -/
theorem newIterator_eq (small : offsetAt pairs pairs.length < 2 ^ 28)
    (loaded : memory.bytes =
      DataPageBuilder.dataPage type pageSize address pairs)
    (comparator : Compare) :
    DataPageReader.newIterator memory
        (DataPageBuilder.dataPage type pageSize address pairs) comparator =
      pure ((openPage small loaded comparator).cursor 0 0) := by
  obtain ⟨length, groups⟩ := length_dataPage type pageSize address small
  have held := (holdsAt_dataPage small loaded).2
  rw [restartArray, Memory.holdsAt_append] at held
  have slots : ((restartOffsets pairs).flatMap encodeFixed32Le).length =
      4 * groupCount pairs := by
    have whole := length_restartArray pairs
    rw [restartArray, List.length_append, length_encodeFixed32Le] at whole
    omega
  have dataSize : toSize
      (((DataPageBuilder.dataPage type pageSize address pairs).length : Int) -
        pageFooterSize) =
      offsetAt pairs pairs.length + 4 * (groupCount pairs + 1) := by
    rw [length, toSize_of_lt (by omega) (by omega)]
    omega
  have counter : toSize
      (((offsetAt pairs pairs.length + 4 * (groupCount pairs + 1) : Nat) :
        Int) - innerCountTypeSize) =
      offsetAt pairs pairs.length + 4 * groupCount pairs := by
    simp only [innerCountTypeSize]
    rw [toSize_of_lt (by omega) (by omega)]
    omega
  have restartBytes :
      groupCount pairs * restartPointTypeSize % 2 ^ 32 =
        4 * groupCount pairs := by
    simp only [restartPointTypeSize]
    omega
  have start : toSize
      (((offsetAt pairs pairs.length + 4 * (groupCount pairs + 1) : Nat) :
        Int) - innerCountTypeSize - (4 * groupCount pairs : Nat)) =
      offsetAt pairs pairs.length := by
    simp only [innerCountTypeSize]
    rw [toSize_of_lt (by omega) (by omega)]
    omega
  have count := decodeFixed32LeAt_of_holdsAt held.2
  have exact : (UInt32.ofNat (groupCount pairs)).toNat = groupCount pairs := by
    rw [UInt32.toNat_ofNat']
    omega
  rw [slots] at count
  simp only [DataPageReader.newIterator, construct, dataSize, counter, count,
    pure_bind, exact, restartBytes, start]
  rfl

end Opening

end LiteLsm
