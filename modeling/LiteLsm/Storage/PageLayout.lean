import Mathlib.Order.Monotone.Basic
import LiteLsm.Storage.NewEntry

/-!
# The layout of a data page

This module says what a page built from a list of pairs looks like, entry by
entry, without mentioning the builder; `dataPage_eq` then shows that the
builder produces exactly that.  Entry `i` stores its key without the bytes it
shares with the first key of its group.  Lengths are narrowed to 32 bits, as
in the code; they are exact for pages whose entries stay below `2^28` bytes.
-/

namespace LiteLsm

namespace Layout

variable (pairs : List Pair)

def keyAt (index : Nat) : Bytes :=
  (pairs.getD index ([], [])).1

def valueAt (index : Nat) : Bytes :=
  (pairs.getD index ([], [])).2

/-- The first entry of the group an entry belongs to. -/
def groupStart (index : Nat) : Nat :=
  restartPointInterval * (index / restartPointInterval)

/-- How many bytes of a key are left out of its entry. -/
def sharedLength (index : Nat) : Nat :=
  if index % restartPointInterval = 0 then 0
  else DataPageBuilder.commonPrefix (keyAt pairs index)
    (keyAt pairs (groupStart index))

def suffixAt (index : Nat) : Bytes :=
  (keyAt pairs index).drop (sharedLength pairs index)

def headerAt (index : Nat) : Bytes :=
  header (sharedLength pairs index) (suffixAt pairs index).length
    (valueAt pairs index).length

def entryAt (index : Nat) : Bytes :=
  headerAt pairs index ++ suffixAt pairs index ++ valueAt pairs index

/-- The first `count` entries. -/
def entries (count : Nat) : Bytes :=
  (List.range count).flatMap (entryAt pairs)

def offsetAt (index : Nat) : Nat :=
  (entries pairs index).length

/-- The number of groups, which is the number of restart points. -/
def groupCount : Nat :=
  (pairs.length + (restartPointInterval - 1)) / restartPointInterval

def restartOffsets : List UInt32 :=
  (List.range (groupCount pairs)).map fun group =>
    UInt32.ofNat (offsetAt pairs (restartPointInterval * group))

/-- What follows the entries: the restart offsets and their number. -/
def restartArray : Bytes :=
  (restartOffsets pairs).flatMap encodeFixed32Le ++
    encodeFixed32Le (UInt32.ofNat (groupCount pairs))

/-- The entry bytes from the page's first key on. -/
def firstKeyBytes : Bytes :=
  (entries pairs pairs.length).drop (headerAt pairs 0).length

/-- The key an entry has if its shared bytes are taken from the first key of
the page. -/
def rebuiltKey (index : Nat) : Bytes :=
  (firstKeyBytes pairs).take (sharedLength pairs index) ++
    suffixAt pairs index

theorem sharedLength_le (index : Nat) :
    sharedLength pairs index ≤ (keyAt pairs (groupStart index)).length := by
  unfold sharedLength
  split
  · exact Nat.zero_le _
  · exact commonPrefix_le _ _

theorem sharedLength_le_own (index : Nat) :
    sharedLength pairs index ≤ (keyAt pairs index).length := by
  unfold sharedLength
  split
  · exact Nat.zero_le _
  · exact commonPrefix_le_left _ _

theorem sharedLength_groupStart (index : Nat) :
    sharedLength pairs (groupStart index) = 0 := by
  unfold sharedLength groupStart
  rw [if_pos (Nat.mul_mod_right _ _)]

/-- The bytes left out of an entry stand at the start of its group's first
key. -/
theorem take_sharedLength (index : Nat) :
    (keyAt pairs index).take (sharedLength pairs index) =
      (keyAt pairs (groupStart index)).take (sharedLength pairs index) := by
  unfold sharedLength
  split
  · simp
  · exact take_commonPrefix _ _

theorem take_append_suffixAt (index : Nat) :
    (keyAt pairs index).take (sharedLength pairs index) ++
      suffixAt pairs index = keyAt pairs index :=
  List.take_append_drop _ _

theorem keyAt_end : keyAt pairs pairs.length = [] := by
  simp [keyAt]

theorem valueAt_end : valueAt pairs pairs.length = [] := by
  simp [valueAt]

theorem sharedLength_end : sharedLength pairs pairs.length = 0 := by
  simp [sharedLength, keyAt_end, DataPageBuilder.commonPrefix]

theorem suffixAt_end : suffixAt pairs pairs.length = [] := by
  simp [suffixAt, keyAt_end]

theorem entryAt_end : entryAt pairs pairs.length = [0, 0, 0] := by
  rw [entryAt, headerAt, sharedLength_end, suffixAt_end, valueAt_end]
  decide

@[simp] theorem offsetAt_zero : offsetAt pairs 0 = 0 :=
  rfl

theorem entries_succ (count : Nat) :
    entries pairs (count + 1) =
      entries pairs count ++ entryAt pairs count := by
  simp [entries, List.range_succ]

theorem offsetAt_succ (index : Nat) :
    offsetAt pairs (index + 1) =
      offsetAt pairs index + (entryAt pairs index).length := by
  simp [offsetAt, entries_succ]

theorem three_le_length_headerAt (index : Nat) :
    3 ≤ (headerAt pairs index).length := by
  simp only [headerAt, header, List.length_append]
  have first := length_encodeVarint32_pos
    (UInt32.ofNat (sharedLength pairs index))
  have second := length_encodeVarint32_pos
    (UInt32.ofNat (suffixAt pairs index).length)
  have third := length_encodeVarint32_pos
    (UInt32.ofNat (valueAt pairs index).length)
  omega

theorem length_entryAt (index : Nat) :
    (entryAt pairs index).length =
      (headerAt pairs index).length + (suffixAt pairs index).length +
        (valueAt pairs index).length := by
  simp [entryAt, Nat.add_assoc]

theorem offsetAt_add_three_le (index : Nat) :
    offsetAt pairs index + 3 ≤ offsetAt pairs (index + 1) := by
  have atLeast := three_le_length_headerAt pairs index
  rw [offsetAt_succ, length_entryAt]
  omega

theorem offsetAt_strictMono : StrictMono (offsetAt pairs) := by
  apply strictMono_nat_of_lt_succ
  intro index
  exact Nat.lt_of_lt_of_le (by omega) (offsetAt_add_three_le pairs index)

@[simp] theorem offsetAt_lt_offsetAt {left right : Nat} :
    offsetAt pairs left < offsetAt pairs right ↔ left < right :=
  (offsetAt_strictMono pairs).lt_iff_lt

@[simp] theorem offsetAt_inj {left right : Nat} :
    offsetAt pairs left = offsetAt pairs right ↔ left = right :=
  (offsetAt_strictMono pairs).injective.eq_iff

@[simp] theorem offsetAt_eq_zero {index : Nat} :
    offsetAt pairs index = 0 ↔ index = 0 :=
  (offsetAt_strictMono pairs).injective.eq_iff' rfl

theorem three_mul_le_offsetAt (index : Nat) :
    3 * index ≤ offsetAt pairs index := by
  induction index with
  | zero => simp
  | succ index induction =>
      have step := offsetAt_add_three_le pairs index
      omega

theorem entries_split {index count : Nat} (below : index < count) :
    ∃ after, entries pairs count =
      entries pairs index ++ entryAt pairs index ++ after := by
  induction count with
  | zero => omega
  | succ count induction =>
      rcases Nat.lt_succ_iff_lt_or_eq.mp below with earlier | rfl
      · obtain ⟨after, split⟩ := induction earlier
        refine ⟨after ++ entryAt pairs count, ?_⟩
        rw [entries_succ, split]
        simp only [List.append_assoc]
      · exact ⟨[], by rw [entries_succ, List.append_nil]⟩

private theorem entries_firstKey (nonempty : pairs ≠ []) :
    ∃ after, entries pairs pairs.length =
      headerAt pairs 0 ++ (keyAt pairs 0 ++ after) := by
  obtain ⟨after, split⟩ :=
    entries_split pairs (List.length_pos_iff.mpr nonempty)
  have whole : suffixAt pairs 0 = keyAt pairs 0 := rfl
  refine ⟨valueAt pairs 0 ++ after, ?_⟩
  rw [split, entryAt, whole]
  simp [entries]

theorem entries_eq_append_firstKeyBytes (nonempty : pairs ≠ []) :
    entries pairs pairs.length =
      headerAt pairs 0 ++ firstKeyBytes pairs := by
  obtain ⟨after, first⟩ := entries_firstKey pairs nonempty
  rw [firstKeyBytes, first, List.drop_left]

/-- Enough bytes follow the first key's header for every entry's shared
length: some group start stores at least that many. -/
theorem sharedLength_le_firstKeyBytes {index : Nat}
    (within : index ≤ pairs.length) :
    sharedLength pairs index ≤ (firstKeyBytes pairs).length := by
  rcases Nat.lt_or_eq_of_le within with below | rfl
  rotate_left
  · rw [sharedLength_end]
    exact Nat.zero_le _
  have nonempty : pairs ≠ [] :=
    List.ne_nil_of_length_pos (Nat.zero_lt_of_lt below)
  have total := congrArg List.length
    (entries_eq_append_firstKeyBytes pairs nonempty)
  rw [List.length_append] at total
  have startBelow : groupStart index < pairs.length :=
    Nat.lt_of_le_of_lt (Nat.mul_div_le index restartPointInterval) below
  have monotone := (offsetAt_strictMono pairs).monotone
  have startEnds : offsetAt pairs (groupStart index + 1) ≤
      offsetAt pairs pairs.length := monotone startBelow
  have startEntry := offsetAt_succ pairs (groupStart index)
  have startKey :
      suffixAt pairs (groupStart index) = keyAt pairs (groupStart index) := by
    rw [suffixAt, sharedLength_groupStart, List.drop_zero]
  have shared := sharedLength_le pairs index
  rw [length_entryAt, startKey] at startEntry
  have whole : (entries pairs pairs.length).length =
      offsetAt pairs pairs.length := rfl
  rcases Nat.eq_zero_or_pos (groupStart index) with first | later
  · rw [first] at startEntry startEnds shared
    rw [offsetAt_zero] at startEntry
    omega
  · have firstEnds :
        offsetAt pairs (0 + 1) ≤ offsetAt pairs (groupStart index) :=
      monotone later
    have firstEntry := offsetAt_succ pairs 0
    rw [length_entryAt, offsetAt_zero] at firstEntry
    omega

/-- The first key's bytes restore a key exactly if the bytes left out of its
entry stand there. -/
theorem rebuiltKey_eq_iff (index : Nat) :
    rebuiltKey pairs index = keyAt pairs index ↔
      (keyAt pairs index).take (sharedLength pairs index) <+:
        firstKeyBytes pairs := by
  have length : ((keyAt pairs index).take (sharedLength pairs index)).length =
      sharedLength pairs index :=
    List.length_take_of_le (sharedLength_le_own pairs index)
  calc
    rebuiltKey pairs index = keyAt pairs index ↔
        rebuiltKey pairs index =
          (keyAt pairs index).take (sharedLength pairs index) ++
            suffixAt pairs index := by rw [take_append_suffixAt]
    _ ↔ (firstKeyBytes pairs).take (sharedLength pairs index) =
        (keyAt pairs index).take (sharedLength pairs index) :=
      List.append_left_inj _
    _ ↔ _ := by
      rw [List.prefix_iff_eq_take, length]
      exact eq_comm

theorem groupCount_le : groupCount pairs ≤ pairs.length := by
  unfold groupCount restartPointInterval
  omega

theorem lt_groupCount_iff {group : Nat} :
    group < groupCount pairs ↔
      restartPointInterval * group < pairs.length := by
  unfold groupCount restartPointInterval
  omega

theorem groupCount_pos (nonempty : pairs ≠ []) : 0 < groupCount pairs := by
  rw [lt_groupCount_iff, Nat.mul_zero]
  exact List.length_pos_iff.mpr nonempty

section Concat

variable {pairs} (pair : Pair)

theorem getD_concat_of_lt {index : Nat} (below : index < pairs.length) :
    (pairs ++ [pair]).getD index ([], []) = pairs.getD index ([], []) := by
  simp [List.getElem?_append_left below]

theorem keyAt_concat_of_lt {index : Nat} (below : index < pairs.length) :
    keyAt (pairs ++ [pair]) index = keyAt pairs index := by
  rw [keyAt, keyAt, getD_concat_of_lt pair below]

theorem valueAt_concat_of_lt {index : Nat} (below : index < pairs.length) :
    valueAt (pairs ++ [pair]) index = valueAt pairs index := by
  rw [valueAt, valueAt, getD_concat_of_lt pair below]

theorem groupStart_le (index : Nat) : groupStart index ≤ index :=
  Nat.mul_div_le index restartPointInterval

theorem entryAt_concat_of_lt {index : Nat} (below : index < pairs.length) :
    entryAt (pairs ++ [pair]) index = entryAt pairs index := by
  have startBelow : groupStart index < pairs.length :=
    Nat.lt_of_le_of_lt (groupStart_le index) below
  simp only [entryAt, headerAt, suffixAt, sharedLength,
    keyAt_concat_of_lt pair below, keyAt_concat_of_lt pair startBelow,
    valueAt_concat_of_lt pair below]

theorem entries_concat_of_le {count : Nat} (within : count ≤ pairs.length) :
    entries (pairs ++ [pair]) count = entries pairs count := by
  induction count with
  | zero => rfl
  | succ count induction =>
      rw [entries_succ, entries_succ, induction (Nat.le_of_succ_le within),
        entryAt_concat_of_lt pair within]

theorem offsetAt_concat_of_le {index : Nat} (within : index ≤ pairs.length) :
    offsetAt (pairs ++ [pair]) index = offsetAt pairs index := by
  rw [offsetAt, offsetAt, entries_concat_of_le pair within]

theorem keyAt_concat_last :
    keyAt (pairs ++ [pair]) pairs.length = pair.1 := by
  simp [keyAt]

theorem valueAt_concat_last :
    valueAt (pairs ++ [pair]) pairs.length = pair.2 := by
  simp [valueAt]

theorem restartOffsets_concat_eq_map :
    (List.range (groupCount pairs)).map (fun group =>
        UInt32.ofNat (offsetAt (pairs ++ [pair])
          (restartPointInterval * group))) =
      restartOffsets pairs := by
  apply List.map_congr_left
  intro group member
  have start := (lt_groupCount_iff pairs).mp (List.mem_range.mp member)
  rw [offsetAt_concat_of_le pair (Nat.le_of_lt start)]

theorem restartOffsets_concat_of_start
    (start : pairs.length % restartPointInterval = 0) :
    restartOffsets (pairs ++ [pair]) =
      restartOffsets pairs ++ [UInt32.ofNat (offsetAt pairs pairs.length)] := by
  have grown : groupCount (pairs ++ [pair]) = groupCount pairs + 1 := by
    simp only [groupCount, restartPointInterval, List.length_append,
      List.length_singleton] at start ⊢
    omega
  have last : restartPointInterval * groupCount pairs = pairs.length := by
    simp only [groupCount, restartPointInterval] at start ⊢
    omega
  rw [restartOffsets, grown, List.range_succ, List.map_append,
    restartOffsets_concat_eq_map, List.map_singleton, last,
    offsetAt_concat_of_le pair (Nat.le_refl _)]

theorem restartOffsets_concat_of_inside
    (inside : pairs.length % restartPointInterval ≠ 0) :
    restartOffsets (pairs ++ [pair]) = restartOffsets pairs := by
  have same : groupCount (pairs ++ [pair]) = groupCount pairs := by
    simp only [groupCount, restartPointInterval, List.length_append,
      List.length_singleton] at inside ⊢
    omega
  rw [restartOffsets, same, restartOffsets_concat_eq_map]

end Concat

/-- The state of a fresh builder after the given pairs were added. -/
structure Built (pairs : List Pair) (builder : DataPageBuilder Bytes) :
    Prop where
  buffer : builder.buffer = entries pairs pairs.length
  recordNum : builder.recordNum = pairs.length
  restartPointOffsets : builder.restartPointOffsets = restartOffsets pairs
  lastRestartPointKey : pairs ≠ [] →
    builder.lastRestartPointKey = keyAt pairs (groupStart (pairs.length - 1))

theorem Built.add {pairs : List Pair} {builder : DataPageBuilder Bytes}
    (built : Built pairs builder) (pair : Pair) :
    Built (pairs ++ [pair]) (builder.add id pair.1 pair.2) := by
  have length : (pairs ++ [pair]).length = pairs.length + 1 :=
    List.length_append
  have remembered (inside : pairs.length % restartPointInterval ≠ 0) :
      builder.lastRestartPointKey =
        keyAt (pairs ++ [pair]) (groupStart pairs.length) := by
    have nonempty : pairs ≠ [] := by
      rintro rfl
      exact inside rfl
    have below : groupStart pairs.length < pairs.length := by
      simp only [groupStart, restartPointInterval] at inside ⊢
      omega
    have sameGroup :
        groupStart (pairs.length - 1) = groupStart pairs.length := by
      simp only [groupStart, restartPointInterval] at inside ⊢
      omega
    rw [keyAt_concat_of_lt pair below, ← sameGroup]
    exact built.lastRestartPointKey nonempty
  have stored : DataPageBuilder.prefixLength id pair.1 builder =
      sharedLength (pairs ++ [pair]) pairs.length := by
    rw [DataPageBuilder.prefixLength, sharedLength, built.recordNum,
      keyAt_concat_last]
    split
    · rfl
    · rename_i inside
      rw [remembered inside]
      rfl
  have entry : DataPageBuilder.newEntry id pair.1 pair.2 builder =
      entryAt (pairs ++ [pair]) pairs.length := by
    rw [DataPageBuilder.newEntry, DataPageBuilder.suffixLength, stored,
      entryAt, headerAt, suffixAt, keyAt_concat_last, valueAt_concat_last,
      List.length_drop]
    rfl
  refine ⟨?_, ?_, ?_, fun _ => ?_⟩
  · rw [DataPageBuilder.buffer_add, entry, length, entries_succ,
      entries_concat_of_le pair (Nat.le_refl _), built.buffer]
  · rw [DataPageBuilder.recordNum_add, built.recordNum, length]
  · rw [DataPageBuilder.restartPointOffsets_add, built.recordNum,
      built.restartPointOffsets, built.buffer]
    split
    · rename_i start
      exact (restartOffsets_concat_of_start pair start).symm
    · rename_i inside
      exact (restartOffsets_concat_of_inside pair inside).symm
  · rw [DataPageBuilder.lastRestartPointKey_add, built.recordNum, length,
      Nat.add_sub_cancel]
    split
    · rename_i start
      have ownGroup : groupStart pairs.length = pairs.length :=
        Nat.mul_div_cancel' (Nat.dvd_of_mod_eq_zero start)
      rw [ownGroup, keyAt_concat_last]
    · rename_i inside
      exact remembered inside

theorem built_addPairs (type : PageType) (pageSize : Nat)
    (pairs : List Pair) :
    Built pairs
      ((DataPageBuilder.ofTypeAndSize type pageSize).addPairs pairs) := by
  induction pairs using List.reverseRecOn with
  | nil => exact ⟨rfl, rfl, rfl, fun nonempty => absurd rfl nonempty⟩
  | append_singleton pairs pair induction =>
      rw [DataPageBuilder.addPairs_concat]
      exact induction.add pair

/-- A data page is its entries, its restart array, the type byte and the
checksum of all that. -/
theorem dataPage_sections (type : PageType) (pageSize address : Nat)
    (pairs : List Pair) :
    DataPageBuilder.dataPage type pageSize address pairs =
      entries pairs pairs.length ++ restartArray pairs ++ [type.toByte] ++
        encodeFixed32Le (Crc32c.value address
          (entries pairs pairs.length ++ restartArray pairs ++
            [type.toByte])) := by
  have built := built_addPairs type pageSize pairs
  have typed := DataPageBuilder.footer_addPairs
    (DataPageBuilder.ofTypeAndSize type pageSize) pairs
  generalize finished :
    (DataPageBuilder.ofTypeAndSize type pageSize).addPairs pairs = builder
    at built typed
  have count : (restartOffsets pairs).length = groupCount pairs := by
    simp [restartOffsets]
  have array : builder.restartPointOffsets.foldl
      (fun buffer offset => buffer ++ encodeFixed32Le offset) builder.buffer ++
        encodeFixed32Le (UInt32.ofNat builder.restartPointOffsets.length) =
      entries pairs pairs.length ++ restartArray pairs := by
    rw [List.foldl_append_eq_append, built.buffer, built.restartPointOffsets,
      count, restartArray, List.flatMap_def, List.append_assoc]
  have byte : builder.footer.type.toByte = type.toByte := by rw [typed]; rfl
  rw [← array, ← byte, DataPageBuilder.dataPage, finished]
  exact buffer_finish address _

theorem dataPage_eq (type : PageType) (pageSize address : Nat)
    (pairs : List Pair) :
    ∃ footer, footer.length = pageFooterSize ∧
      DataPageBuilder.dataPage type pageSize address pairs =
        entries pairs pairs.length ++ restartArray pairs ++ footer := by
  rw [dataPage_sections, List.append_assoc]
  exact ⟨_, by simp [pageFooterSize], rfl⟩

theorem length_restartArray :
    (restartArray pairs).length = 4 * (groupCount pairs + 1) := by
  rw [restartArray, List.length_append, length_words,
    length_encodeFixed32Le, Nat.mul_add]
  simp [restartOffsets]

end Layout

end LiteLsm
