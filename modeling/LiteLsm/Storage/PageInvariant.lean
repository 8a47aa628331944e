import LiteLsm.Storage.PageParsing
import Mathlib.Order.Bounds.Basic

/-!
# The invariant of a built page

Everything the operations of the reader silently rely on, for every list of
pairs: what the page consists of, what the constructor recovers from its end,
and where the entries found by following their sizes stand.
-/

namespace LiteLsm

open Checked Layout

namespace DataPageBuilder

theorem commonPrefix_isGreatest (key lastKey : Bytes) :
    IsGreatest {count | count ≤ key.length ∧ key.take count <+: lastKey}
      (commonPrefix key lastKey) := by
  constructor
  · refine ⟨commonPrefix_le_left key lastKey, ?_⟩
    rw [take_commonPrefix]
    exact List.take_prefix _ _
  · rintro count ⟨within, front⟩
    induction key generalizing count lastKey with
    | nil => exact Nat.le_trans within (Nat.zero_le _)
    | cons keyByte key induction =>
        cases count with
        | zero => exact Nat.zero_le _
        | succ count =>
            cases lastKey with
            | nil => simp at front
            | cons lastByte lastKey =>
                rw [List.take_succ_cons, List.cons_prefix_cons] at front
                rw [commonPrefix, if_pos front.1]
                exact Nat.succ_le_succ (induction lastKey
                  (Nat.le_of_succ_le_succ within) front.2)

end DataPageBuilder

/-- Follow `getEntrySize` from offset `0` up to the restart array.  The result
is the offset reached and the offsets of the entries visited. -/
def DataPageIterator.visitEntries (iterator : DataPageIterator)
    (passes : Nat) : Program (Nat × List Nat) :=
  whileLoop
    (fun (state : Nat × List Nat) =>
      pure (decide (state.1 < iterator.restartPointStart)))
    (fun (state : Nat × List Nat) => do
      let size ← iterator.getEntrySize state.1
      pure (state.1 + size, state.2 ++ [state.1]))
    passes (0, [])

/-- A page of the given pairs, and what an iterator finds in it. -/
structure PageInvariant (type : PageType) (address : Nat) (pairs : List Pair)
    (page : Bytes) (iterator : DataPageIterator) : Prop where
  /-- Entries, restart offsets, their count, the type byte, the checksum. -/
  sections : ∃ content,
    content = entries pairs pairs.length ++
      (restartOffsets pairs).flatMap encodeFixed32Le ++
      encodeFixed32Le (UInt32.ofNat ((pairs.length + 15) / 16)) ++
      [type.toByte] ∧
    page = content ++ encodeFixed32Le (Crc32c.value address content)
  restartPointNum :
    iterator.restartPointNum.toNat = (pairs.length + 15) / 16
  restartPointStart :
    iterator.restartPointStart = (entries pairs pairs.length).length
  /-- Exactly one pass for each pair, ending at the restart array. -/
  visited : ∀ passes, pairs.length ≤ passes →
    iterator.visitEntries passes =
      pure (iterator.restartPointStart,
        (List.range pairs.length).map (offsetAt pairs))
  /-- The restart array lists the offsets of entries 0, 16, 32, ... -/
  listed : (restartOffsets pairs).map UInt32.toNat =
    (List.range ((pairs.length + 15) / 16)).map fun group =>
      offsetAt pairs (16 * group)
  increasing :
    ((restartOffsets pairs).map UInt32.toNat).Pairwise (· < ·)
  restartEntry : ∀ group, group < (pairs.length + 15) / 16 →
    iterator.getRestartPointEntry group = pure (offsetAt pairs (16 * group))
  /-- Each entry stores its prefix length, the rest of the key and the value,
  and its header is parsed as such. -/
  parsed : ∀ index, index < pairs.length →
    OpenPage.ReadsHeader iterator (offsetAt pairs index)
      (sharedLength pairs index) (suffixAt pairs index).length
      (valueAt pairs index).length
  restartPrefix : ∀ index, index % 16 = 0 → sharedLength pairs index = 0
  longestPrefix : ∀ index, index % 16 ≠ 0 →
    IsGreatest
      {count | count ≤ (keyAt pairs index).length ∧
        (keyAt pairs index).take count <+: keyAt pairs (16 * (index / 16))}
      (sharedLength pairs index)
  suffix : ∀ index, suffixAt pairs index =
    (keyAt pairs index).drop (sharedLength pairs index)

section Invariant

variable {pairs : List Pair}

theorem OpenPage.visitEntries_cursor (page : OpenPage pairs)
    {passes : Nat} (enough : pairs.length ≤ passes) (place group : Nat) :
    (page.cursor place group).visitEntries passes =
      pure (offsetAt pairs pairs.length,
        (List.range pairs.length).map (offsetAt pairs)) := by
  apply whileLoop_follows
    (fun index => (offsetAt pairs index,
      (List.range index).map (offsetAt pairs))) enough
  · intro index below
    exact congrArg pure (decide_eq_true
      ((offsetAt_lt_offsetAt pairs).mpr below))
  · intro index below
    have nonempty : pairs ≠ [] :=
      List.ne_nil_of_length_pos (Nat.zero_lt_of_lt below)
    simp only [page.getEntrySize_cursor nonempty (Nat.le_of_lt below),
      pure_bind, ← offsetAt_succ, List.range_succ, List.map_append,
      List.map_singleton]
  · exact congrArg pure (decide_eq_false (Nat.lt_irrefl _))

theorem OpenPage.toNat_restartOffsets (page : OpenPage pairs) :
    (restartOffsets pairs).map UInt32.toNat =
      (List.range (groupCount pairs)).map fun group =>
        offsetAt pairs (16 * group) := by
  rw [restartOffsets, List.map_map]
  apply List.map_congr_left
  intro group member
  exact page.toNat_restartOffset (List.mem_range.mp member)

theorem pairwise_restartOffsets (pairs : List Pair) (count : Nat) :
    ((List.range count).map fun group =>
      offsetAt pairs (16 * group)).Pairwise (· < ·) := by
  rw [List.pairwise_map]
  apply List.Pairwise.imp _ List.pairwise_lt_range
  intro earlier later before
  exact (offsetAt_lt_offsetAt pairs).mpr (by omega)

/-- A finished page satisfies the invariant under any iterator opened on it,
whatever surrounds it in memory. -/
theorem dataPage_invariant (type : PageType) (pageSize address : Nat)
    (small : offsetAt pairs pairs.length < 2 ^ 28) {memory : Memory}
    (loaded : memory.bytes =
      DataPageBuilder.dataPage type pageSize address pairs)
    (comparator : Compare) :
    ∃ iterator,
      DataPageReader.newIterator memory
          (DataPageBuilder.dataPage type pageSize address pairs) comparator =
        pure iterator ∧
      PageInvariant type address pairs
        (DataPageBuilder.dataPage type pageSize address pairs) iterator := by
  let page := openPage small loaded comparator
  refine ⟨page.cursor 0 0, newIterator_eq small loaded comparator, ?_⟩
  constructor
  · refine ⟨_, rfl, ?_⟩
    rw [dataPage_sections, restartArray, ← List.append_assoc]
    rfl
  · have fewer : groupCount pairs < 2 ^ 32 :=
      Nat.lt_trans page.groupCount_lt (by decide)
    exact UInt32.toNat_ofNat'.trans (Nat.mod_eq_of_lt fewer)
  · rfl
  · intro passes enough
    exact page.visitEntries_cursor enough 0 0
  · exact page.toNat_restartOffsets
  · rw [page.toNat_restartOffsets]
    exact pairwise_restartOffsets pairs _
  · intro group below
    exact page.getRestartPointEntry_cursor below 0 0
  · intro index below
    have nonempty : pairs ≠ [] :=
      List.ne_nil_of_length_pos (Nat.zero_lt_of_lt below)
    exact page.readsHeader nonempty (Nat.le_of_lt below) 0 0
  · intro index start
    rw [sharedLength, restartPointInterval, if_pos start]
  · intro index inside
    rw [sharedLength, restartPointInterval, if_neg inside]
    exact DataPageBuilder.commonPrefix_isGreatest _ _
  · intro index
    rfl

/-- Forty pairs, in three groups of which the last one is not full. -/
def fortyPairs : List Pair :=
  (List.range 40).map fun index =>
    ([0x61, UInt8.ofNat (index / 8), UInt8.ofNat index], [0x07])

theorem dataPage_invariant_fortyPairs :
    ∃ iterator,
      DataPageReader.newIterator
          (.enclosed (DataPageBuilder.dataPage .dataPage 0 0 fortyPairs))
          (DataPageBuilder.dataPage .dataPage 0 0 fortyPairs) defaultCompare =
        pure iterator ∧
      PageInvariant .dataPage 0 fortyPairs
        (DataPageBuilder.dataPage .dataPage 0 0 fortyPairs) iterator :=
  dataPage_invariant .dataPage 0 0 (by decide +kernel) rfl defaultCompare

end Invariant

end LiteLsm
