import LiteLsm.Storage.FilterLookup
import LiteLsm.Util.BloomExactness

/-!
# Filter pages with Bloom filters

The builder accepts blocks as long as their windows do not decrease, and stops
with a failing assertion at the first one that goes back.  A lookup in the
finished page, under any policy with the same hash function, says exactly
whether every probe of the key hits a probe of a key of the window.
-/

namespace LiteLsm

open Checked FilterPage

namespace FilterPageBuilder

theorem length_foldl_addKey (keys : List Bytes) (builder : FilterPageBuilder) :
    (keys.foldl (fun builder key => builder.addKey key)
      builder).filterOffsets.length = builder.filterOffsets.length := by
  induction keys generalizing builder with
  | nil => rfl
  | cons key keys induction => exact induction (builder.addKey key)

/-- A block is accepted unless its window is behind the filters already made.
There are then as many filters as windows before it. -/
theorem addBlock_onward {block : Block} {builder : FilterPageBuilder}
    (onward : builder.filterOffsets.length ≤ block.window) :
    ∃ next, builder.addBlock block = pure next ∧
      next.filterOffsets.length = block.window := by
  have started := startBlock_eq onward
  have accepted : builder.addBlock block =
      pure (block.keys.foldl (fun builder key => builder.addKey key)
        (generateFilter^[block.window - builder.filterOffsets.length]
          builder)) := by
    rw [addBlock, started, pure_bind]
    rfl
  refine ⟨_, accepted, ?_⟩
  rw [length_foldl_addKey, length_iterate]
  exact Nat.add_sub_of_le onward

theorem addBlock_back {block : Block} {builder : FilterPageBuilder}
    (back : block.window < builder.filterOffsets.length) :
    builder.addBlock block = fault .assertion := by
  rw [addBlock, startBlock]
  exact congrArg (· >>= _) (if_neg (Nat.not_le.mpr back))

/-- The blocks go on from a window: none starts before it, and their own
windows never decrease. -/
def Onward (window : Nat) (blocks : List Block) : Prop :=
  (∀ block, block ∈ blocks → window ≤ block.window) ∧ WindowsOrdered blocks

theorem onward_cons {window : Nat} {block : Block} {blocks : List Block} :
    Onward window (block :: blocks) ↔
      window ≤ block.window ∧ Onward block.window blocks := by
  rw [Onward, WindowsOrdered, List.pairwise_cons, List.forall_mem_cons]
  constructor
  · rintro ⟨⟨first, -⟩, later, ordered⟩
    exact ⟨first, later, ordered⟩
  · rintro ⟨first, later, ordered⟩
    exact ⟨⟨first, fun other member =>
      Nat.le_trans first (later other member)⟩, later, ordered⟩

theorem addBlocks_onward {builder : FilterPageBuilder} {blocks : List Block}
    (onward : Onward builder.filterOffsets.length blocks) :
    ∃ final, builder.addBlocks blocks = pure final := by
  induction blocks generalizing builder with
  | nil => exact ⟨builder, rfl⟩
  | cons block blocks induction =>
      obtain ⟨here, later⟩ := onward_cons.mp onward
      obtain ⟨next, accepted, count⟩ := addBlock_onward here
      rw [addBlocks, accepted, pure_bind]
      exact induction (by rwa [count])

theorem addBlocks_back {builder : FilterPageBuilder} {blocks : List Block}
    (back : ¬Onward builder.filterOffsets.length blocks) :
    builder.addBlocks blocks = fault .assertion := by
  induction blocks generalizing builder with
  | nil => exact absurd ⟨by simp, List.Pairwise.nil⟩ back
  | cons block blocks induction =>
      rw [onward_cons, not_and_or] at back
      rcases Nat.lt_or_ge block.window builder.filterOffsets.length with
        before | here
      · rw [addBlocks, addBlock_back before, fault_bind]
      · obtain ⟨next, accepted, count⟩ := addBlock_onward here
        rw [addBlocks, accepted, pure_bind]
        apply induction
        rw [count]
        exact back.resolve_left (not_not_intro here)

/-- The assertion of `StartBlock` holds throughout a sequence of blocks exactly
if no block starts in a window before that of an earlier block, and the
sequence ends in the failing assertion otherwise.  The order of offsets within
a window does not matter. -/
theorem addBlocks_returns_iff (policy : FilterPolicy) (blocks : List Block) :
    ((∃ builder, (construct policy).addBlocks blocks = pure builder) ↔
        WindowsOrdered blocks) ∧
      ((construct policy).addBlocks blocks = fault .assertion ↔
        ¬WindowsOrdered blocks) := by
  have onward : Onward (construct policy).filterOffsets.length blocks ↔
      WindowsOrdered blocks :=
    and_iff_right fun block _ => Nat.zero_le block.window
  by_cases ordered : WindowsOrdered blocks
  · obtain ⟨final, run⟩ := addBlocks_onward (onward.mpr ordered)
    refine ⟨iff_of_true ⟨final, run⟩ ordered,
      iff_of_false ?_ (not_not_intro ordered)⟩
    rw [run]
    exact pure_ne_fault final .assertion
  · have stopped := addBlocks_back (mt onward.mp ordered)
    refine ⟨iff_of_false ?_ ordered, iff_of_true stopped ordered⟩
    rintro ⟨builder, run⟩
    exact pure_ne_fault builder .assertion (run.symm.trans stopped)

end FilterPageBuilder

namespace BloomFilterPolicy

variable {policy reader : BloomFilterPolicy}

theorem positions_ne_nil (policy : BloomFilterPolicy) (count : Nat)
    (key : Bytes) : policy.positions count key ≠ [] := by
  obtain ⟨others, probes⟩ := Nat.exists_eq_add_of_le policy.oneProbe
  rw [positions, probes, Nat.add_comm, BloomFilterPolicy.probes]
  exact List.cons_ne_nil _ _

/-- The positions of the key are covered by those of the listed keys. -/
def Covers (policy : BloomFilterPolicy) (keys : List Bytes) (key : Bytes) :
    Prop :=
  ∀ position, position ∈ policy.positions keys.length key →
    ∃ other, other ∈ keys ∧ position ∈ policy.positions keys.length other

theorem keyMayMatch_windowFilter_iff (sameHash : reader.hash = policy.hash)
    {keys : List Bytes} (bounded : keys.length * policy.bitsPerKey < 2 ^ 63)
    (key : Bytes) :
    reader.keyMayMatch key (windowFilter policy.toFilterPolicy keys) = true ↔
      policy.Covers keys key := by
  by_cases none : keys = []
  · subst none
    obtain ⟨position, member⟩ :=
      List.exists_mem_of_ne_nil _ (policy.positions_ne_nil 0 key)
    refine iff_of_false (by simp [windowFilter, keyMayMatch]) fun covered => ?_
    obtain ⟨_, absent, _⟩ := covered position member
    cases absent
  · have filter : policy.toFilterPolicy.filterOf keys =
        policy.newFilter keys :=
      policy.createFilter_eq keys []
    rw [windowFilter, if_neg none, filter]
    exact keyMayMatch_newFilter_iff (policy.arrayBytes_pos bounded) sameHash
      key

end BloomFilterPolicy

namespace FilterPage

/-- A finished page answers for every offset and key whether the positions of
the key are covered by the keys of the blocks in its window; behind the last
filter it says yes.  The reader's policy may have another number of bits and
probes. -/
theorem bloomPage_exact (policy : BloomFilterPolicy)
    (smallKeys : policy.bitsPerKey < 2 ^ 31) {blocks : List Block}
    (ordered : WindowsOrdered blocks)
    (fewKeys : (blocks.flatMap Block.keys).length < 2 ^ 31) (address : Nat)
    (small : (filters policy.toFilterPolicy blocks
      (filterCount blocks)).flatten.length < 2 ^ 32) :
    ∃ builder,
      (FilterPageBuilder.construct policy.toFilterPolicy).addBlocks blocks =
        pure builder ∧
      ∀ other : BloomFilterPolicy, other.hash = policy.hash →
        ∃ reader,
          FilterPageReader.construct other.toFilterPolicy
              (Memory.enclosed (builder.finish address).buffer)
              (builder.finish address).buffer.length = pure reader ∧
          ∀ (offset : UInt64) (key : Bytes), ∃ found,
            reader.keyMayMatch offset key = pure found ∧
            (found = true ↔
              filterCount blocks ≤ offset.toNat / filterBase ∨
                policy.Covers
                  (windowKeys blocks (offset.toNat / filterBase)) key) := by
  have few (window : Nat) : (windowKeys blocks window).length < 2 ^ 31 := by
    have bound := length_windowKeys_le blocks [] window
    rw [List.append_nil] at bound
    exact Nat.lt_of_le_of_lt bound fewKeys
  have bounded (window : Nat) :
      (windowKeys blocks window).length * policy.bitsPerKey < 2 ^ 63 :=
    calc
      (windowKeys blocks window).length * policy.bitsPerKey ≤
          2 ^ 31 * 2 ^ 31 :=
        Nat.mul_le_mul (Nat.le_of_lt (few window)) (Nat.le_of_lt smallKeys)
      _ < 2 ^ 63 := by decide
  obtain ⟨builder, run, sorted⟩ :=
    addBlocks_from (sorted_construct policy.toFilterPolicy) ordered fewKeys
  rw [List.nil_append] at sorted
  refine ⟨builder, run, fun other sameHash => ?_⟩
  obtain ⟨held, -⟩ := sorted.construct_finish (few _) address small
  obtain ⟨-, -, footer, footerSize, page⟩ := sorted.finish (few _) address
  have windows : (filters policy.toFilterPolicy blocks
      (filterCount blocks)).length ≤ 2 ^ 53 := by
    rw [length_filters]
    exact filterCount_le blocks
  have size : (builder.finish address).buffer.length =
      (contents (filters policy.toFilterPolicy blocks
        (filterCount blocks))).length + pageFooterSize := by
    rw [page, List.length_append, footerSize]
  have constructed := construct_eq other.toFilterPolicy held small windows size
  refine ⟨_, constructed, fun offset key => ⟨_,
    keyMayMatch_reader other.toFilterPolicy held small offset key, ?_⟩⟩
  rw [getElem?_filters]
  by_cases inside : offset.toNat / filterBase < filterCount blocks
  · rw [if_pos inside, or_iff_right (Nat.not_le.mpr inside)]
    exact BloomFilterPolicy.keyMayMatch_windowFilter_iff sameHash
      (bounded _) key
  · rw [if_neg inside]
    exact iff_of_true rfl (Or.inl (Nat.not_lt.mp inside))

/-- Two blocks of one window in the wrong order, read with another number of
bits per key. -/
theorem bloomPage_exact_backInWindow :
    ∃ builder reader,
      (FilterPageBuilder.construct
          (BloomFilterPolicy.construct bloomHash 10 6).toFilterPolicy).addBlocks
        [⟨100, [[0x66]]⟩, ⟨50, [[]]⟩] = pure builder ∧
      FilterPageReader.construct
          (BloomFilterPolicy.construct bloomHash 1 0).toFilterPolicy
          (Memory.enclosed (builder.finish 0).buffer)
          (builder.finish 0).buffer.length = pure reader ∧
      ∀ (offset : UInt64) (key : Bytes), ∃ found,
        reader.keyMayMatch offset key = pure found ∧
        (found = true ↔
          1 ≤ offset.toNat / filterBase ∨
            (BloomFilterPolicy.construct bloomHash 10 6).Covers
              (windowKeys [⟨100, [[0x66]]⟩, ⟨50, [[]]⟩]
                (offset.toNat / filterBase)) key) := by
  have ordered : WindowsOrdered [⟨100, [[0x66]]⟩, ⟨50, [[]]⟩] := by decide
  obtain ⟨builder, run, read⟩ := bloomPage_exact
    (BloomFilterPolicy.construct bloomHash 10 6) (by decide) ordered
    (by decide) 0 (by decide +kernel)
  obtain ⟨reader, constructed, answers⟩ :=
    read (BloomFilterPolicy.construct bloomHash 1 0) rfl
  exact ⟨builder, reader, run, constructed, answers⟩

end FilterPage

end LiteLsm
