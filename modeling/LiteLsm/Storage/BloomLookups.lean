import LiteLsm.Storage.FilterCorruption
import LiteLsm.Util.BloomMemory

/-!
# Lookups through pointers

A lookup hands the policy a slice of the page.  The Bloom policy reads single
bytes of that slice instead of all of it, so it returns wherever the whole
filter could be read, with the same answer.
-/

namespace LiteLsm

open Checked

namespace FilterPageReader

/-- `KeyMayMatch` with the Bloom policy, which reads the filter in place. -/
def keyMayMatchThrough (reader : FilterPageReader)
    (policy : BloomFilterPolicy) (blockOffset : UInt64) (key : Bytes) :
    Program Bool := do
  let index := (blockOffset >>> reader.baseLg).toNat
  if index < reader.num then
    let start ← decodeFixed32LeAt reader.memory (reader.offset + index * 4)
    let limit ← decodeFixed32LeAt reader.memory (reader.offset + index * 4 + 4)
    if start ≤ limit ∧ limit.toNat ≤ reader.offset - reader.data then
      policy.keyMayMatchAt reader.memory
        { data := reader.data + start.toNat
          size := limit.toNat - start.toNat } key
    else if start = limit then
      -- empty filters do not match any keys
      pure false
    else
      pure true
  else
    -- errors are treated as potential matches
    pure true

section Returns

variable {memory : Memory}

theorem decodeFixed32LeAt_cases (memory : Memory) (buf : Nat) :
    (∃ word, decodeFixed32LeAt memory buf = pure word) ∨
      ∃ reason, decodeFixed32LeAt memory buf = fault reason := by
  rcases memory.read_cases buf 4 with ⟨bytes, read, -⟩ | ⟨reason, read⟩
  · exact Or.inl ⟨_, by rw [decodeFixed32LeAt, read, pure_bind]⟩
  · exact Or.inr ⟨reason, by rw [decodeFixed32LeAt, read, fault_bind]⟩

/-- Where the whole filter can be read, the policy reads the bytes it needs. -/
theorem keyMayMatchThrough_of_keyMayMatch {reader : FilterPageReader}
    {policy : BloomFilterPolicy}
    (bloom : reader.policy = policy.toFilterPolicy) {blockOffset : UInt64}
    {key : Bytes} {found : Bool}
    (returns : reader.keyMayMatch blockOffset key = pure found) :
    reader.keyMayMatchThrough policy blockOffset key = pure found := by
  rw [keyMayMatch] at returns
  rw [keyMayMatchThrough]
  generalize (blockOffset >>> reader.baseLg).toNat = index at returns ⊢
  by_cases below : index < reader.num
  · simp only [if_pos below] at returns ⊢
    rcases decodeFixed32LeAt_cases reader.memory (reader.offset + index * 4)
      with ⟨start, atStart⟩ | ⟨reason, failed⟩
    · rcases decodeFixed32LeAt_cases reader.memory
        (reader.offset + index * 4 + 4) with ⟨limit, atLimit⟩ | ⟨reason, failed⟩
      · simp only [atStart, atLimit, pure_bind] at returns ⊢
        by_cases ordered : start ≤ limit ∧
            limit.toNat ≤ reader.offset - reader.data
        · rw [if_pos ordered] at returns ⊢
          rcases reader.memory.read_cases (reader.data + start.toNat)
            (limit.toNat - start.toNat) with
              ⟨filter, read, held, size⟩ | ⟨reason, failed⟩
          · rw [read, pure_bind, bloom] at returns
            rw [policy.keyMayMatchAt_eq held size]
            exact returns
          · rw [failed, fault_bind] at returns
            exact absurd returns.symm (pure_ne_fault found reason)
        · rw [if_neg ordered] at returns ⊢
          exact returns
      · simp only [atStart, failed, pure_bind, fault_bind] at returns
        exact absurd returns.symm (pure_ne_fault found reason)
    · simp only [failed, fault_bind] at returns
      exact absurd returns.symm (pure_ne_fault found reason)
  · simp only [if_neg below] at returns ⊢
    exact returns

end Returns

/-- In any string that has a footer and an encoding parameter below 64,
corrupted or not, lookups with the Bloom policy read inside the string.  They
allow every key where the block has no slot, answer what the policy says of the
filter between the slot's words where these are in order and in range, and
otherwise deny exactly if both words are equal. -/
theorem keyMayMatchThrough_inside (policy : BloomFilterPolicy)
    {contents : Bytes} (enough : 5 ≤ contents.length)
    (bounded : contents.length < 2 ^ 64)
    (small : 10 ≤ contents.length →
      (FilterImage.parameter contents).toNat < 64) :
    ∃ reader,
      construct policy.toFilterPolicy (.enclosed contents) contents.length =
        pure reader ∧
      ∀ (blockOffset : UInt64) (key : Bytes),
        reader.keyMayMatchThrough policy blockOffset key =
          pure (FilterImage.answer policy.toFilterPolicy contents blockOffset
            key) := by
  have held : (Memory.enclosed contents).HoldsAt 0 contents :=
    Memory.holdsAt_bytes (Nat.le_of_lt bounded)
  refine ⟨_, construct_eq held policy.toFilterPolicy enough bounded, ?_⟩
  intro blockOffset key
  exact keyMayMatchThrough_of_keyMayMatch rfl
    (keyMayMatch_opened held policy.toFilterPolicy small blockOffset key)

/-- A page with one filter. -/
theorem keyMayMatchThrough_inside_onePage :
    let page := [0x00, 0x06, 0, 0, 0, 0, 2, 0, 0, 0, 11, 2, 0, 0, 0, 0]
    let policy := BloomFilterPolicy.construct bloomHash 10 6
    ∃ reader,
      construct policy.toFilterPolicy (.enclosed page) page.length =
        pure reader ∧
      ∀ (blockOffset : UInt64) (key : Bytes),
        reader.keyMayMatchThrough policy blockOffset key =
          pure (FilterImage.answer policy.toFilterPolicy page blockOffset
            key) := by
  intro page policy
  exact keyMayMatchThrough_inside policy (show 5 ≤ page.length by decide)
    (by decide) (by decide)

end FilterPageReader

end LiteLsm
