import LiteLsm.Support.Memory
import LiteLsm.Util.BloomExactness

/-!
# Bloom filters in memory

`KeyMayMatch` is handed a slice.  It reads the last byte of the slice and, for
each probe, the byte of one bit of the array in front of it.  Whatever bytes
the slice has, nothing else is read, and the answer depends on nothing else.
-/

namespace LiteLsm

open Checked

namespace BloomFilterPolicy

/-- The loop of `KeyMayMatch` over an array at the given address. -/
def testProbesAt (memory : Memory) (array bits : Nat) (delta : UInt32) :
    Nat → UInt32 → Program Bool
  | 0, _ => pure true
  | j + 1, h => do
      let bitpos := h.toNat % bits
      let byte ← memory.readByte (array + bitpos / 8)
      if byte &&& ((1 : UInt8) <<< UInt8.ofNat (bitpos % 8)) = 0 then
        pure false
      else
        testProbesAt memory array bits delta j (h + delta)

/-- `KeyMayMatch` through the pointer of the slice. -/
def keyMayMatchAt (policy : BloomFilterPolicy) (memory : Memory)
    (bloomFilter : Slice) (key : Bytes) : Program Bool := do
  let len := bloomFilter.size
  if len < 2 then
    pure false
  else
    let array := bloomFilter.data
    let bits := (len - 1) * 8
    let k ← memory.readByte (array + (len - 1))
    if 30 < k.toNat then
      pure true
    else
      let h := policy.hash key
      testProbesAt memory array bits (delta h) k.toNat h

section Held

variable {memory : Memory} {address : Nat} {filter : Bytes}
  (held : memory.HoldsAt address filter)

include held in
theorem testProbesAt_eq {bits : Nat} (positive : 0 < bits)
    (inside : bits ≤ filter.length * 8) (delta : UInt32) (count : Nat)
    (h : UInt32) :
    testProbesAt memory address bits delta count h =
      pure (testProbes filter bits delta count h) := by
  induction count generalizing h with
  | zero => rfl
  | succ count induction =>
      have reduced := Nat.mod_lt h.toNat positive
      have below : h.toNat % bits / 8 < filter.length := by omega
      have byte := Memory.readByte_within held below
      rw [testProbesAt, testProbes, byte, pure_bind,
        List.getD_eq_getElem _ _ below, induction, apply_ite pure]

end Held

section Slices

variable (policy : BloomFilterPolicy) {memory : Memory} {slice : Slice}
  {filter : Bytes} (held : memory.HoldsAt slice.data filter)
  (size : filter.length = slice.size)

include held size

/-- The bytes of the slice are all that matters. -/
theorem keyMayMatchAt_eq (key : Bytes) :
    policy.keyMayMatchAt memory slice key =
      pure (policy.keyMayMatch key filter) := by
  rw [keyMayMatchAt, keyMayMatch, ← size]
  by_cases short : filter.length < 2
  · simp only [if_pos short]
  · have last : filter.length - 1 < filter.length := by omega
    have byte := Memory.readByte_within held last
    simp only [if_neg short, byte, pure_bind,
      List.getD_eq_getElem _ _ last]
    by_cases reserved : 30 < filter[filter.length - 1].toNat
    · simp only [if_pos reserved]
    · simp only [if_neg reserved]
      exact testProbesAt_eq held (by omega) (by omega) _ _ _

/-- What `KeyMayMatch` makes of arbitrary bytes: a reserved encoding matches
every key, and otherwise a key matches exactly if the bits at all of its
positions are set. -/
theorem keyMayMatchAt_iff (key : Bytes) :
    ∃ found, policy.keyMayMatchAt memory slice key = pure found ∧
      (found = true ↔
        2 ≤ filter.length ∧
          (30 < (filter.getD (filter.length - 1) 0).toNat ∨
            ∀ position,
              position ∈ probes ((filter.length - 1) * 8)
                  (delta (policy.hash key))
                  (filter.getD (filter.length - 1) 0).toNat
                  (policy.hash key) →
                BitArray.test filter position = true)) := by
  refine ⟨_, policy.keyMayMatchAt_eq held size key, ?_⟩
  simp only [keyMayMatch]
  split
  · rename_i short
    exact iff_of_false Bool.false_ne_true fun long => by omega
  · rename_i long
    rw [and_iff_right (Nat.not_lt.mp long)]
    split
    · rename_i reserved
      exact iff_of_true rfl (Or.inl reserved)
    · rename_i known
      rw [or_iff_right known, testProbes_eq]

end Slices

/-- Two probes of a single byte. -/
theorem keyMayMatchAt_iff_twoProbes :
    let filter : Bytes := [0x81, 2]
    let policy := BloomFilterPolicy.construct bloomHash 10 6
    let key : Bytes := [0x66, 0x6f, 0x6f]
    ∃ found,
      policy.keyMayMatchAt (.enclosed filter) { data := 0, size := 2 } key =
          pure found ∧
        (found = true ↔
          2 ≤ filter.length ∧
            (30 < (filter.getD (filter.length - 1) 0).toNat ∨
              ∀ position,
                position ∈ probes ((filter.length - 1) * 8)
                    (delta (policy.hash key))
                    (filter.getD (filter.length - 1) 0).toNat
                    (policy.hash key) →
                  BitArray.test filter position = true)) := by
  intro filter policy key
  exact policy.keyMayMatchAt_iff (Memory.holdsAt_bytes (by decide)) rfl key

end BloomFilterPolicy

end LiteLsm
