import LiteLsm.Util.Bloom

/-!
# What a Bloom filter says exactly

A filter is the set of the positions its keys were probed at.  A key matches
exactly if all of its positions are in that set, whichever keys they came
from; so the order of the keys and their repetitions leave no trace but in the
size of the filter.
-/

namespace LiteLsm

namespace BloomFilterPolicy

section Probes

variable (bits : Nat) (delta : UInt32)

/-- The positions of the given number of probes. -/
def probes : Nat → UInt32 → List Nat
  | 0, _ => []
  | j + 1, h => h.toNat % bits :: probes j (h + delta)

theorem setProbes_eq (count : Nat) (h : UInt32) (array : Bytes) :
    setProbes 0 bits delta count h array =
      BitArray.setAll (probes bits delta count h) array := by
  induction count generalizing h array with
  | zero => rfl
  | succ count induction =>
      rw [setProbes_succ, induction]
      rfl

theorem testProbes_eq (array : Bytes) (count : Nat) (h : UInt32) :
    testProbes array bits delta count h = true ↔
      ∀ position, position ∈ probes bits delta count h →
        BitArray.test array position = true := by
  induction count generalizing h with
  | zero => simp [testProbes, probes]
  | succ count induction =>
      rw [testProbes_succ, Bool.and_eq_true, induction, probes,
        List.forall_mem_cons]

variable {bits} (positive : 0 < bits)

include positive in
theorem probe_lt {count : Nat} {h : UInt32} {position : Nat}
    (member : position ∈ probes bits delta count h) : position < bits := by
  induction count generalizing h with
  | zero => cases member
  | succ count induction =>
      rcases List.mem_cons.mp member with rfl | later
      · exact Nat.mod_lt _ positive
      · exact induction later

end Probes

variable (policy : BloomFilterPolicy)

/-- Where a key is probed in a filter of the given number of keys. -/
def positions (count : Nat) (key : Bytes) : List Nat :=
  probes (policy.arrayBytes count * 8) (delta (policy.hash key)) policy.k
    (policy.hash key)

theorem setKeys_eq (count : Nat) (keys : List Bytes) (array : Bytes) :
    policy.setKeys (policy.arrayBytes count * 8) keys array =
      BitArray.setAll (keys.flatMap (policy.positions count)) array := by
  induction keys generalizing array with
  | nil => rfl
  | cons key keys induction =>
      rw [setKeys, List.foldl_cons, ← setKeys, induction, List.flatMap_cons,
        BitArray.setAll_append, setKey, setProbes_eq]
      rfl

section Filter

variable {policy} {keys : List Bytes}
  (positive : 0 < policy.arrayBytes keys.length)

include positive in
theorem position_inside {key : Bytes} {position : Nat}
    (member : position ∈ policy.positions keys.length key) :
    position / 8 < policy.arrayBytes keys.length := by
  have bound := probe_lt _ (by omega) member
  omega

include positive in
theorem test_setKeys (position : Nat) :
    BitArray.test
        (policy.setKeys (policy.arrayBytes keys.length * 8) keys
          (List.replicate (policy.arrayBytes keys.length) 0)) position =
        true ↔
      ∃ key, key ∈ keys ∧ position ∈ policy.positions keys.length key := by
  rw [setKeys_eq, BitArray.test_setAll, BitArray.test_replicate_zero,
    List.mem_flatMap]
  · simp
  · intro other member
    obtain ⟨key, -, probed⟩ := List.mem_flatMap.mp member
    rw [List.length_replicate]
    exact position_inside positive probed

include positive in
/-- A key matches a filter exactly if its positions are covered. -/
theorem keyMayMatch_newFilter_iff {reader : BloomFilterPolicy}
    (sameHash : reader.hash = policy.hash) (key : Bytes) :
    reader.keyMayMatch key (policy.newFilter keys) = true ↔
      ∀ position, position ∈ policy.positions keys.length key →
        ∃ other, other ∈ keys ∧
          position ∈ policy.positions keys.length other := by
  have few := policy.fewProbes
  have byte : (UInt8.ofNat policy.k).toNat = policy.k := by
    rw [UInt8.toNat_ofNat']
    omega
  have length := policy.length_newFilter keys
  have count : (policy.newFilter keys).getD
      (policy.arrayBytes keys.length) 0 = UInt8.ofNat policy.k := by
    rw [policy.newFilter_eq positive, List.getD_append_right _ _ _ _ (by simp)]
    simp
  have long : ¬policy.arrayBytes keys.length + 1 < 2 := by omega
  have known : ¬30 < policy.k := Nat.not_lt.mpr few
  simp only [keyMayMatch, length, Nat.add_sub_cancel, if_neg long, count, byte,
    if_neg known, sameHash]
  rw [testProbes_eq]
  apply forall_congr'
  intro position
  apply forall_congr'
  intro member
  have inside := position_inside positive member
  rw [policy.newFilter_eq positive, BitArray.test_append_left,
    test_setKeys positive]
  rw [length_setKeys, List.length_replicate]
  exact inside

end Filter

theorem arrayBytes_pos {count : Nat}
    (bounded : count * policy.bitsPerKey < 2 ^ 63) :
    0 < policy.arrayBytes count := by
  rw [policy.arrayBytes_eq bounded]
  omega

/-- `KeyMayMatch` answers yes exactly if every probe of the key hits a probe
of one of the keys the filter was made from, under every policy with the same
hash function. -/
theorem createFilter_exact (policy : BloomFilterPolicy) (keys : List Bytes)
    (dst : Bytes) (bounded : keys.length * policy.bitsPerKey < 2 ^ 63) :
    ∃ filter, policy.createFilter keys dst = dst ++ filter ∧
      ∀ (reader : BloomFilterPolicy) (key : Bytes),
        reader.hash = policy.hash →
          (reader.keyMayMatch key filter = true ↔
            ∀ position, position ∈ policy.positions keys.length key →
              ∃ other, other ∈ keys ∧
                position ∈ policy.positions keys.length other) :=
  ⟨policy.newFilter keys, policy.createFilter_eq keys dst,
    fun _ key sameHash =>
      keyMayMatch_newFilter_iff (policy.arrayBytes_pos bounded) sameHash key⟩

theorem createFilter_exact_sample :
    ∃ filter,
      (construct bloomHash 10 6).createFilter [[0x66], []] [] = filter ∧
      ((construct bloomHash 1 0).keyMayMatch [0x67] filter = true ↔
        ∀ position,
          position ∈ (construct bloomHash 10 6).positions 2 [0x67] →
            ∃ other, other ∈ [[0x66], []] ∧
              position ∈ (construct bloomHash 10 6).positions 2 other) := by
  obtain ⟨filter, appended, exactly⟩ := createFilter_exact
    (construct bloomHash 10 6) [[0x66], []] [] (by decide)
  exact ⟨filter, appended, exactly (construct bloomHash 1 0) [0x67] rfl⟩

/-- Filters of equally many keys are the same bytes if the keys are the same,
in whatever order and however often each. -/
theorem createFilter_sameKeys (policy : BloomFilterPolicy)
    {keys others : List Bytes} (dst : Bytes)
    (bounded : keys.length * policy.bitsPerKey < 2 ^ 63)
    (length : others.length = keys.length)
    (same : ∀ key, key ∈ keys ↔ key ∈ others) :
    policy.createFilter keys dst = policy.createFilter others dst := by
  have positive := policy.arrayBytes_pos bounded
  have positive' : 0 < policy.arrayBytes others.length := length ▸ positive
  rw [createFilter_eq, createFilter_eq, policy.newFilter_eq positive,
    policy.newFilter_eq positive']
  congr 2
  apply BitArray.ext
  · simp [length]
  · intro position
    rw [Bool.eq_iff_iff, test_setKeys positive, test_setKeys positive', length]
    apply exists_congr
    intro key
    rw [same]

theorem createFilter_sameKeys_reordered :
    (construct bloomHash 10 6).createFilter [[1], [2], [2]] [7] =
      (construct bloomHash 10 6).createFilter [[2], [1], [1]] [7] :=
  createFilter_sameKeys (construct bloomHash 10 6) [7] (by decide) rfl
    (fun key => by simp [or_comm])

end BloomFilterPolicy

end LiteLsm
