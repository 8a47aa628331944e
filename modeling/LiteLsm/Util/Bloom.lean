import LiteLsm.Common.FilterPolicy
import LiteLsm.Support.BitArray

/-!
# The Bloom filter policy

A filter is an array of bits followed by the number of probes it was made
with.  The positions of a key come from double hashing with wrapping 32-bit
sums, reduced modulo the number of bits; writer and reader compute that number
independently, one from the number of keys, the other from the length of the
filter.

The hash function is a parameter of the policy, `bloomHash` the one the code
uses.  The product `bits_per_key * 0.69` is taken in floating point; the
constructor is modelled from its integer part on.
-/

namespace LiteLsm

/-- The loop of `Hash` over groups of four bytes, and the switch behind it. -/
def hashLoop : Bytes → UInt32 → UInt32
  | b0 :: b1 :: b2 :: b3 :: data, h =>
      let w := decodeFixed32Le [b0, b1, b2, b3]
      let h := (h + w) * 0xc6a4a793
      hashLoop data (h ^^^ (h >>> 16))
  | [b0, b1, b2], h =>
      finish (h + (b2.toUInt32 <<< 16) + (b1.toUInt32 <<< 8) + b0.toUInt32)
  | [b0, b1], h => finish (h + (b1.toUInt32 <<< 8) + b0.toUInt32)
  | [b0], h => finish (h + b0.toUInt32)
  | [], h => h
where
  finish (h : UInt32) : UInt32 :=
    let h := h * 0xc6a4a793
    h ^^^ (h >>> 24)

/-- `Hash` -/
def hash (data : Bytes) (seed : UInt32) : UInt32 :=
  hashLoop data (seed ^^^ UInt32.ofNat (data.length * 0xc6a4a793))

def bloomHash (key : Bytes) : UInt32 :=
  hash key 0xbc9f1d34

example : hash [0xe1, 0x80, 0xb9, 0x32] 0xbc9f1d34 = 0xed21633a := by
  decide +kernel

example : hash [0xe2, 0x99, 0xa5] 0xbc9f1d34 = 0x323c078f := by
  decide +kernel

structure BloomFilterPolicy where
  hash : Bytes → UInt32
  bitsPerKey : Nat
  k : Nat
  oneProbe : 1 ≤ k
  fewProbes : k ≤ 30

namespace BloomFilterPolicy

/-- The probe count from the integer part of `bits_per_key * 0.69`. -/
def probeCount (product : Nat) : Nat :=
  let k := if product < 1 then 1 else product
  if 30 < k then 30 else k

theorem probeCount_bounds (product : Nat) :
    1 ≤ probeCount product ∧ probeCount product ≤ 30 := by
  simp only [probeCount]
  split <;> split <;> omega

/-- The constructor; `product` is the integer part of
`bits_per_key * 0.69`. -/
def construct (hash : Bytes → UInt32) (bitsPerKey product : Nat) :
    BloomFilterPolicy :=
  { hash
    bitsPerKey
    k := probeCount product
    oneProbe := (probeCount_bounds product).1
    fewProbes := (probeCount_bounds product).2 }

variable (policy : BloomFilterPolicy)

/-- Rotate right 17 bits. -/
def delta (h : UInt32) : UInt32 :=
  (h >>> 17) ||| (h <<< 15)

/-- The inner loop of `CreateFilter`, with the given number of probes to go;
`array` is the offset of the bit array in `dst`. -/
def setProbes (array bits : Nat) (delta : UInt32) :
    Nat → UInt32 → Bytes → Bytes
  | 0, _, dst => dst
  | j + 1, h, dst =>
      let bitpos := h.toNat % bits
      let dst := dst.modify (array + bitpos / 8)
        (· ||| ((1 : UInt8) <<< UInt8.ofNat (bitpos % 8)))
      setProbes array bits delta j (h + delta) dst

/-- The size of the bit array in bytes. -/
def arrayBytes (n : Nat) : Nat :=
  let bits := n * policy.bitsPerKey % 2 ^ 64
  let bits := if bits < 64 then 64 else bits
  (bits + 7) % 2 ^ 64 / 8

def createFilter (keys : List Bytes) (dst : Bytes) : Bytes :=
  let bytes := policy.arrayBytes keys.length
  let bits := bytes * 8
  let initSize := dst.length
  let dst := dst ++ List.replicate bytes 0
  let dst := dst ++ [UInt8.ofNat policy.k]
  keys.foldl (fun dst key =>
    let h := policy.hash key
    setProbes initSize bits (delta h) policy.k h dst) dst

/-- The loop of `KeyMayMatch`, with the given number of probes to go. -/
def testProbes (array : Bytes) (bits : Nat) (delta : UInt32) :
    Nat → UInt32 → Bool
  | 0, _ => true
  | j + 1, h =>
      let bitpos := h.toNat % bits
      if array.getD (bitpos / 8) 0 &&&
          ((1 : UInt8) <<< UInt8.ofNat (bitpos % 8)) = 0 then false
      else testProbes array bits delta j (h + delta)

/-- A last byte of `128` or more is a negative `char`; as a `size_t` it
exceeds `30` like the byte itself. -/
def keyMayMatch (key bloomFilter : Bytes) : Bool :=
  let len := bloomFilter.length
  if len < 2 then false
  else
    let bits := (len - 1) * 8
    let k := (bloomFilter.getD (len - 1) 0).toNat
    if 30 < k then true
    else
      let h := policy.hash key
      testProbes bloomFilter bits (delta h) k h

section Probes

variable (bits : Nat) (delta : UInt32)

@[simp] theorem length_setProbes (initSize probes : Nat) (h : UInt32)
    (dst : Bytes) :
    (setProbes initSize bits delta probes h dst).length = dst.length := by
  induction probes generalizing h dst with
  | zero => rfl
  | succ probes induction =>
      rw [setProbes, induction, List.length_modify]

theorem setProbes_append (front array : Bytes) (probes : Nat) (h : UInt32) :
    setProbes front.length bits delta probes h (front ++ array) =
      front ++ setProbes 0 bits delta probes h array := by
  induction probes generalizing h array with
  | zero => rfl
  | succ probes induction =>
      have here := BitArray.set_append front array (h.toNat % bits)
      have alone := BitArray.set_append [] array (h.toNat % bits)
      simp only [BitArray.mask, List.nil_append, List.length_nil] at here alone
      rw [setProbes, setProbes, here, alone, induction]

theorem setProbes_succ (array : Bytes) (probes : Nat) (h : UInt32) :
    setProbes 0 bits delta (probes + 1) h array =
      setProbes 0 bits delta probes (h + delta)
        (BitArray.set array (h.toNat % bits)) := by
  rw [setProbes, Nat.zero_add]
  rfl

theorem testProbes_succ (array : Bytes) (probes : Nat) (h : UInt32) :
    testProbes array bits delta (probes + 1) h =
      (BitArray.test array (h.toNat % bits) &&
        testProbes array bits delta probes (h + delta)) := by
  rw [testProbes, BitArray.test, BitArray.mask]
  simp only [bne, Bool.if_false_left]
  rfl

/-- Every probe hits a byte of the array. -/
private theorem probe_inside {array : Bytes} (fits : bits = array.length * 8)
    (positive : 0 < bits) (h : UInt32) :
    h.toNat % bits / 8 < array.length := by
  have reduced := Nat.mod_lt h.toNat positive
  omega

theorem setProbes_append_left {array : Bytes} (fits : bits = array.length * 8)
    (positive : 0 < bits) (rest : Bytes) (probes : Nat) (h : UInt32) :
    setProbes 0 bits delta probes h (array ++ rest) =
      setProbes 0 bits delta probes h array ++ rest := by
  induction probes generalizing h array with
  | zero => rfl
  | succ probes induction =>
      have inside := probe_inside bits fits positive h
      rw [setProbes_succ, setProbes_succ, BitArray.set_append_left rest inside,
        induction (by rw [BitArray.length_set]; exact fits)]

theorem subset_setProbes (array : Bytes) (probes : Nat) (h : UInt32) :
    BitArray.Subset array (setProbes 0 bits delta probes h array) := by
  induction probes generalizing h array with
  | zero => exact BitArray.subset_refl array
  | succ probes induction =>
      rw [setProbes_succ]
      exact (BitArray.subset_set array _).trans (induction _ _)

end Probes

/-- Bits that were set are found, whatever else was set since. -/
theorem testProbes_setProbes {array larger : Bytes} {bits : Nat}
    {delta : UInt32} {probes : Nat} {h : UInt32}
    (fits : bits = array.length * 8) (positive : 0 < bits)
    (contained :
      BitArray.Subset (setProbes 0 bits delta probes h array) larger) :
    testProbes larger bits delta probes h = true := by
  induction probes generalizing h array with
  | zero => rfl
  | succ probes induction =>
      have inside := probe_inside bits fits positive h
      rw [setProbes_succ] at contained
      have first : BitArray.test larger (h.toNat % bits) = true :=
        contained _ (subset_setProbes bits delta _ probes (h + delta) _
          (BitArray.test_set_self inside))
      have others : testProbes larger bits delta probes (h + delta) = true :=
        induction (by rw [BitArray.length_set]; exact fits) contained
      rw [testProbes_succ, first, others, Bool.and_true]

section FilterArray

variable (bits : Nat)

/-- All the probes of a key. -/
def setKey (array : Bytes) (key : Bytes) : Bytes :=
  let h := policy.hash key
  setProbes 0 bits (delta h) policy.k h array

def setKeys (keys : List Bytes) (array : Bytes) : Bytes :=
  keys.foldl (policy.setKey bits) array

@[simp] theorem length_setKeys (keys : List Bytes) (array : Bytes) :
    (policy.setKeys bits keys array).length = array.length := by
  induction keys generalizing array with
  | nil => rfl
  | cons key keys induction =>
      rw [setKeys, List.foldl_cons, ← setKeys, induction, setKey,
        length_setProbes]

theorem setKeys_append_left {array : Bytes} (fits : bits = array.length * 8)
    (positive : 0 < bits) (rest : Bytes) (keys : List Bytes) :
    policy.setKeys bits keys (array ++ rest) =
      policy.setKeys bits keys array ++ rest := by
  induction keys generalizing array with
  | nil => rfl
  | cons key keys induction =>
      have first : policy.setKey bits (array ++ rest) key =
          policy.setKey bits array key ++ rest :=
        setProbes_append_left bits _ fits positive rest _ _
      have sameSize : (policy.setKey bits array key).length = array.length :=
        length_setProbes _ _ _ _ _ _
      rw [setKeys, List.foldl_cons, first, ← setKeys,
        induction (by rw [sameSize]; exact fits)]
      rfl

theorem subset_setKeys (keys : List Bytes) (array : Bytes) :
    BitArray.Subset array (policy.setKeys bits keys array) := by
  induction keys generalizing array with
  | nil => exact BitArray.subset_refl array
  | cons key keys induction =>
      exact (subset_setProbes bits _ array _ _).trans (induction _)

theorem subset_setKeys_of_mem {keys : List Bytes} {key : Bytes}
    (member : key ∈ keys) (array : Bytes) :
    ∃ earlier, earlier.length = array.length ∧
      BitArray.Subset (policy.setKey bits earlier key)
        (policy.setKeys bits keys array) := by
  obtain ⟨front, back, rfl⟩ := List.append_of_mem member
  refine ⟨policy.setKeys bits front array, length_setKeys _ _ _ _, ?_⟩
  have order : policy.setKeys bits (front ++ key :: back) array =
      policy.setKeys bits back
        (policy.setKey bits (policy.setKeys bits front array) key) := by
    rw [setKeys, List.foldl_append, List.foldl_cons]
    rfl
  rw [order]
  exact policy.subset_setKeys bits back _

end FilterArray

theorem arrayBytes_eq {n : Nat} (bounded : n * policy.bitsPerKey < 2 ^ 63) :
    policy.arrayBytes n = max 8 ((n * policy.bitsPerKey + 7) / 8) := by
  simp only [arrayBytes]
  split <;> omega

private theorem foldl_append (bits : Nat) (keys : List Bytes)
    (dst array : Bytes) :
    keys.foldl (fun dst' key =>
        setProbes dst.length bits (delta (policy.hash key)) policy.k
          (policy.hash key) dst') (dst ++ array) =
      dst ++ policy.setKeys bits keys array := by
  induction keys generalizing array with
  | nil => rfl
  | cons key keys induction =>
      rw [List.foldl_cons, setProbes_append, induction]
      rfl

/-- What is appended: the array with its bits set and the probe count. -/
def newFilter (keys : List Bytes) : Bytes :=
  let bytes := policy.arrayBytes keys.length
  policy.setKeys (bytes * 8) keys
    (List.replicate bytes 0 ++ [UInt8.ofNat policy.k])

theorem createFilter_eq (keys : List Bytes) (dst : Bytes) :
    policy.createFilter keys dst = dst ++ policy.newFilter keys := by
  simp only [createFilter, newFilter]
  rw [List.append_assoc, foldl_append]

@[simp] theorem length_newFilter (keys : List Bytes) :
    (policy.newFilter keys).length = policy.arrayBytes keys.length + 1 := by
  rw [newFilter, length_setKeys, List.length_append, List.length_replicate]
  rfl

/-- The positions of all keys lie inside the array, before the probe count. -/
theorem newFilter_eq {keys : List Bytes}
    (positive : 0 < policy.arrayBytes keys.length) :
    policy.newFilter keys =
      policy.setKeys (policy.arrayBytes keys.length * 8) keys
          (List.replicate (policy.arrayBytes keys.length) 0) ++
        [UInt8.ofNat policy.k] := by
  rw [newFilter, setKeys_append_left]
  · rw [List.length_replicate]
  · omega

theorem keyMayMatch_newFilter {reader : BloomFilterPolicy}
    (sameHash : reader.hash = policy.hash) {keys : List Bytes} {key : Bytes}
    (member : key ∈ keys) (positive : 0 < policy.arrayBytes keys.length) :
    reader.keyMayMatch key (policy.newFilter keys) = true := by
  have few := policy.fewProbes
  have byte : (UInt8.ofNat policy.k).toNat = policy.k := by
    rw [UInt8.toNat_ofNat']
    omega
  have length := policy.length_newFilter keys
  have count : (policy.newFilter keys).getD
      (policy.arrayBytes keys.length) 0 = UInt8.ofNat policy.k := by
    rw [policy.newFilter_eq positive, List.getD_append_right _ _ _ _ (by simp)]
    simp
  obtain ⟨earlier, sameSize, contained⟩ := policy.subset_setKeys_of_mem
    (policy.arrayBytes keys.length * 8) member
    (List.replicate (policy.arrayBytes keys.length) 0)
  rw [List.length_replicate] at sameSize
  have long : ¬policy.arrayBytes keys.length + 1 < 2 := by omega
  have known : ¬30 < policy.k := Nat.not_lt.mpr few
  simp only [keyMayMatch, length, Nat.add_sub_cancel, if_neg long, count, byte,
    if_neg known, sameHash]
  apply testProbes_setProbes (by rw [sameSize]) (by omega)
  rw [policy.newFilter_eq positive]
  exact contained.trans (BitArray.subset_append _ _)

/-- `CreateFilter` keeps what `*dst` holds and appends a filter of known size,
which no policy over the same hash function reads as denying one of the
keys. -/
theorem createFilter_noFalseNegatives (policy : BloomFilterPolicy)
    (keys : List Bytes) (dst : Bytes)
    (bounded : keys.length * policy.bitsPerKey < 2 ^ 63) :
    ∃ filter, policy.createFilter keys dst = dst ++ filter ∧
      filter.length =
        max 8 ((keys.length * policy.bitsPerKey + 7) / 8) + 1 ∧
      ∀ key, key ∈ keys → ∀ reader : BloomFilterPolicy,
        reader.hash = policy.hash →
          reader.keyMayMatch key filter = true := by
  have size := policy.arrayBytes_eq bounded
  refine ⟨policy.newFilter keys, policy.createFilter_eq keys dst, ?_, ?_⟩
  · rw [length_newFilter, size]
  · intro key member reader sameHash
    exact policy.keyMayMatch_newFilter sameHash member (by omega)

/-- Ten bits per key written, one bit per key read; the keys are one key twice
and the empty key. -/
theorem createFilter_noFalseNegatives_sample :
    ∃ filter,
      (construct bloomHash 10 6).createFilter [[0x66], [0x66], []] [0xff] =
        [0xff] ++ filter ∧
      filter.length = 9 ∧
      ∀ key, key ∈ [[0x66], [0x66], []] →
        (construct bloomHash 1 0).keyMayMatch key filter = true := by
  obtain ⟨filter, appended, length, complete⟩ :=
    createFilter_noFalseNegatives (construct bloomHash 10 6)
      [[0x66], [0x66], []] [0xff] (by decide)
  exact ⟨filter, appended, length,
    fun key member => complete key member (construct bloomHash 1 0) rfl⟩

def toFilterPolicy : FilterPolicy where
  createFilter := policy.createFilter
  keyMayMatch := policy.keyMayMatch
  appends := by
    intro keys dst
    rw [createFilter_eq, createFilter_eq, List.nil_append]

theorem complete_toFilterPolicy (small : policy.bitsPerKey < 2 ^ 31) :
    policy.toFilterPolicy.Complete := by
  intro keys key few member
  have bounded : keys.length * policy.bitsPerKey < 2 ^ 63 :=
    calc
      keys.length * policy.bitsPerKey ≤ 2 ^ 31 * 2 ^ 31 :=
        Nat.mul_le_mul (Nat.le_of_lt few) (Nat.le_of_lt small)
      _ < 2 ^ 63 := by decide
  have size := policy.arrayBytes_eq bounded
  have filter : policy.toFilterPolicy.filterOf keys =
      policy.newFilter keys :=
    policy.createFilter_eq keys []
  rw [filter]
  exact policy.keyMayMatch_newFilter rfl member (by omega)

end BloomFilterPolicy

end LiteLsm
