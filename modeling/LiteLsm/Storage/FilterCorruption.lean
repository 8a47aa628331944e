import LiteLsm.Storage.FilterPage
import LiteLsm.Util.Bloom

/-!
# Corrupted filter pages

The reader of a filter page is handed a byte string that need not be one.
What it takes from the string are an encoding parameter, an array offset and
two words of the offset array.  A lookup is determined here for every value of
these, and with it the strings on which the reader leaves its bounds or denies
a key on account of an error.
-/

namespace LiteLsm

open Checked

namespace FilterImage

/-- The word at a position of the string. -/
def wordAt (contents : Bytes) (position : Nat) : UInt32 :=
  decodeFixed32Le (contents.drop position)

/-- The byte in front of the footer. -/
def parameter (contents : Bytes) : UInt8 :=
  contents.getD (contents.length - 6) 0

def arrayOffset (contents : Bytes) : Nat :=
  (wordAt contents (contents.length - 10)).toNat

/-- The trailer is there and its array offset lies inside the contents. -/
def WellFormed (contents : Bytes) : Prop :=
  10 ≤ contents.length ∧ arrayOffset contents ≤ contents.length - 10

instance (contents : Bytes) : Decidable (WellFormed contents) :=
  inferInstanceAs (Decidable (_ ∧ _))

/-- The number of words in the offset array. -/
def slots (contents : Bytes) : Nat :=
  (contents.length - 10 - arrayOffset contents) / 4

/-- The index of a block. -/
def slotOf (contents : Bytes) (blockOffset : UInt64) : Nat :=
  blockOffset.toNat / 2 ^ (parameter contents).toNat

def startOf (contents : Bytes) (slot : Nat) : Nat :=
  (wordAt contents (arrayOffset contents + slot * 4)).toNat

def limitOf (contents : Bytes) (slot : Nat) : Nat :=
  (wordAt contents (arrayOffset contents + slot * 4 + 4)).toNat

/-- The filter between the two words of a slot. -/
def filterAt (contents : Bytes) (slot : Nat) : Bytes :=
  (contents.drop (startOf contents slot)).take
    (limitOf contents slot - startOf contents slot)

/-- A slot of a page with a well-formed trailer. -/
def HasSlot (contents : Bytes) (slot : Nat) : Prop :=
  WellFormed contents ∧ slot < slots contents

/-- The words of the slot delimit a filter. -/
def InRange (contents : Bytes) (slot : Nat) : Prop :=
  startOf contents slot ≤ limitOf contents slot ∧
    limitOf contents slot ≤ arrayOffset contents

instance (contents : Bytes) (slot : Nat) :
    Decidable (HasSlot contents slot) :=
  inferInstanceAs (Decidable (_ ∧ _))

instance (contents : Bytes) (slot : Nat) :
    Decidable (InRange contents slot) :=
  inferInstanceAs (Decidable (_ ∧ _))

/-- The words of the slot are the same and point behind the filters. -/
def EqualOutOfRange (contents : Bytes) (slot : Nat) : Prop :=
  startOf contents slot = limitOf contents slot ∧
    arrayOffset contents < limitOf contents slot

instance (contents : Bytes) (slot : Nat) :
    Decidable (EqualOutOfRange contents slot) :=
  inferInstanceAs (Decidable (_ ∧ _))

/-- What a lookup says about a key of the block.  Equal words count as an
empty filter wherever they point. -/
def answer (policy : FilterPolicy) (contents : Bytes) (blockOffset : UInt64)
    (key : Bytes) : Bool :=
  let slot := slotOf contents blockOffset
  if HasSlot contents slot then
    if InRange contents slot then
      policy.keyMayMatch key (filterAt contents slot)
    else
      decide (startOf contents slot ≠ limitOf contents slot)
  else
    true

theorem EqualOutOfRange.not_inRange {contents : Bytes} {slot : Nat}
    (equal : EqualOutOfRange contents slot) : ¬InRange contents slot := by
  intro inRange
  exact Nat.not_le.mpr equal.2 inRange.2

/-- A lookup denies a key for two reasons. -/
theorem answer_eq_false_iff (policy : FilterPolicy) (contents : Bytes)
    (blockOffset : UInt64) (key : Bytes) :
    answer policy contents blockOffset key = false ↔
      HasSlot contents (slotOf contents blockOffset) ∧
        (InRange contents (slotOf contents blockOffset) ∧
            policy.keyMayMatch key
              (filterAt contents (slotOf contents blockOffset)) = false ∨
          EqualOutOfRange contents (slotOf contents blockOffset)) := by
  rw [answer]
  generalize slotOf contents blockOffset = slot
  by_cases hasSlot : HasSlot contents slot
  · by_cases inRange : InRange contents slot
    · have notEqual : ¬EqualOutOfRange contents slot :=
        fun equal => equal.not_inRange inRange
      simp [hasSlot, inRange, notEqual]
    · have equal : startOf contents slot = limitOf contents slot ↔
          EqualOutOfRange contents slot := by
        constructor
        · intro same
          refine ⟨same, Nat.lt_of_not_le fun inside => ?_⟩
          exact inRange ⟨Nat.le_of_eq same, inside⟩
        · exact And.left
      simp [hasSlot, inRange, equal]
  · simp [hasSlot]

end FilterImage

namespace FilterPageReader

open FilterImage

/-- Open the string and look a key up in it. -/
def query (policy : FilterPolicy) (memory : Memory) (size : Nat)
    (blockOffset : UInt64) (key : Bytes) : Program Bool := do
  let reader ← construct policy memory size
  reader.keyMayMatch blockOffset key

/-- The reader of a string of at least five bytes. -/
def opened (policy : FilterPolicy) (memory : Memory) (contents : Bytes) :
    FilterPageReader :=
  { memory
    policy
    data := 0
    offset := if WellFormed contents then arrayOffset contents else 0
    num := if WellFormed contents then slots contents else 0
    baseLg :=
      if 10 ≤ contents.length then
        ⟨(parameter contents).toBitVec.signExtend 64⟩
      else 0 }

section Reads

variable {memory : Memory} {contents : Bytes}
  (held : memory.HoldsAt 0 contents)

include held in
theorem decodeFixed32LeAt_within {position : Nat}
    (within : position + 4 ≤ contents.length) :
    decodeFixed32LeAt memory position =
      pure (wordAt contents position) := by
  have copied := Memory.read_within held within
  rw [Nat.zero_add] at copied
  rw [decodeFixed32LeAt, copied, pure_bind, wordAt, decodeFixed32Le,
    decodeFixed32Le, List.take_take, Nat.min_self]

include held in
theorem construct_eq (policy : FilterPolicy)
    (enough : 5 ≤ contents.length) (bounded : contents.length < 2 ^ 64) :
    construct policy memory contents.length =
      pure (opened policy memory contents) := by
  have n : (contents.length + (2 ^ 64 - pageFooterSize)) % 2 ^ 64 =
      contents.length - 5 := by
    have footer : pageFooterSize = 5 := rfl
    omega
  by_cases long : 10 ≤ contents.length
  · have notShort : ¬contents.length - 5 < 5 := by omega
    have trailer : contents.length - 5 - 5 = contents.length - 10 :=
      Nat.sub_sub _ _ _
    have lastByte : memory.readByte (contents.length - 5 - 1) =
        pure (parameter contents) := by
      have inside : contents.length - 6 < contents.length := by omega
      have copied := Memory.readByte_within held inside
      rw [Nat.zero_add] at copied
      rw [Nat.sub_sub, copied, parameter, List.getD_eq_getElem _ _ inside]
    have lastWord : decodeFixed32LeAt memory (contents.length - 10) =
        pure (wordAt contents (contents.length - 10)) := by
      apply decodeFixed32LeAt_within held
      omega
    have array : (wordAt contents (contents.length - 10)).toNat =
        arrayOffset contents := rfl
    simp only [construct, n, if_neg notShort, lastByte, trailer, lastWord,
      pure_bind, array, Nat.zero_add]
    by_cases inside : arrayOffset contents ≤ contents.length - 10
    · have wellFormed : WellFormed contents := ⟨long, inside⟩
      rw [if_neg (Nat.not_lt.mpr inside)]
      simp only [opened, if_pos wellFormed, if_pos long]
      rfl
    · have malformed : ¬WellFormed contents :=
        fun wellFormed => inside wellFormed.2
      rw [if_pos (Nat.lt_of_not_le inside)]
      simp only [opened, if_neg malformed, if_pos long]
  · have short : contents.length - 5 < 5 := by omega
    have malformed : ¬WellFormed contents :=
      fun wellFormed => long wellFormed.1
    simp only [construct, n, if_pos short, opened, if_neg malformed,
      if_neg long]

/-- The parameter is a `char`: converted to `size_t` it stays what it is only
where it is not negative. -/
theorem baseLg_opened (policy : FilterPolicy) (memory : Memory)
    {contents : Bytes} (long : 10 ≤ contents.length) :
    (opened policy memory contents).baseLg.toNat =
      if (parameter contents).toNat < 128 then (parameter contents).toNat
      else (parameter contents).toNat + (2 ^ 64 - 2 ^ 8) := by
  rw [opened, if_pos long]
  generalize parameter contents = byte
  have below : byte.toBitVec.toNat < 2 ^ 8 := byte.toBitVec.isLt
  have value : byte.toBitVec.toNat = byte.toNat := rfl
  change (byte.toBitVec.signExtend 64).toNat = _
  rw [BitVec.toNat_signExtend, BitVec.toNat_setWidth, BitVec.msb_eq_decide,
    value]
  rw [value] at below
  by_cases positive : byte.toNat < 128
  · rw [if_pos positive, if_neg (by simpa using positive)]
    omega
  · rw [if_neg positive, if_pos (by simpa using positive)]
    omega

theorem baseLg_opened_lt_iff (policy : FilterPolicy) (memory : Memory)
    (contents : Bytes) :
    (opened policy memory contents).baseLg.toNat < 64 ↔
      (10 ≤ contents.length → (parameter contents).toNat < 64) := by
  by_cases long : 10 ≤ contents.length
  · have shift := baseLg_opened policy memory long
    constructor
    · intro small _
      split at shift <;> omega
    · intro small
      rw [shift, if_pos (Nat.lt_trans (small long) (by decide))]
      exact small long
  · constructor
    · intro _ long'
      exact absurd long' long
    · intro _
      rw [opened, if_neg long]
      exact Nat.zero_lt_succ 63

theorem slot_opened (policy : FilterPolicy) (memory : Memory)
    {contents : Bytes} (long : 10 ≤ contents.length)
    (small : (parameter contents).toNat < 64) (blockOffset : UInt64) :
    (blockOffset >>> (opened policy memory contents).baseLg).toNat =
      slotOf contents blockOffset := by
  have shift := baseLg_opened policy memory long
  rw [if_pos (Nat.lt_trans small (by decide))] at shift
  rw [UInt64.toNat_shiftRight, shift, Nat.mod_eq_of_lt small,
    Nat.shiftRight_eq_div_pow, slotOf]

include held in
theorem keyMayMatch_opened (policy : FilterPolicy)
    (small : 10 ≤ contents.length → (parameter contents).toNat < 64)
    (blockOffset : UInt64) (key : Bytes) :
    (opened policy memory contents).keyMayMatch blockOffset key =
      pure (answer policy contents blockOffset key) := by
  by_cases wellFormed : WellFormed contents
  · have slot := slot_opened policy memory wellFormed.1 (small wellFormed.1)
      blockOffset
    rw [keyMayMatch, slot, answer]
    generalize slotOf contents blockOffset = slot
    by_cases below : slot < slots contents
    · have hasSlot : HasSlot contents slot := ⟨wellFormed, below⟩
      have bound : arrayOffset contents + slot * 4 + 4 + 4 ≤
          contents.length := by
        have inside := wellFormed.2
        have long := wellFormed.1
        rw [slots] at below
        omega
      have start := decodeFixed32LeAt_within held
        (Nat.le_trans (Nat.le_add_right _ 4) bound)
      have limit := decodeFixed32LeAt_within held bound
      simp only [opened, if_pos wellFormed, if_pos below, if_pos hasSlot,
        start, limit, pure_bind, Nat.sub_zero, Nat.zero_add]
      by_cases inRange : InRange contents slot
      · have ordered :
            wordAt contents (arrayOffset contents + slot * 4) ≤
                wordAt contents (arrayOffset contents + slot * 4 + 4) ∧
              limitOf contents slot ≤ arrayOffset contents :=
          ⟨UInt32.le_iff_toNat_le.mpr inRange.1, inRange.2⟩
        have within : startOf contents slot +
            (limitOf contents slot - startOf contents slot) ≤
              contents.length := by
          rw [Nat.add_sub_cancel' inRange.1]
          have inside := inRange.2
          omega
        have filter := Memory.read_within held within
        rw [Nat.zero_add] at filter
        rw [← limitOf, ← startOf, if_pos ordered, if_pos inRange, filter,
          pure_bind, filterAt]
      · have disordered :
            ¬(wordAt contents (arrayOffset contents + slot * 4) ≤
                wordAt contents (arrayOffset contents + slot * 4 + 4) ∧
              limitOf contents slot ≤ arrayOffset contents) :=
          fun ordered =>
            inRange ⟨UInt32.le_iff_toNat_le.mp ordered.1, ordered.2⟩
        rw [← limitOf, ← startOf, if_neg disordered, if_neg inRange]
        by_cases equal : startOf contents slot = limitOf contents slot
        · rw [if_pos (UInt32.toNat_inj.mp equal), decide_eq_false]
          exact fun different => different equal
        · rw [if_neg fun same => equal (congrArg UInt32.toNat same),
            decide_eq_true equal]
    · have noSlot : ¬HasSlot contents slot := fun hasSlot => below hasSlot.2
      simp only [opened, if_pos wellFormed, if_neg below, if_neg noSlot]
  · have noSlot : ¬HasSlot contents (slotOf contents blockOffset) :=
      fun hasSlot => wellFormed hasSlot.1
    rw [keyMayMatch, answer]
    simp only [opened, if_neg wellFormed, if_neg noSlot, Nat.not_lt_zero,
      if_false]

end Reads

/-- The constructor and every lookup read inside the string, and shift by
fewer than 64 bits. -/
def StaysInside (policy : FilterPolicy) (contents : Bytes) : Prop :=
  ∃ reader,
    construct policy (.enclosed contents) contents.length = pure reader ∧
      reader.baseLg.toNat < 64 ∧
      ∀ blockOffset key, Safe (reader.keyMayMatch blockOffset key)

/-- The size of a string shorter than a footer wraps to the largest ones. -/
theorem construct_short (policy : FilterPolicy) {contents : Bytes}
    (short : contents.length < 5) :
    ∃ address, construct policy (.enclosed contents) contents.length =
      fault (.unreadable address) := by
  have n : (contents.length + (2 ^ 64 - pageFooterSize)) % 2 ^ 64 =
      contents.length + (2 ^ 64 - 5) := by
    have footer : pageFooterSize = 5 := rfl
    omega
  have past : contents.length ≤
      (contents.length + (2 ^ 64 - 5) - 1) % 2 ^ 64 := by
    omega
  have large : ¬contents.length + (2 ^ 64 - 5) < 5 := by omega
  refine ⟨(contents.length + (2 ^ 64 - 5) - 1) % 2 ^ 64, ?_⟩
  simp only [construct, n, if_neg large, Memory.readByte_enclosed_past past,
    fault_bind]

section StaysInside

variable {policy : FilterPolicy} {contents : Bytes}

theorem StaysInside.enough (inside : StaysInside policy contents) :
    5 ≤ contents.length := by
  obtain ⟨reader, constructed, _⟩ := inside
  apply Nat.le_of_not_lt
  intro short
  obtain ⟨address, faults⟩ := construct_short policy short
  exact pure_ne_fault reader _ (constructed.symm.trans faults)

theorem StaysInside.parameter_lt (inside : StaysInside policy contents)
    (bounded : contents.length < 2 ^ 64) (long : 10 ≤ contents.length) :
    (parameter contents).toNat < 64 := by
  have held : (Memory.enclosed contents).HoldsAt 0 contents :=
    Memory.holdsAt_bytes (Nat.le_of_lt bounded)
  have opens := construct_eq held policy inside.enough bounded
  obtain ⟨reader, constructed, shift, _⟩ := inside
  have same := pure_injective (constructed.symm.trans opens)
  rw [same] at shift
  exact (baseLg_opened_lt_iff policy _ contents).mp shift long

/-- The reader stays inside the string if and only if the footer is there and
the encoding parameter, where there is one, is below 64. -/
theorem staysInside_iff (policy : FilterPolicy) {contents : Bytes}
    (bounded : contents.length < 2 ^ 64) :
    StaysInside policy contents ↔
      5 ≤ contents.length ∧
        (10 ≤ contents.length → (parameter contents).toNat < 64) := by
  constructor
  · intro inside
    exact ⟨inside.enough, inside.parameter_lt bounded⟩
  · rintro ⟨enough, small⟩
    have held : (Memory.enclosed contents).HoldsAt 0 contents :=
      Memory.holdsAt_bytes (Nat.le_of_lt bounded)
    refine ⟨_, construct_eq held policy enough bounded,
      (baseLg_opened_lt_iff policy _ contents).mpr small, ?_⟩
    intro blockOffset key
    rw [keyMayMatch_opened held policy small]
    exact safe_pure _

/-- A page with one filter. -/
theorem staysInside_iff_onePage :
    StaysInside (BloomFilterPolicy.construct bloomHash 10 6).toFilterPolicy
      [0x00, 0x06, 0, 0, 0, 0, 2, 0, 0, 0, 11, 2, 0, 0, 0, 0] :=
  (staysInside_iff _ (by decide)).mpr ⟨by decide, by decide⟩

/-- The empty string, and a page without filters whose encoding parameter is
corrupted. -/
theorem not_staysInside :
    ¬StaysInside (BloomFilterPolicy.construct bloomHash 10 6).toFilterPolicy
        [] ∧
      ¬StaysInside (BloomFilterPolicy.construct bloomHash 10 6).toFilterPolicy
        [0, 0, 0, 0, 64, 2, 0, 0, 0, 0] := by
  constructor
  · intro inside
    exact absurd inside.enough (by decide)
  · intro inside
    exact absurd (inside.parameter_lt (by decide) (by decide)) (by decide)

end StaysInside

/-- A lookup denies a key only on the word of the policy about a filter found
through a well-formed trailer; everything else is a potential match. -/
def AnswersSoundly (policy : FilterPolicy) (memory : Memory)
    (contents : Bytes) (blockOffset : UInt64) (key : Bytes) : Prop :=
  let slot := slotOf contents blockOffset
  ∃ found, query policy memory contents.length blockOffset key = pure found ∧
    (found = false →
      HasSlot contents slot ∧ InRange contents slot ∧
        policy.keyMayMatch key (filterAt contents slot) = false) ∧
    (¬(HasSlot contents slot ∧ InRange contents slot) → found = true)

section Query

variable {memory : Memory} {contents : Bytes}
  (held : memory.HoldsAt 0 contents)
  (enough : 5 ≤ contents.length) (bounded : contents.length < 2 ^ 64)
  (small : 10 ≤ contents.length → (parameter contents).toNat < 64)

include held enough bounded small in
theorem query_eq (policy : FilterPolicy) (blockOffset : UInt64)
    (key : Bytes) :
    query policy memory contents.length blockOffset key =
      pure (answer policy contents blockOffset key) := by
  rw [query, construct_eq held policy enough bounded, pure_bind,
    keyMayMatch_opened held policy small]

include held enough bounded small in
/-- Lookups are sound unless the two words of the slot are the same and point
behind the filters. -/
theorem answersSoundly_iff (policy : FilterPolicy) (blockOffset : UInt64)
    (key : Bytes) :
    AnswersSoundly policy memory contents blockOffset key ↔
      ¬(HasSlot contents (slotOf contents blockOffset) ∧
        EqualOutOfRange contents (slotOf contents blockOffset)) := by
  have answers := query_eq held enough bounded small policy blockOffset key
  have denies := answer_eq_false_iff policy contents blockOffset key
  constructor
  · rintro ⟨found, queried, _, errors⟩ ⟨hasSlot, equal⟩
    have same := pure_injective (queried.symm.trans answers)
    have denied := denies.mpr ⟨hasSlot, Or.inr equal⟩
    have matched := errors fun inside => equal.not_inRange inside.2
    rw [same, denied] at matched
    cases matched
  · intro noError
    refine ⟨_, answers, ?_, ?_⟩
    · intro denied
      obtain ⟨hasSlot, ⟨inRange, policyDenies⟩ | equal⟩ := denies.mp denied
      · exact ⟨hasSlot, inRange, policyDenies⟩
      · exact absurd ⟨hasSlot, equal⟩ noError
    · intro malformed
      cases denied : answer policy contents blockOffset key with
      | true => rfl
      | false =>
          obtain ⟨hasSlot, ⟨inRange, _⟩ | equal⟩ := denies.mp denied
          · exact absurd ⟨hasSlot, inRange⟩ malformed
          · exact absurd ⟨hasSlot, equal⟩ noError

/-- A page with one filter, which has no bit of the empty key. -/
theorem answersSoundly_iff_onePage :
    AnswersSoundly (BloomFilterPolicy.construct bloomHash 10 6).toFilterPolicy
      (.enclosed [0x00, 0x06, 0, 0, 0, 0, 2, 0, 0, 0, 11, 2, 0, 0, 0, 0])
      [0x00, 0x06, 0, 0, 0, 0, 2, 0, 0, 0, 11, 2, 0, 0, 0, 0] 0 [] :=
  (answersSoundly_iff (Memory.holdsAt_bytes (by decide)) (by decide)
    (by decide) (by decide) _ 0 []).mpr (by decide)

/-- Two corrupted words which both point behind the filters, of which there are
none: a key is denied without asking the policy. -/
theorem not_answersSoundly :
    query (BloomFilterPolicy.construct bloomHash 10 6).toFilterPolicy
        (.enclosed [5, 0, 0, 0, 5, 0, 0, 0, 0, 0, 0, 0, 11, 2, 0, 0, 0, 0])
        18 0 [0x61] = pure false ∧
      ¬AnswersSoundly
        (BloomFilterPolicy.construct bloomHash 10 6).toFilterPolicy
        (.enclosed [5, 0, 0, 0, 5, 0, 0, 0, 0, 0, 0, 0, 11, 2, 0, 0, 0, 0])
        [5, 0, 0, 0, 5, 0, 0, 0, 0, 0, 0, 0, 11, 2, 0, 0, 0, 0] 0
        [0x61] := by
  have denied := query_eq
    (Memory.holdsAt_bytes (by decide) : (Memory.enclosed
      [5, 0, 0, 0, 5, 0, 0, 0, 0, 0, 0, 0, 11, 2, 0, 0, 0, 0]).HoldsAt 0 _)
    (by decide) (by decide) (by decide)
    (BloomFilterPolicy.construct bloomHash 10 6).toFilterPolicy 0 [0x61]
  refine ⟨denied, ?_⟩
  rintro ⟨found, queried, _, errors⟩
  have same := pure_injective (queried.symm.trans denied)
  have matched := errors (by decide)
  rw [same] at matched
  exact absurd matched (by decide)

end Query

end FilterPageReader

end LiteLsm
