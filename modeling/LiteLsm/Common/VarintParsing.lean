import LiteLsm.Common.Coding

/-!
# Varint parsers and their out-parameters

The parsers return through pointers: the position behind the varint or
`nullptr`, the value through `*value`, the rest of the input through `*input`.
Here each of them is stated with what the caller's variables hold before and
after the call.  A parser that fails leaves all of them as they were, and a
parser never looks at a byte behind the slice: its result is the same whatever
is there, also where nothing can be read.
-/

namespace LiteLsm

open Checked

namespace OutParameter

/-- The loop of `decode_varint32_ptr_fallback`: the position returned, where
`none` is `nullptr`, and what `*value` holds afterwards. -/
def decodeVarint32Loop (memory : Memory) (limit : Nat) :
    List UInt32 → Nat → UInt32 → UInt32 → Program (Option Nat × UInt32)
  | [], _, _, value => pure (none, value)
  | shift :: shifts, p, result, value =>
      if p < limit then do
        let read ← memory.readByte p
        let byte := read.toUInt32
        if byte &&& 128 ≠ 0 then
          decodeVarint32Loop memory limit shifts (p + 1)
            (result ||| ((byte &&& 127) <<< shift)) value
        else
          pure (some (p + 1), result ||| (byte <<< shift))
      else
        pure (none, value)

def decodeVarint32PtrFallback (memory : Memory) (p limit : Nat)
    (value : UInt32) : Program (Option Nat × UInt32) :=
  decodeVarint32Loop memory limit [0, 7, 14, 21, 28] p 0 value

def decodeVarint32Ptr (memory : Memory) (ptr limit : Nat)
    (value : UInt32) : Program (Option Nat × UInt32) :=
  if ptr < limit then do
    let read ← memory.readByte ptr
    let result := read.toUInt32
    if result &&& 128 = 0 then
      pure (some (ptr + 1), result)
    else
      decodeVarint32PtrFallback memory ptr limit value
  else
    decodeVarint32PtrFallback memory ptr limit value

/-- The loop of `decode_varint64_ptr`. -/
def decodeVarint64Loop (memory : Memory) (limit : Nat) :
    List UInt64 → Nat → UInt64 → UInt64 → Program (Option Nat × UInt64)
  | [], _, _, value => pure (none, value)
  | shift :: shifts, p, result, value =>
      if p < limit then do
        let read ← memory.readByte p
        let byte := read.toUInt64
        if byte &&& 128 ≠ 0 then
          decodeVarint64Loop memory limit shifts (p + 1)
            (result ||| ((byte &&& 127) <<< shift)) value
        else
          pure (some (p + 1), result ||| (byte <<< shift))
      else
        pure (none, value)

def decodeVarint64Ptr (memory : Memory) (p limit : Nat)
    (value : UInt64) : Program (Option Nat × UInt64) :=
  decodeVarint64Loop memory limit
    [0, 7, 14, 21, 28, 35, 42, 49, 56, 63] p 0 value

/-- `get_varint32` on a slice: the returned value, and what `*input` and
`*val` hold afterwards. -/
def getVarint32 (memory : Memory) (input : Slice) (val : UInt32) :
    Program (Bool × Slice × UInt32) := do
  let p := input.data
  let limit := p + input.size
  let (q, val) ← decodeVarint32Ptr memory p limit val
  match q with
  | none => pure (false, input, val)
  | some q => pure (true, { data := q, size := limit - q }, val)

/-- `get_varint64` -/
def getVarint64 (memory : Memory) (input : Slice) (val : UInt64) :
    Program (Bool × Slice × UInt64) := do
  let p := input.data
  let limit := p + input.size
  let (q, val) ← decodeVarint64Ptr memory p limit val
  match q with
  | none => pure (false, input, val)
  | some q => pure (true, { data := q, size := limit - q }, val)

/-- How a decoder hands over what it decoded. -/
def stored {Word : Type} (value : Word) :
    Option (Word × Nat) → Option Nat × Word
  | none => (none, value)
  | some (decoded, position) => (some position, decoded)

private theorem decodeVarint32Loop_stored (memory : Memory) (limit : Nat)
    (value : UInt32) (shifts : List UInt32) (p : Nat) (result : UInt32) :
    decodeVarint32Loop memory limit shifts p result value =
      stored value <$> LiteLsm.decodeVarint32Loop memory limit shifts p
        result := by
  induction shifts generalizing p result with
  | nil => rfl
  | cons shift shifts induction =>
      rw [decodeVarint32Loop, LiteLsm.decodeVarint32Loop]
      split
      · rw [map_bind]
        apply bind_congr
        intro read
        dsimp only
        split
        · exact induction _ _
        · rfl
      · rfl

private theorem decodeVarint32Ptr_stored (memory : Memory)
    (ptr limit : Nat) (value : UInt32) :
    decodeVarint32Ptr memory ptr limit value =
      stored value <$> LiteLsm.decodeVarint32Ptr memory ptr limit := by
  have fallback : decodeVarint32PtrFallback memory ptr limit value =
      stored value <$> LiteLsm.decodeVarint32PtrFallback memory ptr limit :=
    decodeVarint32Loop_stored memory limit value _ ptr 0
  rw [decodeVarint32Ptr, LiteLsm.decodeVarint32Ptr]
  split
  · rw [map_bind]
    apply bind_congr
    intro read
    dsimp only
    split
    · rfl
    · exact fallback
  · exact fallback

private theorem decodeVarint64Loop_stored (memory : Memory) (limit : Nat)
    (value : UInt64) (shifts : List UInt64) (p : Nat) (result : UInt64) :
    decodeVarint64Loop memory limit shifts p result value =
      stored value <$> LiteLsm.decodeVarint64Loop memory limit shifts p
        result := by
  induction shifts generalizing p result with
  | nil => rfl
  | cons shift shifts induction =>
      rw [decodeVarint64Loop, LiteLsm.decodeVarint64Loop]
      split
      · rw [map_bind]
        apply bind_congr
        intro read
        dsimp only
        split
        · exact induction _ _
        · rfl
      · rfl

/-- The fast path stores and returns what the fallback alone would. -/
private theorem decodeVarint32Ptr_eq_fallback (memory : Memory)
    (ptr limit : Nat) (value : UInt32) :
    decodeVarint32Ptr memory ptr limit value =
      decodeVarint32PtrFallback memory ptr limit value := by
  rw [decodeVarint32Ptr_stored, LiteLsm.decodeVarint32Ptr_eq_fallback]
  exact (decodeVarint32Loop_stored memory limit value _ ptr 0).symm

/-- A parser on the slice of the given bytes returns true exactly if one of
the admissible bytes is final.  It then advances the slice behind the first
such byte, and stores the value of what it consumed; otherwise it returns
false with the slice and the value as they were. -/
structure ParsesCleanly {Word : Type} (ofNat : Nat → Word)
    (admissible address : Nat) (bytes : Bytes) (val : Word)
    (call : Program (Bool × Slice × Word)) : Prop where
  returned : ∃ accepted input' val', call = pure (accepted, input', val') ∧
    (accepted = true ↔ ∃ index, index < admissible ∧
      ∃ byte, bytes[index]? = some byte ∧ byte.toNat < 128)
  advanced : ∀ index, Base128.FirstFinal admissible bytes index →
    call = pure (true,
      { data := address + (index + 1)
        size := bytes.length - (index + 1) },
      ofNat (Base128.value (bytes.take (index + 1))))
  unmodified : (∀ index, index < admissible →
      ∀ byte, bytes[index]? = some byte → 128 ≤ byte.toNat) →
    call = pure (false, { data := address, size := bytes.length }, val)

/-- What a parser makes of the leading numeral. -/
def parsed {Word : Type} (ofNat : Nat → Word) (address : Nat)
    (bytes : Bytes) (val : Word) : Option Bytes → Bool × Slice × Word
  | none => (false, { data := address, size := bytes.length }, val)
  | some numeral =>
      (true,
        { data := address + numeral.length
          size := bytes.length - numeral.length },
        ofNat (Base128.value numeral))

private theorem parsesCleanly_of_leading {Word : Type} {ofNat : Nat → Word}
    {admissible address : Nat} {bytes : Bytes} {val : Word}
    {call : Program (Bool × Slice × Word)}
    (decodes : call = pure (parsed ofNat address bytes val
      (Base128.leading admissible bytes))) :
    ParsesCleanly ofNat admissible address bytes val call := by
  have advanced : ∀ index, Base128.FirstFinal admissible bytes index →
      call = pure (true,
        { data := address + (index + 1)
          size := bytes.length - (index + 1) },
        ofNat (Base128.value (bytes.take (index + 1)))) := by
    intro index first
    obtain ⟨byte, found, -⟩ := first.final
    have inside : index < bytes.length :=
      (List.getElem?_eq_some_iff.mp found).1
    have length : (bytes.take (index + 1)).length = index + 1 :=
      List.length_take_of_le inside
    rw [decodes, Base128.leading_of_firstFinal first, parsed, length]
  have unmodified : (∀ index, index < admissible →
        ∀ byte, bytes[index]? = some byte → 128 ≤ byte.toNat) →
      call = pure (false, { data := address, size := bytes.length }, val) := by
    intro continued
    rw [decodes, Base128.leading_eq_none continued, parsed]
  refine ⟨?_, advanced, unmodified⟩
  by_cases some : ∃ index, index < admissible ∧
      ∃ byte, bytes[index]? = some byte ∧ byte.toNat < 128
  · obtain ⟨index, admitted, final⟩ := some
    obtain ⟨first, isFirst⟩ := Base128.exists_firstFinal admitted final
    exact ⟨true, _, _, advanced first isFirst,
      fun _ => ⟨index, admitted, final⟩, fun _ => rfl⟩
  · refine ⟨false, _, _, unmodified ?_, ?_⟩
    · intro index admitted byte found
      apply Nat.not_lt.mp
      intro final
      exact some ⟨index, admitted, byte, found, final⟩
    · constructor
      · intro impossible
        cases impossible
      · intro final
        exact absurd final some

section Parsers

variable {memory : Memory} {address : Nat} {bytes : Bytes}

private theorem getVarint32_parsed (held : memory.HoldsAt address bytes)
    (val : UInt32) :
    getVarint32 memory { data := address, size := bytes.length } val =
      pure (parsed UInt32.ofNat address bytes val
        (Base128.leading 5 bytes)) := by
  rw [getVarint32]
  dsimp only
  rw [decodeVarint32Ptr_stored,
    decodeVarint32Ptr_eq held (Nat.le_refl _) (fun _ _ => rfl), map_pure,
    pure_bind]
  cases Base128.leading 5 bytes with
  | none => rfl
  | some numeral =>
      simp only [Option.map_some, stored, parsed, Nat.add_sub_add_left]

private theorem getVarint64_parsed (held : memory.HoldsAt address bytes)
    (val : UInt64) :
    getVarint64 memory { data := address, size := bytes.length } val =
      pure (parsed UInt64.ofNat address bytes val
        (Base128.leading 10 bytes)) := by
  rw [getVarint64]
  dsimp only
  rw [decodeVarint64Ptr, decodeVarint64Loop_stored]
  have decoded := decodeVarint64Ptr_eq held (Nat.le_refl _) (fun _ _ => rfl)
  rw [LiteLsm.decodeVarint64Ptr] at decoded
  rw [decoded, map_pure, pure_bind]
  cases Base128.leading 10 bytes with
  | none => rfl
  | some numeral =>
      simp only [Option.map_some, stored, parsed, Nat.add_sub_add_left]

/-- Both parsers accept exactly their grammar and fail cleanly, whatever
stands behind the slice; the fast path is the fallback. -/
theorem getVarint_parsesCleanly (held : memory.HoldsAt address bytes)
    (val32 : UInt32) (val64 : UInt64) :
    ParsesCleanly UInt32.ofNat 5 address bytes val32
        (getVarint32 memory { data := address, size := bytes.length }
          val32) ∧
      ParsesCleanly UInt64.ofNat 10 address bytes val64
        (getVarint64 memory { data := address, size := bytes.length }
          val64) ∧
      (∀ (anywhere : Memory) (ptr limit : Nat) (value : UInt32),
        decodeVarint32Ptr anywhere ptr limit value =
          decodeVarint32PtrFallback anywhere ptr limit value) := by
  constructor
  · exact parsesCleanly_of_leading (getVarint32_parsed held val32)
  constructor
  · exact parsesCleanly_of_leading (getVarint64_parsed held val64)
  · exact decodeVarint32Ptr_eq_fallback

end Parsers

/-- Three continuation bytes at the end of all readable memory. -/
theorem getVarint_parsesCleanly_truncated :
    ParsesCleanly UInt32.ofNat 5 0 [0x80, 0xff, 0x80] 7
        (getVarint32 (Memory.enclosed [0x80, 0xff, 0x80])
          { data := 0, size := 3 } 7) ∧
      ParsesCleanly UInt64.ofNat 10 0 [0x80, 0xff, 0x80] 7
        (getVarint64 (Memory.enclosed [0x80, 0xff, 0x80])
          { data := 0, size := 3 } 7) := by
  have held : (Memory.enclosed [0x80, 0xff, 0x80]).HoldsAt 0
      [0x80, 0xff, 0x80] := Memory.holdsAt_bytes (by decide)
  obtain ⟨parses32, parses64, -⟩ := getVarint_parsesCleanly held 7 7
  exact ⟨parses32, parses64⟩

end OutParameter

end LiteLsm
