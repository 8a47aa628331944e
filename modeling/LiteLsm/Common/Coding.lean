import LiteLsm.Support.Base128Decoding
import LiteLsm.Support.LittleEndian
import LiteLsm.Support.Memory

/-!
# Integer encodings

Fixed-width integers are copied in little-endian byte order.  Varints are
base-128 numerals: the encoder for 32-bit values is unrolled, the one for
64-bit values a loop.  The decoders are loops over the five or ten admissible
shifts, for 32-bit values with a one-byte fast path in front.

Decoders work on addresses.  A decoder that returns `nullptr` leaves the
caller's variable as it was, so the result is optional.
-/

namespace LiteLsm

open Checked

abbrev Bytes := List UInt8

def encodeFixed32Le (val : UInt32) : Bytes :=
  LittleEndian.bytes 4 val.toBitVec

def decodeFixed32Le (buf : Bytes) : UInt32 :=
  UInt32.ofBitVec (LittleEndian.word 32 (buf.take 4))

def putFixed32Le (dst : Bytes) (val : UInt32) : Bytes :=
  dst ++ encodeFixed32Le val

/-- `decode_fixed32_le` through a pointer. -/
def decodeFixed32LeAt (memory : Memory) (buf : Nat) : Program UInt32 := do
  let bytes ← memory.read buf 4
  pure (decodeFixed32Le bytes)

/-- The length of the varint encoding of `v`. -/
def varintLength (v : UInt64) : Nat :=
  if 128 ≤ v then varintLength (v >>> 7) + 1 else 1
termination_by v.toNat
decreasing_by
  rename_i large
  have atLeast : 128 ≤ v.toNat := large
  have quotient : (v >>> 7).toNat = v.toNat / 128 := by
    simp [Nat.shiftRight_eq_div_pow]
  omega

def encodeVarint32 (v : UInt32) : Bytes :=
  if v < (1 : UInt32) <<< 7 then
    [v.toUInt8]
  else if v < (1 : UInt32) <<< 14 then
    [(v ||| 128).toUInt8, (v >>> 7).toUInt8]
  else if v < (1 : UInt32) <<< 21 then
    [(v ||| 128).toUInt8, (v >>> 7 ||| 128).toUInt8, (v >>> 14).toUInt8]
  else if v < (1 : UInt32) <<< 28 then
    [(v ||| 128).toUInt8, (v >>> 7 ||| 128).toUInt8,
      (v >>> 14 ||| 128).toUInt8, (v >>> 21).toUInt8]
  else
    [(v ||| 128).toUInt8, (v >>> 7 ||| 128).toUInt8,
      (v >>> 14 ||| 128).toUInt8, (v >>> 21 ||| 128).toUInt8,
      (v >>> 28).toUInt8]

def encodeVarint64 (v : UInt64) : Bytes :=
  if 128 ≤ v then
    ((v &&& 127) ||| 128).toUInt8 :: encodeVarint64 (v >>> 7)
  else
    [v.toUInt8]
termination_by v.toNat
decreasing_by
  rename_i large
  have atLeast : 128 ≤ v.toNat := large
  have quotient : (v >>> 7).toNat = v.toNat / 128 := by
    simp [Nat.shiftRight_eq_div_pow]
  omega

def putVarint32 (dst : Bytes) (v : UInt32) : Bytes :=
  dst ++ encodeVarint32 v

def putVarint64 (dst : Bytes) (v : UInt64) : Bytes :=
  dst ++ encodeVarint64 v

/-- The length is narrowed to 32 bits. -/
def putLengthPrefixedSlice (dst value : Bytes) : Bytes :=
  putVarint32 dst (UInt32.ofNat value.length) ++ value

def putVarint64Varint32 (dst : Bytes) (v1 : UInt64) (v2 : UInt32) : Bytes :=
  dst ++ (encodeVarint64 v1 ++ encodeVarint32 v2)

/-- The loop of `decode_varint32_ptr_fallback` from the given shifts on. -/
def decodeVarint32Loop (memory : Memory) (limit : Nat) :
    List UInt32 → Nat → UInt32 → Program (Option (UInt32 × Nat))
  | [], _, _ => pure none
  | shift :: shifts, p, result =>
      if p < limit then do
        let read ← memory.readByte p
        let byte := read.toUInt32
        if byte &&& 128 ≠ 0 then
          decodeVarint32Loop memory limit shifts (p + 1)
            (result ||| ((byte &&& 127) <<< shift))
        else
          pure (some (result ||| (byte <<< shift), p + 1))
      else
        pure none

/-- The decoded value and the position after it; `none` is `nullptr`. -/
def decodeVarint32PtrFallback (memory : Memory) (p limit : Nat) :
    Program (Option (UInt32 × Nat)) :=
  decodeVarint32Loop memory limit [0, 7, 14, 21, 28] p 0

def decodeVarint32Ptr (memory : Memory) (ptr limit : Nat) :
    Program (Option (UInt32 × Nat)) :=
  if ptr < limit then do
    let read ← memory.readByte ptr
    let result := read.toUInt32
    if result &&& 128 = 0 then
      pure (some (result, ptr + 1))
    else
      decodeVarint32PtrFallback memory ptr limit
  else
    decodeVarint32PtrFallback memory ptr limit

/-- The loop of `decode_varint64_ptr` from the given shifts on. -/
def decodeVarint64Loop (memory : Memory) (limit : Nat) :
    List UInt64 → Nat → UInt64 → Program (Option (UInt64 × Nat))
  | [], _, _ => pure none
  | shift :: shifts, p, result =>
      if p < limit then do
        let read ← memory.readByte p
        let byte := read.toUInt64
        if byte &&& 128 ≠ 0 then
          decodeVarint64Loop memory limit shifts (p + 1)
            (result ||| ((byte &&& 127) <<< shift))
        else
          pure (some (result ||| (byte <<< shift), p + 1))
      else
        pure none

def decodeVarint64Ptr (memory : Memory) (p limit : Nat) :
    Program (Option (UInt64 × Nat)) :=
  decodeVarint64Loop memory limit [0, 7, 14, 21, 28, 35, 42, 49, 56, 63] p 0

/-- `get_varint32` on the window of `cellSize` bytes at `p`; `none` is the
return value `false`, which leaves `*val` alone. -/
def getVarint32 (memory : Memory) (p cellSize : Nat) :
    Program (Option UInt32) := do
  let decoded ← decodeVarint32Ptr memory p (p + cellSize)
  pure (decoded.map Prod.fst)

/-- `get_varint32` on a slice.  On success the slice is advanced past the
parsed value; `none` is the return value `false`, which leaves it alone. -/
def getVarint32Slice (memory : Memory) (input : Slice) :
    Program (Option (UInt32 × Slice)) := do
  let limit := input.data + input.size
  let decoded ← decodeVarint32Ptr memory input.data limit
  pure (decoded.map fun (val, q) => (val, { data := q, size := limit - q }))

/-- `get_varint64`, which only exists for slices. -/
def getVarint64 (memory : Memory) (input : Slice) :
    Program (Option (UInt64 × Slice)) := do
  let limit := input.data + input.size
  let decoded ← decodeVarint64Ptr memory input.data limit
  pure (decoded.map fun (val, q) => (val, { data := q, size := limit - q }))

@[simp] theorem length_encodeFixed32Le (val : UInt32) :
    (encodeFixed32Le val).length = 4 :=
  LittleEndian.length_bytes 4 _

@[simp] theorem decodeFixed32Le_encode (val : UInt32) :
    decodeFixed32Le (encodeFixed32Le val) = val := by
  apply UInt32.toBitVec_inj.mp
  have whole : (encodeFixed32Le val).take 4 = encodeFixed32Le val :=
    List.take_of_length_le (by simp)
  rw [decodeFixed32Le, whole]
  exact LittleEndian.word_bytes (Nat.le_refl 32) val.toBitVec

theorem decodeFixed32LeAt_of_holdsAt {memory : Memory} {buf : Nat}
    {val : UInt32} (holds : memory.HoldsAt buf (encodeFixed32Le val)) :
    decodeFixed32LeAt memory buf = pure val := by
  have copied := Memory.read_of_holdsAt holds
  rw [length_encodeFixed32Le] at copied
  simp [decodeFixed32LeAt, copied]

theorem holdsAt_words {memory : Memory} {address : Nat}
    {words : List UInt32}
    (held : memory.HoldsAt address (words.flatMap encodeFixed32Le))
    {index : Nat} (below : index < words.length) :
    memory.HoldsAt (address + 4 * index)
      (encodeFixed32Le (words.get ⟨index, below⟩)) := by
  induction words generalizing address index with
  | nil => exact absurd below (Nat.not_lt_zero index)
  | cons word words induction =>
      rw [List.flatMap_cons, Memory.holdsAt_append,
        length_encodeFixed32Le] at held
      cases index with
      | zero => exact held.1
      | succ index =>
          have later := induction held.2 (Nat.lt_of_succ_lt_succ below)
          rw [Nat.mul_succ, Nat.add_comm (4 * index), ← Nat.add_assoc]
          exact later

theorem length_words (words : List UInt32) :
    (words.flatMap encodeFixed32Le).length = 4 * words.length := by
  induction words with
  | nil => rfl
  | cons word words induction =>
      rw [List.flatMap_cons, List.length_append, length_encodeFixed32Le,
        induction, List.length_cons, Nat.mul_succ, Nat.add_comm]

private theorem or_continuation (digits : Nat) :
    (digits ||| 128) % 256 = digits % 128 + 128 := by
  have split : digits % 256 = digits % 128 ∨
      digits % 256 = digits % 128 + 128 := by omega
  have small : digits % 128 < 2 ^ 7 := Nat.mod_lt _ (by decide)
  have plain : (digits % 128 ||| 128) = digits % 128 + 128 := by
    have joined := Nat.two_pow_add_eq_or_of_lt small 1
    rw [Nat.or_comm, Nat.add_comm]
    exact joined.symm
  have reduced : (digits ||| 128) % 2 ^ 8 = (digits % 2 ^ 8 ||| 128) :=
    Nat.or_mod_two_pow
  rcases split with same | carried
  · calc
      (digits ||| 128) % 256 = (digits % 256 ||| 128) := reduced
      _ = digits % 128 + 128 := by rw [same, plain]
  · calc
      (digits ||| 128) % 256 = (digits % 256 ||| 128) := reduced
      _ = ((digits % 128 ||| 128) ||| 128) := by rw [carried, plain]
      _ = digits % 128 + 128 := by rw [Nat.or_assoc, Nat.or_self, plain]

private theorem continuationByte (v : UInt32) :
    (v ||| 128).toUInt8 = UInt8.ofNat (v.toNat % 128 + 128) := by
  apply UInt8.toNat_inj.mp
  rw [UInt32.toNat_toUInt8, UInt32.toNat_or, UInt8.toNat_ofNat']
  have reduced := or_continuation v.toNat
  have constant : (128 : UInt32).toNat = 128 := rfl
  rw [constant]
  omega

private theorem finalByte (v : UInt32) : v.toUInt8 = UInt8.ofNat v.toNat := by
  apply UInt8.toNat_inj.mp
  rw [UInt32.toNat_toUInt8, UInt8.toNat_ofNat']

private theorem toNat_shiftRight (v : UInt32) {shift : UInt32} (bits : Nat)
    (amount : shift.toNat = bits) (small : bits < 32) :
    (v >>> shift).toNat = v.toNat / 2 ^ bits := by
  rw [UInt32.toNat_shiftRight, amount, Nat.mod_eq_of_lt small,
    Nat.shiftRight_eq_div_pow]

/-- The unrolled encoder writes the shortest base-128 numeral. -/
theorem encodeVarint32_eq (v : UInt32) :
    encodeVarint32 v = Base128.encode v.toNat := by
  have shift7 : (v >>> 7).toNat = v.toNat / 128 :=
    toNat_shiftRight v 7 rfl (by decide)
  have shift14 : (v >>> 14).toNat = v.toNat / 2 ^ 14 :=
    toNat_shiftRight v 14 rfl (by decide)
  have shift21 : (v >>> 21).toNat = v.toNat / 2 ^ 21 :=
    toNat_shiftRight v 21 rfl (by decide)
  have shift28 : (v >>> 28).toNat = v.toNat / 2 ^ 28 :=
    toNat_shiftRight v 28 rfl (by decide)
  have lt7 : v < (1 : UInt32) <<< 7 ↔ v.toNat < 128 := Iff.rfl
  have lt14 : v < (1 : UInt32) <<< 14 ↔ v.toNat < 128 ^ 2 := Iff.rfl
  have lt21 : v < (1 : UInt32) <<< 21 ↔ v.toNat < 128 ^ 3 := Iff.rfl
  have lt28 : v < (1 : UInt32) <<< 28 ↔ v.toNat < 128 ^ 4 := Iff.rfl
  have div14 : v.toNat / 128 / 128 = v.toNat / 2 ^ 14 := by omega
  have div21 : v.toNat / 2 ^ 14 / 128 = v.toNat / 2 ^ 21 := by omega
  have div28 : v.toNat / 2 ^ 21 / 128 = v.toNat / 2 ^ 28 := by omega
  have below := v.toNat_lt
  unfold encodeVarint32
  simp only [lt7, lt14, lt21, lt28, continuationByte, shift7, shift14, shift21]
  simp only [finalByte, shift7, shift14, shift21, shift28]
  -- one case for each length of the numeral
  by_cases one : v.toNat < 128
  · rw [if_pos one, Base128.encode_of_lt one]
  · rw [if_neg one, Base128.encode_of_le (by omega)]
    by_cases two : v.toNat < 128 ^ 2
    · rw [if_pos two, Base128.encode_of_lt (by omega)]
    · rw [if_neg two, Base128.encode_of_le (by omega), div14]
      by_cases three : v.toNat < 128 ^ 3
      · rw [if_pos three, Base128.encode_of_lt (by omega)]
      · rw [if_neg three, Base128.encode_of_le (by omega), div21]
        by_cases four : v.toNat < 128 ^ 4
        · rw [if_pos four, Base128.encode_of_lt (by omega)]
        · rw [if_neg four, Base128.encode_of_le (by omega), div28,
            Base128.encode_of_lt (by omega)]

private theorem toNat_shiftRight_seven (v : UInt64) :
    (v >>> 7).toNat = v.toNat / 128 := by
  simp [Nat.shiftRight_eq_div_pow]

theorem varintLength_eq (v : UInt64) :
    varintLength v = (Base128.encode v.toNat).length := by
  induction v using varintLength.induct with
  | case1 v large induction =>
      have atLeast : 128 ≤ v.toNat := large
      rw [varintLength, if_pos large, induction, toNat_shiftRight_seven,
        Base128.encode_of_le atLeast, List.length_cons]
  | case2 v small =>
      have below : v.toNat < 128 := Nat.not_le.mp small
      rw [varintLength, if_neg small, Base128.encode_of_lt below,
        List.length_singleton]

theorem encodeVarint64_eq (v : UInt64) :
    encodeVarint64 v = Base128.encode v.toNat := by
  induction v using encodeVarint64.induct with
  | case1 v large induction =>
      have atLeast : 128 ≤ v.toNat := large
      have digit : (v &&& 127).toNat = v.toNat % 128 :=
        Nat.and_two_pow_sub_one_eq_mod v.toNat 7
      have first : ((v &&& 127) ||| 128).toUInt8 =
          UInt8.ofNat (v.toNat % 128 + 128) := by
        apply UInt8.toNat_inj.mp
        have reduced := or_continuation (v.toNat % 128)
        rw [UInt64.toNat_toUInt8, UInt64.toNat_or, digit, UInt8.toNat_ofNat']
        rw [Nat.mod_mod] at reduced
        exact reduced.trans (by omega)
      rw [encodeVarint64, if_pos large, induction, toNat_shiftRight_seven,
        first, Base128.encode_of_le atLeast]
  | case2 v small =>
      have below : v.toNat < 128 := Nat.not_le.mp small
      rw [encodeVarint64, if_neg small, Base128.encode_of_lt below]
      rfl

theorem length_encodeVarint32_le (v : UInt32) :
    (encodeVarint32 v).length ≤ 5 := by
  rw [encodeVarint32_eq]
  exact Base128.length_encode_le (Nat.lt_trans v.toNat_lt (by decide))

theorem length_encodeVarint64_le (v : UInt64) :
    (encodeVarint64 v).length ≤ 10 := by
  rw [encodeVarint64_eq]
  exact Base128.length_encode_le (Nat.lt_trans v.toNat_lt (by decide))

theorem value_encodeVarint32 (v : UInt32) :
    Base128.value (encodeVarint32 v) = v.toNat := by
  rw [encodeVarint32_eq, Base128.value_encode]

theorem terminated_encodeVarint32 (v : UInt32) :
    Base128.Terminated (encodeVarint32 v) := by
  rw [encodeVarint32_eq]
  exact Base128.terminated_encode v.toNat

theorem leading_encodeVarint32 (v : UInt32) (rest : Bytes) :
    Base128.leading 5 (encodeVarint32 v ++ rest) = some (encodeVarint32 v) :=
  Base128.leading_append (terminated_encodeVarint32 v)
    (length_encodeVarint32_le v) rest

theorem leading_encodeVarint64 (v : UInt64) (rest : Bytes) :
    Base128.leading 10 (encodeVarint64 v ++ rest) =
      some (encodeVarint64 v) := by
  apply Base128.leading_append _ (length_encodeVarint64_le v)
  rw [encodeVarint64_eq]
  exact Base128.terminated_encode v.toNat

theorem varintLength_toUInt64 (v : UInt32) :
    varintLength v.toUInt64 = (encodeVarint32 v).length := by
  rw [varintLength_eq, encodeVarint32_eq, UInt32.toNat_toUInt64]

private theorem continues32_iff (byte : UInt8) :
    byte.toUInt32 &&& 128 ≠ 0 ↔ ¬byte.toNat < 128 := by
  have every : ∀ value : Fin 256,
      (UInt8.ofFin value).toUInt32 &&& 128 ≠ 0 ↔ ¬value.val < 128 := by
    decide +kernel
  exact every byte.toFin

private theorem continues64_iff (byte : UInt8) :
    byte.toUInt64 &&& 128 ≠ 0 ↔ ¬byte.toNat < 128 := by
  have every : ∀ value : Fin 256,
      (UInt8.ofFin value).toUInt64 &&& 128 ≠ 0 ↔ ¬value.val < 128 := by
    decide +kernel
  exact every byte.toFin

/-- The final byte's mask is left out because it changes nothing. -/
private theorem and_127_of_lt {width : Nat} (wide : 8 ≤ width) {byte : UInt8}
    (final : byte.toNat < 128) :
    byte.toBitVec.setWidth width &&& 127#(width) =
      byte.toBitVec.setWidth width := by
  have reach : 2 ^ 8 ≤ 2 ^ width := Nat.pow_le_pow_right (by decide) wide
  apply BitVec.eq_of_toNat_eq
  have mask : (127#(width)).toNat = 2 ^ 7 - 1 := by
    rw [BitVec.toNat_ofNat]
    exact Nat.mod_eq_of_lt (by omega)
  have own : (byte.toBitVec.setWidth width).toNat = byte.toNat := by
    rw [BitVec.toNat_setWidth]
    exact Nat.mod_eq_of_lt (Nat.lt_of_lt_of_le byte.toNat_lt reach)
  rw [BitVec.toNat_and, mask, Nat.and_two_pow_sub_one_eq_mod, own]
  exact Nat.mod_eq_of_lt final

private theorem shifts32_from {position : Nat} (admissible : position < 5) :
    ([0, 7, 14, 21, 28] : List UInt32).drop position =
      UInt32.ofNat (7 * position) ::
        ([0, 7, 14, 21, 28] : List UInt32).drop (position + 1) := by
  have every : ∀ position : Fin 5,
      ([0, 7, 14, 21, 28] : List UInt32).drop position =
        UInt32.ofNat (7 * position) ::
          ([0, 7, 14, 21, 28] : List UInt32).drop (position + 1) := by
    decide
  exact every ⟨position, admissible⟩

private theorem shifts64_from {position : Nat} (admissible : position < 10) :
    ([0, 7, 14, 21, 28, 35, 42, 49, 56, 63] : List UInt64).drop position =
      UInt64.ofNat (7 * position) ::
        ([0, 7, 14, 21, 28, 35, 42, 49, 56, 63] : List UInt64).drop
          (position + 1) := by
  have every : ∀ position : Fin 10,
      ([0, 7, 14, 21, 28, 35, 42, 49, 56, 63] : List UInt64).drop position =
        UInt64.ofNat (7 * position) ::
          ([0, 7, 14, 21, 28, 35, 42, 49, 56, 63] : List UInt64).drop
            (position + 1) := by
    decide
  exact every ⟨position, admissible⟩

private theorem collect32 (result digit : UInt32) {position : Nat}
    (admissible : position < 5) :
    result ||| (digit <<< UInt32.ofNat (7 * position)) =
      UInt32.ofBitVec
        (result.toBitVec ||| (digit.toBitVec <<< (7 * position))) := by
  have amount :
      ((UInt32.ofNat (7 * position)).toBitVec % 32).toNat = 7 * position := by
    change (UInt32.ofNat (7 * position)).toNat % 32 = 7 * position
    rw [UInt32.toNat_ofNat']
    omega
  apply UInt32.toBitVec_inj.mp
  rw [UInt32.toBitVec_or, UInt32.toBitVec_shiftLeft, BitVec.shiftLeft_eq',
    amount]

private theorem collect64 (result digit : UInt64) {position : Nat}
    (admissible : position < 10) :
    result ||| (digit <<< UInt64.ofNat (7 * position)) =
      UInt64.ofBitVec
        (result.toBitVec ||| (digit.toBitVec <<< (7 * position))) := by
  have amount :
      ((UInt64.ofNat (7 * position)).toBitVec % 64).toNat = 7 * position := by
    change (UInt64.ofNat (7 * position)).toNat % 64 = 7 * position
    rw [UInt64.toNat_ofNat']
    omega
  apply UInt64.toBitVec_inj.mp
  rw [UInt64.toBitVec_or, UInt64.toBitVec_shiftLeft, BitVec.shiftLeft_eq',
    amount]

/-- The 32-bit loop is the general one with at most five passes. -/
private theorem decodeVarint32Loop_eq (memory : Memory)
    (limit : Nat) {passes : Nat} :
    ∀ (position p : Nat) (result : UInt32), position + passes = 5 →
      decodeVarint32Loop memory limit
          (([0, 7, 14, 21, 28] : List UInt32).drop position) p result =
        Option.map (Prod.map UInt32.ofBitVec id) <$>
          Base128.decodeLoop 32 memory limit passes position p
            result.toBitVec := by
  induction passes with
  | zero =>
      rintro position p result rfl
      rfl
  | succ passes induction =>
      intro position p result sum
      rw [shifts32_from (by omega), decodeVarint32Loop, Base128.decodeLoop]
      split
      · rw [map_bind]
        apply bind_congr
        intro byte
        by_cases final : byte.toNat < 128
        · have stops : ¬(byte.toUInt32 &&& 128 ≠ 0) := by
            rw [continues32_iff]
            exact not_not_intro final
          simp only [if_neg stops, if_pos final,
            and_127_of_lt (show 8 ≤ 32 by decide) final, map_pure,
            collect32 result byte.toUInt32 (show position < 5 by omega)]
          rfl
        · simp only [if_pos ((continues32_iff byte).mpr final), if_neg final,
            collect32 result _ (show position < 5 by omega)]
          exact induction (position + 1) (p + 1) _ (by omega)
      · rfl

/-- The 64-bit loop is the general one with at most ten passes. -/
private theorem decodeVarint64Loop_eq (memory : Memory)
    (limit : Nat) {passes : Nat} :
    ∀ (position p : Nat) (result : UInt64), position + passes = 10 →
      decodeVarint64Loop memory limit
          (([0, 7, 14, 21, 28, 35, 42, 49, 56, 63] : List UInt64).drop
            position) p result =
        Option.map (Prod.map UInt64.ofBitVec id) <$>
          Base128.decodeLoop 64 memory limit passes position p
            result.toBitVec := by
  induction passes with
  | zero =>
      rintro position p result rfl
      rfl
  | succ passes induction =>
      intro position p result sum
      rw [shifts64_from (by omega), decodeVarint64Loop, Base128.decodeLoop]
      split
      · rw [map_bind]
        apply bind_congr
        intro byte
        by_cases final : byte.toNat < 128
        · have stops : ¬(byte.toUInt64 &&& 128 ≠ 0) := by
            rw [continues64_iff]
            exact not_not_intro final
          simp only [if_neg stops, if_pos final,
            and_127_of_lt (show 8 ≤ 64 by decide) final, map_pure,
            collect64 result byte.toUInt64 (show position < 10 by omega)]
          rfl
        · simp only [if_pos ((continues64_iff byte).mpr final), if_neg final,
            collect64 result _ (show position < 10 by omega)]
          exact induction (position + 1) (p + 1) _ (by omega)
      · rfl

/-- The fast path makes no difference to the result. -/
theorem decodeVarint32Ptr_eq_fallback (memory : Memory) (ptr limit : Nat) :
    decodeVarint32Ptr memory ptr limit =
      decodeVarint32PtrFallback memory ptr limit := by
  rw [decodeVarint32Ptr]
  by_cases below : ptr < limit
  · rw [if_pos below]
    cases found : memory.byteAt ptr with
    | none =>
        simp only [decodeVarint32PtrFallback, decodeVarint32Loop, if_pos below,
          Memory.readByte, found, fault_bind]
    | some byte =>
        rw [Memory.readByte_of_byteAt found, pure_bind]
        by_cases fast : byte.toUInt32 &&& 128 = 0
        · have stops : ¬(byte.toUInt32 &&& 128 ≠ 0) := not_not_intro fast
          have whole : (0 : UInt32) ||| (byte.toUInt32 <<< (0 : UInt32)) =
              byte.toUInt32 := by simp
          simp only [if_pos fast, decodeVarint32PtrFallback,
            decodeVarint32Loop, if_pos below, Memory.readByte_of_byteAt found,
            pure_bind, if_neg stops, whole]
        · simp only [if_neg fast]
  · rw [if_neg below]

section Decoding

variable {memory : Memory} {p limit : Nat} {bytes : Bytes}

/-- A varint32 is the leading numeral of at most five bytes, modulo `2^32`.
Where it ends before the limit, nothing behind it needs to be readable. -/
theorem decodeVarint32Ptr_eq (held : memory.HoldsAt p bytes)
    (within : p + bytes.length ≤ limit)
    (exhausted : Base128.leading 5 bytes = none → bytes.length < 5 →
      p + bytes.length = limit) :
    decodeVarint32Ptr memory p limit =
      pure ((Base128.leading 5 bytes).map fun numeral =>
        (UInt32.ofNat (Base128.value numeral), p + numeral.length)) := by
  have loop := decodeVarint32Loop_eq memory limit 0 p 0 (Nat.zero_add 5)
  have start : (0 : UInt32).toBitVec = 0#32 := rfl
  rw [start, Base128.decodeLoop_start (by decide) held within exhausted,
    map_pure, Option.map_map] at loop
  rw [decodeVarint32Ptr_eq_fallback]
  exact loop

/-- A varint64 is the leading numeral of at most ten bytes, modulo `2^64`. -/
theorem decodeVarint64Ptr_eq (held : memory.HoldsAt p bytes)
    (within : p + bytes.length ≤ limit)
    (exhausted : Base128.leading 10 bytes = none → bytes.length < 10 →
      p + bytes.length = limit) :
    decodeVarint64Ptr memory p limit =
      pure ((Base128.leading 10 bytes).map fun numeral =>
        (UInt64.ofNat (Base128.value numeral), p + numeral.length)) := by
  have loop := decodeVarint64Loop_eq memory limit 0 p 0 (Nat.zero_add 10)
  have start : (0 : UInt64).toBitVec = 0#64 := rfl
  rw [start, Base128.decodeLoop_start (by decide) held within exhausted,
    map_pure, Option.map_map] at loop
  exact loop

theorem getVarint32Slice_eq (held : memory.HoldsAt p bytes) :
    getVarint32Slice memory { data := p, size := bytes.length } =
      pure ((Base128.leading 5 bytes).map fun numeral =>
        (UInt32.ofNat (Base128.value numeral),
          { data := p + numeral.length
            size := bytes.length - numeral.length })) := by
  rw [getVarint32Slice, decodeVarint32Ptr_eq held (Nat.le_refl _)
    (fun _ _ => rfl), pure_bind, Option.map_map]
  simp only [Function.comp_def, Nat.add_sub_add_left]

theorem getVarint64_eq (held : memory.HoldsAt p bytes) :
    getVarint64 memory { data := p, size := bytes.length } =
      pure ((Base128.leading 10 bytes).map fun numeral =>
        (UInt64.ofNat (Base128.value numeral),
          { data := p + numeral.length
            size := bytes.length - numeral.length })) := by
  rw [getVarint64, decodeVarint64Ptr_eq held (Nat.le_refl _)
    (fun _ _ => rfl), pure_bind, Option.map_map]
  simp only [Function.comp_def, Nat.add_sub_add_left]

theorem getVarint32_eq (held : memory.HoldsAt p bytes) :
    getVarint32 memory p bytes.length =
      pure ((Base128.leading 5 bytes).map fun numeral =>
        UInt32.ofNat (Base128.value numeral)) := by
  rw [getVarint32, decodeVarint32Ptr_eq held (Nat.le_refl _)
    (fun _ _ => rfl), pure_bind, Option.map_map]
  rfl

theorem getVarint32_encode {cellSize : Nat} {v : UInt32}
    (holds : memory.HoldsAt p (encodeVarint32 v))
    (covered : (encodeVarint32 v).length ≤ cellSize) :
    getVarint32 memory p cellSize = pure (some v) := by
  have front := leading_encodeVarint32 v []
  rw [List.append_nil] at front
  rw [getVarint32, decodeVarint32Ptr_eq holds (Nat.add_le_add_left covered p)
    (by rw [front]; intro impossible; cases impossible), front, pure_bind]
  simp [value_encodeVarint32]

end Decoding

theorem length_encodeVarint32_le_four {v : UInt32} (small : v.toNat < 2 ^ 28) :
    (encodeVarint32 v).length ≤ 4 := by
  rw [encodeVarint32_eq]
  exact Base128.length_encode_le small

/-- A window of four bytes ends inside the varint of a larger value. -/
theorem getVarint32_encode_four {memory : Memory} {p : Nat} {v : UInt32}
    (large : 2 ^ 28 ≤ v.toNat) (held : memory.HoldsAt p (encodeVarint32 v)) :
    getVarint32 memory p 4 = pure none := by
  have cut : 4 < (encodeVarint32 v).length := by
    rw [encodeVarint32_eq]
    exact Base128.lt_length_encode large
  have window := getVarint32_eq (Memory.holdsAt_take held 4)
  rw [List.length_take_of_le (Nat.le_of_lt cut),
    Base128.leading_take_of_lt (terminated_encodeVarint32 v) cut,
    Option.map_none] at window
  exact window

theorem length_encodeVarint32_pos (v : UInt32) :
    0 < (encodeVarint32 v).length := by
  rw [encodeVarint32_eq]
  exact Base128.length_encode_pos v.toNat

end LiteLsm
