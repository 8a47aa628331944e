import LiteLsm.Support.Base128
import LiteLsm.Support.Memory

/-!
# Decoding base-128 numerals

`leading` finds the numeral at the front of a byte string, within a number of
admissible bytes.  `decodeLoop` collects the digits of a numeral in a word of
fixed width, byte by byte through a memory.  It returns exactly when there is
a leading numeral, and then the value modulo the word size: digits beyond the
width are lost without a trace.
-/

namespace Base128

open Checked

/-- The numeral of at most `admissible` bytes at the front of a byte
string. -/
def leading : Nat → List UInt8 → Option (List UInt8)
  | 0, _ => none
  | _ + 1, [] => none
  | admissible + 1, byte :: bytes =>
      if byte.toNat < 128 then some [byte]
      else (leading admissible bytes).map (byte :: ·)

/-- `count` continuation bytes in front of a final byte whose digit is at
least `least`. -/
def HighFinal (least : Nat) : Nat → List UInt8 → Prop
  | _, [] => False
  | 0, byte :: _ => least ≤ byte.toNat ∧ byte.toNat < 128
  | count + 1, byte :: bytes =>
      128 ≤ byte.toNat ∧ HighFinal least count bytes

/-- The byte at `index` is the first one without a high bit, and within the
admissible ones. -/
structure FirstFinal (admissible : Nat) (bytes : List UInt8)
    (index : Nat) : Prop where
  admitted : index < admissible
  final : ∃ byte, bytes[index]? = some byte ∧ byte.toNat < 128
  continued : ∀ earlier, earlier < index →
    ∀ byte, bytes[earlier]? = some byte → 128 ≤ byte.toNat

/-- Collect the digits from the given position on in a word of `width` bits;
at most `passes` bytes are read. -/
def decodeLoop (width : Nat) (memory : Memory) (limit : Nat) :
    (passes position p : Nat) → BitVec width →
      Program (Option (BitVec width × Nat))
  | 0, _, _, _ => pure none
  | passes + 1, position, p, result =>
      if p < limit then do
        let byte ← memory.readByte p
        let digit := byte.toBitVec.setWidth width &&& 127#(width)
        let result := result ||| (digit <<< (7 * position))
        if byte.toNat < 128 then
          pure (some (result, p + 1))
        else
          decodeLoop width memory limit passes (position + 1) (p + 1) result
      else
        pure none

theorem leading_eq_some_iff {admissible : Nat} {bytes numeral : List UInt8} :
    leading admissible bytes = some numeral ↔
      Terminated numeral ∧ numeral.length ≤ admissible ∧
        numeral <+: bytes := by
  induction admissible generalizing bytes numeral with
  | zero =>
      constructor
      · intro impossible
        cases impossible
      · rintro ⟨terminated, short, -⟩
        cases terminated <;> simp at short
  | succ admissible induction =>
      cases bytes with
      | nil =>
          constructor
          · intro impossible
            cases impossible
          · rintro ⟨terminated, -, front⟩
            rw [List.prefix_nil.mp front] at terminated
            cases terminated
      | cons byte bytes =>
          rw [leading]
          split
          · rename_i final
            constructor
            · intro found
              cases found
              exact ⟨.last final, by simp, by simp⟩
            · rintro ⟨terminated, -, front⟩
              cases terminated with
              | last _ =>
                  obtain ⟨rfl, -⟩ := List.cons_prefix_cons.mp front
                  rfl
              | more continuation _ =>
                  obtain ⟨rfl, -⟩ := List.cons_prefix_cons.mp front
                  omega
          · rename_i continuation
            rw [Option.map_eq_some_iff]
            constructor
            · rintro ⟨rest, found, rfl⟩
              obtain ⟨terminated, short, front⟩ := induction.mp found
              exact ⟨.more (Nat.not_lt.mp continuation) terminated,
                Nat.succ_le_succ short,
                List.cons_prefix_cons.mpr ⟨rfl, front⟩⟩
            · rintro ⟨terminated, short, front⟩
              cases terminated with
              | last final =>
                  obtain ⟨rfl, -⟩ := List.cons_prefix_cons.mp front
                  omega
              | more _ terminated =>
                  obtain ⟨rfl, rest⟩ := List.cons_prefix_cons.mp front
                  exact ⟨_, induction.mpr
                    ⟨terminated, Nat.le_of_succ_le_succ short, rest⟩, rfl⟩

/-- No numeral is a proper prefix of another. -/
theorem Terminated.eq_of_isPrefix {left right : List UInt8}
    (leftTerminated : Terminated left) (rightTerminated : Terminated right)
    (front : left <+: right) : left = right := by
  induction leftTerminated generalizing right with
  | last final =>
      cases rightTerminated with
      | last _ =>
          obtain ⟨rfl, -⟩ := List.cons_prefix_cons.mp front
          rfl
      | more continuation _ =>
          obtain ⟨rfl, -⟩ := List.cons_prefix_cons.mp front
          omega
  | more continuation _ induction =>
      cases rightTerminated with
      | last final =>
          obtain ⟨rfl, -⟩ := List.cons_prefix_cons.mp front
          omega
      | more _ rightTerminated =>
          obtain ⟨rfl, rest⟩ := List.cons_prefix_cons.mp front
          rw [induction rightTerminated rest]

theorem Terminated.eq_of_isPrefix_of_isPrefix {left right bytes : List UInt8}
    (leftTerminated : Terminated left) (rightTerminated : Terminated right)
    (leftFront : left <+: bytes) (rightFront : right <+: bytes) :
    left = right := by
  rcases List.prefix_or_prefix_of_prefix leftFront rightFront with
    shorter | longer
  · exact leftTerminated.eq_of_isPrefix rightTerminated shorter
  · exact (rightTerminated.eq_of_isPrefix leftTerminated longer).symm

theorem eq_of_leading {count : Nat} {bytes found numeral : List UInt8}
    (decoded : leading count bytes = some found)
    (terminated : Terminated numeral) (front : numeral <+: bytes) :
    found = numeral := by
  obtain ⟨foundTerminated, -, foundFront⟩ := leading_eq_some_iff.mp decoded
  exact foundTerminated.eq_of_isPrefix_of_isPrefix terminated foundFront front

theorem leading_append {admissible : Nat} {numeral : List UInt8}
    (terminated : Terminated numeral) (short : numeral.length ≤ admissible)
    (rest : List UInt8) :
    leading admissible (numeral ++ rest) = some numeral :=
  leading_eq_some_iff.mpr ⟨terminated, short, List.prefix_append _ _⟩

theorem leading_take_of_lt {admissible window : Nat} {numeral : List UInt8}
    (terminated : Terminated numeral) (cut : window < numeral.length) :
    leading admissible (numeral.take window) = none := by
  cases found : leading admissible (numeral.take window) with
  | none => rfl
  | some shown =>
      obtain ⟨shownTerminated, -, front⟩ := leading_eq_some_iff.mp found
      have inside := front.trans (List.take_prefix window numeral)
      have same := shownTerminated.eq_of_isPrefix terminated inside
      have short := front.length_le
      rw [same, List.length_take] at short
      omega

/-- The values of numerals with `count + 1` digits that reach
`128 ^ count * least`. -/
theorem highFinal_iff {least count : Nat} {bytes numeral : List UInt8}
    (positive : 0 < least)
    (found : leading (count + 1) bytes = some numeral) :
    HighFinal least count bytes ↔ 128 ^ count * least ≤ value numeral := by
  induction count generalizing bytes numeral with
  | zero =>
      cases bytes with
      | nil => cases found
      | cons byte bytes =>
          rw [leading] at found
          split at found
          · rename_i final
            cases found
            simp only [HighFinal, value]
            omega
          · cases found
  | succ count induction =>
      cases bytes with
      | nil => cases found
      | cons byte bytes =>
          rw [leading] at found
          have power : 128 ^ (count + 1) * least =
              128 * (128 ^ count * least) := by
            rw [Nat.pow_succ, Nat.mul_comm (128 ^ count), Nat.mul_assoc]
          have one : 1 ≤ 128 ^ count * least :=
            Nat.mul_pos (Nat.pow_pos (by decide)) positive
          split at found
          · rename_i final
            cases found
            simp only [HighFinal, value]
            omega
          · rename_i continuation
            obtain ⟨rest, restFound, rfl⟩ := Option.map_eq_some_iff.mp found
            simp only [HighFinal, value, power, induction restFound]
            omega

theorem leading_of_firstFinal {admissible index : Nat} {bytes : List UInt8}
    (first : FirstFinal admissible bytes index) :
    leading admissible bytes = some (bytes.take (index + 1)) := by
  induction admissible generalizing bytes index with
  | zero => exact absurd first.admitted (Nat.not_lt_zero index)
  | succ admissible induction =>
      obtain ⟨last, found, final⟩ := first.final
      cases bytes with
      | nil => cases found
      | cons byte bytes =>
          cases index with
          | zero =>
              cases found
              rw [leading, if_pos final, List.take_succ_cons, List.take_zero]
          | succ index =>
              have continuation : 128 ≤ byte.toNat :=
                first.continued 0 (Nat.succ_pos index) byte rfl
              have later : FirstFinal admissible bytes index := {
                admitted := Nat.lt_of_succ_lt_succ first.admitted
                final := ⟨last, found, final⟩
                continued := fun earlier before =>
                  first.continued (earlier + 1) (Nat.succ_lt_succ before)
              }
              rw [leading, if_neg (Nat.not_lt.mpr continuation),
                induction later, Option.map_some, List.take_succ_cons]

theorem leading_eq_none {admissible : Nat} {bytes : List UInt8}
    (continued : ∀ index, index < admissible →
      ∀ byte, bytes[index]? = some byte → 128 ≤ byte.toNat) :
    leading admissible bytes = none := by
  induction admissible generalizing bytes with
  | zero => rfl
  | succ admissible induction =>
      cases bytes with
      | nil => rfl
      | cons byte bytes =>
          have continuation : 128 ≤ byte.toNat :=
            continued 0 (Nat.succ_pos admissible) byte rfl
          have later : leading admissible bytes = none :=
            induction fun index below =>
              continued (index + 1) (Nat.succ_lt_succ below)
          rw [leading, if_neg (Nat.not_lt.mpr continuation), later,
            Option.map_none]

theorem exists_firstFinal {admissible index : Nat} {bytes : List UInt8}
    (admitted : index < admissible)
    (final : ∃ byte, bytes[index]? = some byte ∧ byte.toNat < 128) :
    ∃ first, FirstFinal admissible bytes first := by
  induction index using Nat.strongRecOn with
  | ind index induction =>
      by_cases preceded : ∃ earlier, earlier < index ∧
          ∃ byte, bytes[earlier]? = some byte ∧ byte.toNat < 128
      · obtain ⟨earlier, before, earlierFinal⟩ := preceded
        exact induction earlier before (Nat.lt_trans before admitted)
          earlierFinal
      · refine ⟨index, admitted, final, ?_⟩
        intro earlier before byte found
        apply Nat.not_lt.mp
        intro small
        exact preceded ⟨earlier, before, byte, found, small⟩

section DecodeLoop

variable {width : Nat} {memory : Memory} {limit : Nat}

/-- A digit enters the word above an accumulator that does not reach it. -/
private theorem toNat_accumulate (wide : 7 ≤ width) (byte : UInt8)
    {position : Nat} {result : BitVec width}
    (low : result.toNat < 2 ^ (7 * position)) :
    (result ||| ((byte.toBitVec.setWidth width &&& 127#(width)) <<<
        (7 * position))).toNat =
      (result.toNat + 2 ^ (7 * position) * (byte.toNat % 128)) %
        2 ^ width := by
  have reach : 2 ^ 7 ≤ 2 ^ width := Nat.pow_le_pow_right (by decide) wide
  have mask : (127#(width)).toNat = 2 ^ 7 - 1 := by
    rw [BitVec.toNat_ofNat]
    exact Nat.mod_eq_of_lt (by omega)
  have digit : (byte.toBitVec.setWidth width &&& 127#(width)).toNat =
      byte.toNat % 128 := by
    rw [BitVec.toNat_and, mask, Nat.and_two_pow_sub_one_eq_mod,
      BitVec.toNat_setWidth, Nat.mod_mod_of_dvd _ (Nat.pow_dvd_pow 2 wide)]
    rfl
  have wrapped : result.toNat = result.toNat % 2 ^ width :=
    (Nat.mod_eq_of_lt result.isLt).symm
  rw [BitVec.toNat_or, BitVec.toNat_shiftLeft, digit, Nat.shiftLeft_eq,
    Nat.mul_comm (byte.toNat % 128), Nat.add_comm,
    Nat.two_pow_add_eq_or_of_lt low, Nat.or_mod_two_pow, ← wrapped,
    Nat.or_comm]

/-- The loop finds the leading numeral of the bytes up to its limit.  Where
the numeral ends earlier, nothing behind it needs to be readable. -/
theorem decodeLoop_eq (wide : 7 ≤ width) {passes position p : Nat}
    {result : BitVec width} {bytes : List UInt8}
    (low : result.toNat < 2 ^ (7 * position))
    (held : memory.HoldsAt p bytes) (within : p + bytes.length ≤ limit)
    (exhausted : leading passes bytes = none → bytes.length < passes →
      p + bytes.length = limit) :
    decodeLoop width memory limit passes position p result =
      pure ((leading passes bytes).map fun numeral =>
        (BitVec.ofNat width
          (result.toNat + 2 ^ (7 * position) * value numeral),
        p + numeral.length)) := by
  induction passes generalizing position p result bytes with
  | zero => rfl
  | succ passes induction =>
      cases bytes with
      | nil =>
          have stop := exhausted rfl (Nat.succ_pos passes)
          rw [List.length_nil, Nat.add_zero] at stop
          rw [decodeLoop, if_neg (by omega)]
          rfl
      | cons byte bytes =>
          obtain ⟨found, rest⟩ := Memory.holdsAt_cons.mp held
          rw [List.length_cons] at within
          have grown := toNat_accumulate wide byte low
          rw [decodeLoop, if_pos (by omega),
            Memory.readByte_of_byteAt found, pure_bind, leading]
          by_cases final : byte.toNat < 128
          · have collected := BitVec.eq_of_toNat_eq
              (grown.trans (BitVec.toNat_ofNat _ _).symm)
            simp only [if_pos final, Option.map_some, collected, value,
              List.length_singleton, Nat.mul_zero, Nat.add_zero]
          · have power :
                2 ^ (7 * (position + 1)) = 2 ^ (7 * position) * 128 := by
              rw [Nat.mul_add, Nat.pow_add]
            have digit : byte.toNat % 128 < 128 := Nat.mod_lt _ (by decide)
            have product := Nat.mul_le_mul_left (2 ^ (7 * position))
              (Nat.le_sub_one_of_lt digit)
            have lower := Nat.mod_le
              (result.toNat + 2 ^ (7 * position) * (byte.toNat % 128))
              (2 ^ width)
            have lowNext : _ < 2 ^ (7 * (position + 1)) :=
              Nat.lt_of_le_of_lt (Nat.le_of_eq grown) (by rw [power]; omega)
            have remaining := induction lowNext rest (by omega) (by
                intro none short
                rw [leading, if_neg final, none, List.length_cons] at exhausted
                have stop := exhausted rfl (by omega)
                omega)
            simp only [if_neg final, remaining, Option.map_map]
            congr 1
            apply Option.map_congr
            intro numeral _
            have denoted :
                result.toNat + 2 ^ (7 * position) * (byte.toNat % 128) +
                    2 ^ (7 * (position + 1)) * value numeral =
                  result.toNat +
                    2 ^ (7 * position) * value (byte :: numeral) := by
              rw [value, power, Nat.mul_add, Nat.mul_assoc, Nat.add_assoc]
            simp only [Function.comp_apply, List.length_cons, Prod.mk.injEq]
            refine ⟨?_, by omega⟩
            apply BitVec.eq_of_toNat_eq
            rw [BitVec.toNat_ofNat, BitVec.toNat_ofNat, grown, ← denoted,
              Nat.mod_add_mod]

theorem decodeLoop_start (wide : 7 ≤ width) {passes p : Nat}
    {bytes : List UInt8} (held : memory.HoldsAt p bytes)
    (within : p + bytes.length ≤ limit)
    (exhausted : leading passes bytes = none → bytes.length < passes →
      p + bytes.length = limit) :
    decodeLoop width memory limit passes 0 p 0#(width) =
      pure ((leading passes bytes).map fun numeral =>
        (BitVec.ofNat width (value numeral), p + numeral.length)) := by
  have empty : (0#(width)).toNat = 0 := BitVec.toNat_zero
  have low : (0#(width)).toNat < 2 ^ (7 * 0) := by
    rw [empty]
    decide
  have run := decodeLoop_eq wide low held within exhausted
  simp only [empty, Nat.mul_zero, Nat.pow_zero, Nat.one_mul,
    Nat.zero_add] at run
  exact run

end DecodeLoop

end Base128
