import Mathlib.Algebra.Group.Int.Defs
import Mathlib.Algebra.Group.Nat.Defs
import Mathlib.Logic.Function.Iterate
import LiteLsm.Support.LittleEndian

/-!
# Reflected cyclic redundancy checks, one bit at a time

The register holds the remainder with its highest coefficient in the lowest
bit.  One bit of input shifts the register right and adds the polynomial when
a one fell out.  Everything here holds for every width and every polynomial;
the injectivity results need the polynomial's constant term, which reflection
places in the highest bit.
-/

namespace BitCrc

open LittleEndian

variable {width : Nat} (poly : BitVec width)

def bitStep (register : BitVec width) : BitVec width :=
  (register >>> 1) ^^^ (if register.getLsbD 0 then poly else 0#(width))

/-- Eight bits of zero input. -/
def byteStep (register : BitVec width) : BitVec width :=
  (bitStep poly)^[8] register

/-- One byte of input, lowest bit first. -/
def feed (register : BitVec width) (byte : UInt8) : BitVec width :=
  byteStep poly (register ^^^ byte.toBitVec.setWidth width)

def feedAll (register : BitVec width) (bytes : List UInt8) : BitVec width :=
  bytes.foldl (feed poly) register

@[simp] theorem feedAll_nil (register : BitVec width) :
    feedAll poly register [] = register :=
  rfl

theorem feedAll_append (register : BitVec width) (left right : List UInt8) :
    feedAll poly register (left ++ right) =
      feedAll poly (feedAll poly register left) right :=
  List.foldl_append

private theorem xor_exchange (a b c d : BitVec width) :
    (a ^^^ b) ^^^ (c ^^^ d) = (a ^^^ c) ^^^ (b ^^^ d) := by
  ac_rfl

theorem bitStep_xor (left right : BitVec width) :
    bitStep poly (left ^^^ right) =
      bitStep poly left ^^^ bitStep poly right := by
  unfold bitStep
  rw [BitVec.ushiftRight_xor_distrib, BitVec.getLsbD_xor, xor_exchange]
  cases left.getLsbD 0 <;> cases right.getLsbD 0 <;> simp

theorem iterate_bitStep_xor (count : Nat) (left right : BitVec width) :
    (bitStep poly)^[count] (left ^^^ right) =
      (bitStep poly)^[count] left ^^^ (bitStep poly)^[count] right := by
  induction count with
  | zero => rfl
  | succ count induction =>
      simp only [Function.iterate_succ_apply', induction, bitStep_xor]

theorem byteStep_xor (left right : BitVec width) :
    byteStep poly (left ^^^ right) =
      byteStep poly left ^^^ byteStep poly right :=
  iterate_bitStep_xor poly 8 left right

theorem iterate_byteStep_xor (count : Nat) (left right : BitVec width) :
    (byteStep poly)^[count] (left ^^^ right) =
      (byteStep poly)^[count] left ^^^ (byteStep poly)^[count] right := by
  induction count with
  | zero => rfl
  | succ count induction =>
      simp only [Function.iterate_succ_apply', induction, byteStep_xor]

/-- While no one falls out, a step only shifts. -/
theorem iterate_bitStep_of_low_zero (count : Nat) {register : BitVec width}
    (low : ∀ index, index < count → register.getLsbD index = false) :
    (bitStep poly)^[count] register = register >>> count := by
  induction count with
  | zero => simp
  | succ count induction =>
      have earlier := induction fun index below =>
        low index (Nat.lt_succ_of_lt below)
      have next : (register >>> count).getLsbD 0 = false := by
        simpa using low count (Nat.lt_succ_self count)
      simp [Function.iterate_succ_apply', earlier, bitStep, next,
        BitVec.shiftRight_add]

theorem byteStep_of_low_zero {register : BitVec width}
    (low : ∀ index, index < 8 → register.getLsbD index = false) :
    byteStep poly register = register >>> 8 :=
  iterate_bitStep_of_low_zero poly 8 low

theorem byteStep_shiftLeft {register : BitVec width}
    (high : ∀ index, width ≤ index + 8 → register.getLsbD index = false) :
    byteStep poly (register <<< 8) = register := by
  rw [byteStep_of_low_zero]
  · apply BitVec.eq_of_getLsbD_eq
    intro index inWord
    have notLow : ¬8 + index < 8 := by omega
    rw [BitVec.getLsbD_ushiftRight, BitVec.getLsbD_shiftLeft,
      Nat.add_sub_cancel_left]
    by_cases fits : 8 + index < width
    · simp [fits, notLow]
    · simp [fits, high index (by omega)]
  · intro index inByte
    simp [inByte]

theorem getLsbD_byteMask {index : Nat} (inWord : index < width) :
    (255#(width)).getLsbD index = decide (index < 8) := by
  have mask : (255 : Nat) = 2 ^ 8 - 1 := rfl
  simp only [BitVec.getLsbD_ofNat, inWord, decide_true, Bool.true_and, mask,
    Nat.testBit_two_pow_sub_one]

/-- Only the low byte takes part in the feedback of eight steps. -/
theorem byteStep_split (register : BitVec width) :
    byteStep poly register =
      byteStep poly (register &&& 255#(width)) ^^^ (register >>> 8) := by
  have parts : register =
      (register &&& 255#(width)) ^^^ (register &&& ~~~255#(width)) := by
    apply BitVec.eq_of_getLsbD_eq
    intro index inWord
    simp only [BitVec.getLsbD_xor, BitVec.getLsbD_and, BitVec.getLsbD_not,
      inWord, decide_true, Bool.true_and]
    cases register.getLsbD index <;> cases (255#(width)).getLsbD index <;> rfl
  have low : ∀ index, index < 8 →
      (register &&& ~~~255#(width)).getLsbD index = false := by
    intro index inByte
    by_cases inWord : index < width
    · simp [getLsbD_byteMask inWord, inByte]
    · exact BitVec.getLsbD_of_ge _ _ (Nat.not_lt.mp inWord)
  have high : (register &&& ~~~255#(width)) >>> 8 = register >>> 8 := by
    apply BitVec.eq_of_getLsbD_eq
    intro index _
    simp only [BitVec.getLsbD_ushiftRight, BitVec.getLsbD_and,
      BitVec.getLsbD_not]
    by_cases inWord : 8 + index < width
    · have notLow : ¬8 + index < 8 := by omega
      simp only [getLsbD_byteMask inWord, inWord, notLow, decide_false,
        decide_true, Bool.not_false, Bool.and_true]
    · simp [BitVec.getLsbD_of_ge register (8 + index) (Nat.not_lt.mp inWord)]
  calc
    byteStep poly register =
        byteStep poly ((register &&& 255#(width)) ^^^
          (register &&& ~~~255#(width))) := congrArg (byteStep poly) parts
    _ = byteStep poly (register &&& 255#(width)) ^^^
          byteStep poly (register &&& ~~~255#(width)) := byteStep_xor poly _ _
    _ = byteStep poly (register &&& 255#(width)) ^^^ (register >>> 8) := by
      rw [byteStep_of_low_zero poly low, high]

theorem iterate_byteStep_split (count : Nat) (register : BitVec width) :
    (byteStep poly)^[count + 1] register =
      (byteStep poly)^[count + 1] (register &&& 255#(width)) ^^^
        (byteStep poly)^[count] (register >>> 8) := by
  rw [Function.iterate_succ_apply, byteStep_split, iterate_byteStep_xor,
    ← Function.iterate_succ_apply]

/-- Feeding bytes that fit into the register is adding their little-endian
word and then shifting it through. -/
theorem feedAll_eq_word {bytes : List UInt8} (fits : 8 * bytes.length ≤ width)
    (register : BitVec width) :
    feedAll poly register bytes =
      (byteStep poly)^[bytes.length] (register ^^^ word width bytes) := by
  induction bytes generalizing register with
  | nil => simp [word]
  | cons byte rest induction =>
      rw [List.length_cons] at fits
      have high : ∀ index, width ≤ index + 8 →
          (word width rest).getLsbD index = false := by
        intro index top
        by_cases inWord : index < width
        · have past : rest.length ≤ index / 8 := by omega
          rw [getLsbD_word rest inWord]
          simp [past]
        · exact BitVec.getLsbD_of_ge _ _ (Nat.not_lt.mp inWord)
      calc
        feedAll poly register (byte :: rest) =
            feedAll poly (feed poly register byte) rest := rfl
        _ = (byteStep poly)^[rest.length]
              (feed poly register byte ^^^ word width rest) :=
          induction (by omega) (feed poly register byte)
        _ = (byteStep poly)^[rest.length]
              (byteStep poly (register ^^^ word width (byte :: rest))) := by
          rw [word, ← BitVec.xor_assoc,
            byteStep_xor poly _ (word width rest <<< 8),
            byteStep_shiftLeft poly high, feed]
        _ = (byteStep poly)^[(byte :: rest).length]
              (register ^^^ word width (byte :: rest)) := by
          rw [List.length_cons, Function.iterate_succ_apply]

section Injective

variable {poly}

theorem bitStep_injective (constant : poly.msb = true) :
    Function.Injective (bitStep poly) := by
  intro left right equality
  have kernel : bitStep poly (left ^^^ right) = 0#(width) := by
    rw [bitStep_xor, equality, BitVec.xor_self]
  have positive : 0 < width := by
    rcases Nat.eq_zero_or_pos width with rfl | positive
    · simp [BitVec.of_length_zero] at constant
    · exact positive
  have zero : left ^^^ right = 0#(width) := by
    generalize left ^^^ right = register at kernel
    unfold bitStep at kernel
    cases lowest : register.getLsbD 0 with
    | true =>
        rw [lowest, if_pos rfl] at kernel
        have top := congrArg BitVec.msb kernel
        simp [BitVec.msb_xor, constant, BitVec.msb_ushiftRight] at top
    | false =>
        simp only [lowest, Bool.false_eq_true, if_false,
          BitVec.xor_zero] at kernel
        apply BitVec.eq_of_getLsbD_eq
        intro index inWord
        cases index with
        | zero => simpa using lowest
        | succ index =>
            have shifted := congrArg (fun x => BitVec.getLsbD x index) kernel
            simpa [Nat.add_comm 1 index] using shifted
  exact BitVec.xor_eq_zero_iff.mp zero

theorem byteStep_injective (constant : poly.msb = true) :
    Function.Injective (byteStep poly) :=
  (bitStep_injective constant).iterate 8

theorem feedAll_injective (constant : poly.msb = true) (bytes : List UInt8) :
    Function.Injective (fun register => feedAll poly register bytes) := by
  induction bytes with
  | nil => exact Function.injective_id
  | cons byte bytes induction =>
      intro left right equality
      have stepped : feed poly left byte = feed poly right byte :=
        induction equality
      have added := byteStep_injective constant stepped
      exact (BitVec.xor_left_inj _).mp added

/-- Two strings that differ only inside a window no longer than the register
leave different remainders. -/
theorem burst_detected (constant : poly.msb = true)
    (register : BitVec width) (before after : List UInt8)
    {window damaged : List UInt8}
    (sameLength : window.length = damaged.length)
    (fits : 8 * window.length ≤ width) (different : window ≠ damaged) :
    feedAll poly register (before ++ window ++ after) ≠
      feedAll poly register (before ++ damaged ++ after) := by
  intro equality
  simp only [feedAll_append] at equality
  have atWindow := feedAll_injective constant after equality
  have damagedFits : 8 * damaged.length ≤ width := sameLength ▸ fits
  generalize feedAll poly register before = reached at atWindow
  rw [feedAll_eq_word poly fits, feedAll_eq_word poly damagedFits,
    sameLength] at atWindow
  have words :=
    ((byteStep_injective constant).iterate damaged.length) atWindow
  exact different
    (word_injective sameLength fits ((BitVec.xor_right_inj _).mp words))

/-- A string followed by its complemented remainder leaves the same residue
as every other such string, and no other trailer of that length does. -/
theorem residue_iff (constant : poly.msb = true) (register mask : BitVec width)
    (message : List UInt8) {trailer : List UInt8}
    (fills : width = 8 * trailer.length) :
    feedAll poly register (message ++ trailer) =
        (byteStep poly)^[trailer.length] mask ↔
      feedAll poly register message ^^^ mask = word width trailer := by
  rw [feedAll_append, feedAll_eq_word poly (Nat.le_of_eq fills.symm)]
  constructor
  · intro equality
    have added :=
      ((byteStep_injective constant).iterate trailer.length) equality
    rw [← added, ← BitVec.xor_assoc, BitVec.xor_self, BitVec.zero_xor]
  · intro stored
    rw [← stored, ← BitVec.xor_assoc, BitVec.xor_self, BitVec.zero_xor]

end Injective

end BitCrc
