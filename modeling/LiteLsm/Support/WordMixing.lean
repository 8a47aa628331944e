import Mathlib.Data.Nat.ModEq
import Mathlib.Logic.Function.Basic

/-!
# Mixing steps

Multiplication by an odd number and the exclusive or with a right shift of the
word itself are injective on words of any width, and so is their composition,
the step many hash functions are made of.
-/

namespace WordMixing

variable {width : Nat}

theorem mul_injective {factor : BitVec width} (odd : factor.toNat % 2 = 1) :
    Function.Injective fun word : BitVec width => word * factor := by
  intro left right same
  have products := congrArg BitVec.toNat same
  simp only [BitVec.toNat_mul] at products
  have coprime : Nat.gcd (2 ^ width) factor.toNat = 1 := by
    apply Nat.Coprime.pow_left
    rw [Nat.Coprime, Nat.gcd_rec, odd]
    rfl
  have congruent : left.toNat ≡ right.toNat [MOD 2 ^ width] :=
    Nat.ModEq.cancel_right_of_coprime coprime products
  exact BitVec.eq_of_toNat_eq
    (Nat.ModEq.eq_of_lt_of_lt congruent left.isLt right.isLt)

theorem eq_zero_of_shiftRight {shift : Nat} (positive : 0 < shift)
    {word : BitVec width} (same : word = word >>> shift) :
    word = 0#(width) := by
  have shifted := congrArg BitVec.toNat same
  rw [BitVec.toNat_ushiftRight, Nat.shiftRight_eq_div_pow] at shifted
  apply BitVec.eq_of_toNat_eq
  rcases Nat.eq_zero_or_pos word.toNat with zero | nonzero
  · simpa using zero
  · have smaller : word.toNat / 2 ^ shift < word.toNat :=
      Nat.div_lt_self nonzero (Nat.one_lt_two_pow (Nat.ne_of_gt positive))
    omega

theorem xor_shiftRight_injective {shift : Nat} (positive : 0 < shift) :
    Function.Injective fun word : BitVec width =>
      word ^^^ (word >>> shift) := by
  intro left right same
  have difference : left ^^^ right = (left ^^^ right) >>> shift := by
    rw [BitVec.ushiftRight_xor_distrib, ← BitVec.xor_eq_zero_iff]
    calc
      left ^^^ right ^^^ (left >>> shift ^^^ right >>> shift) =
          (left ^^^ left >>> shift) ^^^ (right ^^^ right >>> shift) := by
        ac_rfl
      _ = 0#(width) := BitVec.xor_eq_zero_iff.mpr same
  exact BitVec.xor_eq_zero_iff.mp (eq_zero_of_shiftRight positive difference)

/-- Multiply, then fold the upper bits into the lower ones. -/
def mix (factor : BitVec width) (shift : Nat) (word : BitVec width) :
    BitVec width :=
  word * factor ^^^ (word * factor) >>> shift

theorem mix_injective {factor : BitVec width} (odd : factor.toNat % 2 = 1)
    {shift : Nat} (positive : 0 < shift) :
    Function.Injective (mix factor shift) :=
  (xor_shiftRight_injective positive).comp (mul_injective odd)

end WordMixing
