import Mathlib.Algebra.Group.Int.Defs
import Mathlib.Algebra.Group.Nat.Defs

/-!
# Base-128 numerals

A numeral is a byte string whose bytes all have their high bit set, except the
last.  The low seven bits of each byte are a digit, least significant first.
`encode` produces the shortest numeral of a number; `value` reads any string
of digits, whether or not it is terminated.
-/

namespace Base128

/-- The number denoted by the low seven bits of each byte. -/
def value : List UInt8 → Nat
  | [] => 0
  | byte :: bytes => byte.toNat % 128 + 128 * value bytes

/-- Continuation bytes followed by one final byte. -/
inductive Terminated : List UInt8 → Prop where
  | last {byte : UInt8} : byte.toNat < 128 → Terminated [byte]
  | more {byte : UInt8} {bytes : List UInt8} :
      128 ≤ byte.toNat → Terminated bytes → Terminated (byte :: bytes)

/-- The shortest numeral of a number. -/
def encode (number : Nat) : List UInt8 :=
  if number < 128 then [UInt8.ofNat number]
  else UInt8.ofNat (number % 128 + 128) :: encode (number / 128)

theorem encode_of_lt {number : Nat} (small : number < 128) :
    encode number = [UInt8.ofNat number] := by
  rw [encode, if_pos small]

theorem encode_of_le {number : Nat} (large : 128 ≤ number) :
    encode number =
      UInt8.ofNat (number % 128 + 128) :: encode (number / 128) := by
  rw [encode, if_neg (Nat.not_lt.mpr large)]

theorem toNat_last {number : Nat} (small : number < 128) :
    (UInt8.ofNat number).toNat = number := by
  rw [UInt8.toNat_ofNat']
  omega

theorem toNat_more (number : Nat) :
    (UInt8.ofNat (number % 128 + 128)).toNat = number % 128 + 128 := by
  rw [UInt8.toNat_ofNat']
  omega

theorem terminated_encode (number : Nat) : Terminated (encode number) := by
  induction number using Nat.strongRecOn with
  | ind number induction =>
      by_cases small : number < 128
      · rw [encode_of_lt small]
        exact .last (by rw [toNat_last small]; exact small)
      · have large : 128 ≤ number := Nat.not_lt.mp small
        rw [encode_of_le large]
        exact .more (by rw [toNat_more]; omega)
          (induction (number / 128) (by omega))

theorem value_encode (number : Nat) : value (encode number) = number := by
  induction number using Nat.strongRecOn with
  | ind number induction =>
      by_cases small : number < 128
      · rw [encode_of_lt small, value, value, toNat_last small]
        omega
      · have large : 128 ≤ number := Nat.not_lt.mp small
        rw [encode_of_le large, value, toNat_more,
          induction (number / 128) (by omega)]
        omega

theorem length_encode_pos (number : Nat) : 0 < (encode number).length := by
  rw [encode]
  split <;> simp

theorem length_encode_le {number digits : Nat}
    (bound : number < 128 ^ (digits + 1)) :
    (encode number).length ≤ digits + 1 := by
  induction digits generalizing number with
  | zero => simp [encode_of_lt (by simpa using bound)]
  | succ digits induction =>
      by_cases small : number < 128
      · simp [encode_of_lt small]
      · have quotient : number / 128 < 128 ^ (digits + 1) := by
          rw [Nat.div_lt_iff_lt_mul (by decide), ← Nat.pow_succ]
          exact bound
        rw [encode_of_le (Nat.not_lt.mp small), List.length_cons]
        exact Nat.succ_le_succ (induction quotient)

theorem lt_length_encode {number digits : Nat}
    (large : 128 ^ digits ≤ number) : digits < (encode number).length := by
  induction digits generalizing number with
  | zero => exact length_encode_pos number
  | succ digits induction =>
      have quotient : 128 ^ digits ≤ number / 128 := by
        rw [Nat.le_div_iff_mul_le (by decide), ← Nat.pow_succ]
        exact large
      have positive : 0 < 128 ^ digits := Nat.pow_pos (by decide)
      rw [encode_of_le (by omega), List.length_cons]
      exact Nat.succ_lt_succ (induction quotient)

theorem length_encode_le_succ (number : Nat) :
    (encode number).length ≤ number + 1 := by
  induction number using Nat.strongRecOn with
  | ind number induction =>
      by_cases small : number < 128
      · simp [encode_of_lt small]
      · have quotient := induction (number / 128) (by omega)
        rw [encode_of_le (Nat.not_lt.mp small), List.length_cons]
        omega

theorem length_encode_mono {lower upper : Nat} (le : lower ≤ upper) :
    (encode lower).length ≤ (encode upper).length := by
  induction upper using Nat.strongRecOn generalizing lower with
  | ind upper induction =>
      by_cases small : lower < 128
      · rw [encode_of_lt small, List.length_singleton]
        exact length_encode_pos upper
      · have large : 128 ≤ lower := Nat.not_lt.mp small
        rw [encode_of_le large, encode_of_le (Nat.le_trans large le),
          List.length_cons, List.length_cons]
        exact Nat.succ_le_succ
          (induction (upper / 128) (by omega) (Nat.div_le_div_right le))

theorem value_lt_pow_length (bytes : List UInt8) :
    value bytes < 128 ^ bytes.length := by
  induction bytes with
  | nil => exact Nat.one_pos
  | cons byte bytes induction =>
      have digit : byte.toNat % 128 < 128 := Nat.mod_lt _ (by decide)
      rw [value, List.length_cons, Nat.pow_succ]
      omega

/-- No string of digits is shorter than the numeral of its value. -/
theorem length_encode_value_le {bytes : List UInt8} (nonempty : bytes ≠ []) :
    (encode (value bytes)).length ≤ bytes.length := by
  obtain ⟨count, length⟩ : ∃ count, bytes.length = count + 1 :=
    Nat.exists_eq_succ_of_ne_zero (by simpa using nonempty)
  have bound := value_lt_pow_length bytes
  rw [length] at bound ⊢
  exact length_encode_le bound

end Base128
