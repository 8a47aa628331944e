import LiteLsm.Common.Coding

/-!
# Lengths of varints

The page reader skips a varint by `varint_length` of the value it decoded, not
by the position the decoder returned.  The two agree on everything an encoder
writes, because both encoders write the shortest numeral and `varint_length`
counts its bytes.
-/

namespace LiteLsm

open Checked

/-- The unrolled encoder is the loop at a narrower type. -/
private theorem encodeVarint32_eq_encodeVarint64 (v : UInt32) :
    encodeVarint32 v = encodeVarint64 v.toUInt64 := by
  rw [encodeVarint32_eq, encodeVarint64_eq, UInt32.toNat_toUInt64]

private theorem varintLength_eq_length (v : UInt64) :
    varintLength v = (encodeVarint64 v).length := by
  rw [varintLength_eq, encodeVarint64_eq]

/-- An encoding is not longer than any string of digits of the same value. -/
private theorem length_encodeVarint64_minimal {v : UInt64} {bytes : Bytes}
    (nonempty : bytes ≠ []) (same : Base128.value bytes = v.toNat) :
    (encodeVarint64 v).length ≤ bytes.length := by
  rw [encodeVarint64_eq, ← same]
  exact Base128.length_encode_value_le nonempty

section Consumed

variable {memory : Memory} {p limit : Nat}

private theorem decodeVarint64Ptr_encode {v : UInt64}
    (held : memory.HoldsAt p (encodeVarint64 v))
    (within : p + (encodeVarint64 v).length ≤ limit) :
    decodeVarint64Ptr memory p limit =
      pure (some (v, p + varintLength v)) := by
  have front := leading_encodeVarint64 v []
  rw [List.append_nil] at front
  have value : Base128.value (encodeVarint64 v) = v.toNat := by
    rw [encodeVarint64_eq, Base128.value_encode]
  rw [decodeVarint64Ptr_eq held within
    (by rw [front]; intro impossible; cases impossible), front,
    Option.map_some, value, UInt64.ofNat_toNat, varintLength_eq_length]

private theorem decodeVarint32Ptr_encode {v : UInt32}
    (held : memory.HoldsAt p (encodeVarint32 v))
    (within : p + (encodeVarint32 v).length ≤ limit) :
    decodeVarint32Ptr memory p limit =
      pure (some (v, p + varintLength v.toUInt64)) := by
  have front := leading_encodeVarint32 v []
  rw [List.append_nil] at front
  rw [decodeVarint32Ptr_eq held within
    (by rw [front]; intro impossible; cases impossible), front,
    Option.map_some, value_encodeVarint32, UInt32.ofNat_toNat,
    varintLength_toUInt64]

end Consumed

/-- `varint_length` counts the bytes of an encoding, both encoders write the
same bytes, no terminated byte string of the same value is shorter, and a
decoder consumes as many bytes of an encoding as `varint_length` says. -/
theorem varint_lengths_agree :
    (∀ v : UInt64, varintLength v = (encodeVarint64 v).length) ∧
    (∀ v : UInt32, encodeVarint32 v = encodeVarint64 v.toUInt64) ∧
    (∀ (v : UInt64) (front : Bytes) (final : UInt8), final < 128 →
      Base128.value (front ++ [final]) = v.toNat →
      ¬(front ++ [final]).length < (encodeVarint64 v).length) ∧
    (∀ (memory : Memory) (p limit : Nat) (v : UInt64),
      memory.HoldsAt p (encodeVarint64 v) →
      p + (encodeVarint64 v).length ≤ limit →
      decodeVarint64Ptr memory p limit =
        pure (some (v, p + varintLength v))) ∧
    (∀ (memory : Memory) (p limit : Nat) (v : UInt32),
      memory.HoldsAt p (encodeVarint32 v) →
      p + (encodeVarint32 v).length ≤ limit →
      decodeVarint32Ptr memory p limit =
        pure (some (v, p + varintLength v.toUInt64))) := by
  constructor
  · exact varintLength_eq_length
  constructor
  · exact encodeVarint32_eq_encodeVarint64
  constructor
  · intro v front final _ same shorter
    have minimal := length_encodeVarint64_minimal (by simp) same
    exact absurd shorter (Nat.not_lt.mpr minimal)
  constructor
  · intro memory p limit v held within
    exact decodeVarint64Ptr_encode held within
  · intro memory p limit v held within
    exact decodeVarint32Ptr_encode held within

end LiteLsm
