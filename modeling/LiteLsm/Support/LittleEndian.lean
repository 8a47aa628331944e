import Mathlib.Algebra.Group.Int.Defs
import Mathlib.Algebra.Group.Nat.Defs

/-!
# Little-endian words

`word` assembles bytes into a bit vector, first byte lowest; `bytes` takes a
bit vector apart.  Bytes that do not fit into the width are shifted out, so
both directions are stated for strings that fill the width exactly or stay
below it.
-/

namespace LittleEndian

variable {width : Nat}

/-- The word whose lowest byte is the first of the list. -/
def word (width : Nat) : List UInt8 → BitVec width
  | [] => 0#(width)
  | byte :: rest => byte.toBitVec.setWidth width ^^^ (word width rest <<< 8)

/-- The lowest `count` bytes of a word. -/
def bytes : Nat → BitVec width → List UInt8
  | 0, _ => []
  | count + 1, source =>
      UInt8.ofBitVec (source.setWidth 8) :: bytes count (source >>> 8)

@[simp] theorem length_bytes (count : Nat) (source : BitVec width) :
    (bytes count source).length = count := by
  induction count generalizing source with
  | zero => rfl
  | succ count induction => simp [bytes, induction]

/-- Bit `index` of a word is bit `index % 8` of its byte `index / 8`; bytes
past the end of the list are zero. -/
theorem getLsbD_word (list : List UInt8) {index : Nat}
    (inWord : index < width) :
    (word width list).getLsbD index =
      (list.getD (index / 8) 0).toBitVec.getLsbD (index % 8) := by
  induction list generalizing index with
  | nil => simp [word]
  | cons byte rest induction =>
      by_cases inByte : index < 8
      · have first : index / 8 = 0 := Nat.div_eq_of_lt inByte
        have low : index % 8 = index := Nat.mod_eq_of_lt inByte
        simp [word, inByte, inWord, first, low]
      · obtain ⟨lower, rfl⟩ : ∃ lower, index = lower + 8 :=
          ⟨index - 8, by omega⟩
        have quotient : (lower + 8) / 8 = lower / 8 + 1 := by omega
        have remainder : (lower + 8) % 8 = lower % 8 := by omega
        have beyond : byte.toBitVec.getLsbD (lower + 8) = false :=
          BitVec.getLsbD_of_ge _ _ (by omega)
        rw [word, BitVec.getLsbD_xor, BitVec.getLsbD_setWidth, beyond,
          BitVec.getLsbD_shiftLeft, Nat.add_sub_cancel,
          induction (by omega), quotient, remainder, List.getD_cons_succ]
        simp [inWord]

theorem getLsbD_word_bytes (count : Nat) (source : BitVec width)
    {index : Nat} (inWord : index < width) (within : index < 8 * count) :
    (word width (bytes count source)).getLsbD index =
      source.getLsbD index := by
  rw [getLsbD_word _ inWord]
  induction count generalizing source index with
  | zero => omega
  | succ count induction =>
      by_cases inByte : index < 8
      · have first : index / 8 = 0 := Nat.div_eq_of_lt inByte
        have low : index % 8 = index := Nat.mod_eq_of_lt inByte
        simp [bytes, inByte, first, low]
      · obtain ⟨lower, rfl⟩ : ∃ lower, index = lower + 8 :=
          ⟨index - 8, by omega⟩
        have quotient : (lower + 8) / 8 = lower / 8 + 1 := by omega
        have remainder : (lower + 8) % 8 = lower % 8 := by omega
        rw [bytes, quotient, remainder, List.getD_cons_succ,
          induction (source >>> 8) (by omega) (by omega),
          BitVec.getLsbD_ushiftRight, Nat.add_comm]

theorem word_bytes {count : Nat} (enough : width ≤ 8 * count)
    (source : BitVec width) : word width (bytes count source) = source := by
  apply BitVec.eq_of_getLsbD_eq
  intro index inWord
  exact getLsbD_word_bytes count source inWord (by omega)

theorem word_injective {left right : List UInt8}
    (sameLength : left.length = right.length)
    (fits : 8 * left.length ≤ width)
    (sameWord : word width left = word width right) : left = right := by
  apply List.ext_getElem sameLength
  intro position leftBound rightBound
  apply UInt8.toBitVec_inj.mp
  apply BitVec.eq_of_getLsbD_eq
  intro bit inByte
  have inWord : 8 * position + bit < width := by omega
  have quotient : (8 * position + bit) / 8 = position := by omega
  have remainder : (8 * position + bit) % 8 = bit := by omega
  have sameBit :=
    congrArg (fun source => BitVec.getLsbD source (8 * position + bit)) sameWord
  simpa [getLsbD_word _ inWord, quotient, remainder, leftBound, rightBound]
    using sameBit

end LittleEndian
