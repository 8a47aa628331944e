import Mathlib.Algebra.GroupWithZero.Nat
import Mathlib.Data.Nat.Bits
import LiteLsm.Support.BitCrc

/-!
# The parity of bits

The number of bits set in a word, up to multiples of two, is a linear function
of the word.  A check register whose polynomial has an odd number of bits
keeps the parity of everything that was fed to it.
-/

namespace BitParity

private theorem xor_exchange (a b c d : Bool) :
    ((a ^^ b) ^^ (c ^^ d)) = ((a ^^ c) ^^ (b ^^ d)) := by
  rw [Bool.xor_assoc, Bool.xor_assoc, Bool.xor_left_comm b]

/-- The parity of the first bits. -/
def ofBits (bit : Nat → Bool) (count : Nat) : Bool :=
  ((List.range count).countP bit).bodd

@[simp] theorem ofBits_zero (bit : Nat → Bool) : ofBits bit 0 = false := by
  simp [ofBits]

theorem ofBits_succ (bit : Nat → Bool) (count : Nat) :
    ofBits bit (count + 1) = (ofBits bit count ^^ bit count) := by
  rw [ofBits, List.range_succ, List.countP_append, Nat.bodd_add,
    List.countP_singleton, ← ofBits]
  cases bit count <;> rfl

theorem ofBits_xor (left right : Nat → Bool) (count : Nat) :
    ofBits (fun index => left index ^^ right index) count =
      (ofBits left count ^^ ofBits right count) := by
  induction count with
  | zero => simp
  | succ count induction =>
      rw [ofBits_succ, ofBits_succ, ofBits_succ, induction, xor_exchange]

theorem ofBits_succ' (bit : Nat → Bool) (count : Nat) :
    ofBits bit (count + 1) =
      (bit 0 ^^ ofBits (fun index => bit (1 + index)) count) := by
  induction count with
  | zero =>
      rw [ofBits_succ]
      exact Bool.xor_comm _ _
  | succ count induction =>
      rw [ofBits_succ, induction, ofBits_succ, Bool.xor_assoc,
        Nat.add_comm 1 count]

theorem ofBits_of_zero {bit : Nat → Bool} {count : Nat}
    (zero : ∀ index, count ≤ index → bit index = false) (more : Nat) :
    ofBits bit (count + more) = ofBits bit count := by
  induction more with
  | zero => rfl
  | succ more induction =>
      rw [← Nat.add_assoc, ofBits_succ, induction,
        zero _ (Nat.le_add_right count more), Bool.xor_false]

variable {width : Nat}

/-- Is the number of bits set in the word odd? -/
def parity (word : BitVec width) : Bool :=
  ofBits word.getLsbD width

theorem parity_xor (left right : BitVec width) :
    parity (left ^^^ right) = (parity left ^^ parity right) := by
  rw [parity, parity, parity, ← ofBits_xor]
  congr 1
  funext index
  exact BitVec.getLsbD_xor

theorem parity_zero : parity 0#(width) = false := by
  rw [parity, ofBits, List.countP_eq_zero.mpr]
  · rfl
  · simp

theorem parity_shiftRight (word : BitVec width) :
    parity (word >>> 1) = (parity word ^^ word.getLsbD 0) := by
  cases width with
  | zero => simp [BitVec.of_length_zero]
  | succ width =>
      have shifted : (word >>> 1).getLsbD =
          fun index => word.getLsbD (1 + index) := by
        funext index
        rw [BitVec.getLsbD_ushiftRight]
      have top : word.getLsbD (1 + width) = false :=
        BitVec.getLsbD_of_ge _ _ (by omega)
      rw [parity, parity, shifted, ofBits_succ, ofBits_succ', top,
        Bool.xor_false, Bool.xor_right_comm, Bool.xor_self, Bool.false_xor]

theorem parity_setWidth {narrow : Nat} (word : BitVec narrow)
    (fits : narrow ≤ width) : parity (word.setWidth width) = parity word := by
  obtain ⟨more, rfl⟩ := Nat.exists_eq_add_of_le fits
  have bits : (word.setWidth (narrow + more)).getLsbD = word.getLsbD := by
    funext index
    rw [BitVec.getLsbD_setWidth]
    by_cases inside : index < narrow + more
    · simp [inside]
    · simp [inside, BitVec.getLsbD_of_ge word index (by omega)]
  rw [parity, parity, bits, ofBits_of_zero]
  exact fun index above => BitVec.getLsbD_of_ge word index above

def ofBytes (bytes : List UInt8) : Bool :=
  bytes.foldl (fun sum byte => sum ^^ parity byte.toBitVec) false

/-- How many bits differ between two strings. -/
def flippedBits (left right : List UInt8) : Nat :=
  (List.zipWith (fun byte other =>
    (List.range 8).countP (byte ^^^ other).toBitVec.getLsbD) left right).sum

theorem foldl_parity (bytes : List UInt8) (start : Bool) :
    bytes.foldl (fun sum byte => sum ^^ parity byte.toBitVec) start =
      (start ^^ ofBytes bytes) := by
  induction bytes generalizing start with
  | nil => exact (Bool.xor_false start).symm
  | cons byte bytes induction =>
      rw [ofBytes, List.foldl_cons, List.foldl_cons, induction, induction,
        Bool.false_xor, Bool.xor_assoc]

theorem ofBytes_cons (byte : UInt8) (bytes : List UInt8) :
    ofBytes (byte :: bytes) = (parity byte.toBitVec ^^ ofBytes bytes) := by
  rw [ofBytes, List.foldl_cons, foldl_parity, Bool.false_xor]

/-- Strings of one length have different parities exactly if an odd number of
bits differ. -/
theorem bodd_flippedBits {left right : List UInt8}
    (length : left.length = right.length) :
    (flippedBits left right).bodd = (ofBytes left ^^ ofBytes right) := by
  induction left generalizing right with
  | nil =>
      cases right with
      | nil => rfl
      | cons => cases length
  | cons byte left induction =>
      cases right with
      | nil => cases length
      | cons other right =>
          have rest := induction (Nat.succ.inj length)
          have here := parity_xor byte.toBitVec other.toBitVec
          rw [flippedBits, List.zipWith_cons_cons, List.sum_cons,
            Nat.bodd_add, ← flippedBits, rest, ofBytes_cons, ofBytes_cons]
          have first : ((List.range 8).countP
              (byte ^^^ other).toBitVec.getLsbD).bodd =
                (parity byte.toBitVec ^^ parity other.toBitVec) := here
          rw [first, xor_exchange]

end BitParity

namespace BitCrc

open BitParity

variable {width : Nat} {poly : BitVec width}

theorem parity_bitStep (odd : parity poly = true) (register : BitVec width) :
    parity (bitStep poly register) = parity register := by
  rw [bitStep, parity_xor, parity_shiftRight]
  cases register.getLsbD 0 with
  | false => simp [parity_zero]
  | true => simp [odd]

theorem parity_byteStep (odd : parity poly = true) (register : BitVec width) :
    parity (byteStep poly register) = parity register := by
  rw [byteStep]
  generalize 8 = count
  induction count with
  | zero => rfl
  | succ count induction =>
      rw [Function.iterate_succ_apply', parity_bitStep odd, induction]

/-- The register keeps the parity of the bytes. -/
theorem parity_feedAll (odd : parity poly = true) (wide : 8 ≤ width)
    (register : BitVec width) (bytes : List UInt8) :
    parity (feedAll poly register bytes) =
      (parity register ^^ ofBytes bytes) := by
  induction bytes generalizing register with
  | nil => exact (Bool.xor_false _).symm
  | cons byte bytes induction =>
      have first : parity (feed poly register byte) =
          (parity register ^^ parity byte.toBitVec) := by
        rw [feed, parity_byteStep odd, parity_xor, parity_setWidth _ wide]
      calc
        parity (feedAll poly register (byte :: bytes)) =
            (parity (feed poly register byte) ^^ ofBytes bytes) :=
          induction (feed poly register byte)
        _ = (parity register ^^ ofBytes (byte :: bytes)) := by
          rw [first, ofBytes_cons, Bool.xor_assoc]

theorem even_flippedBits (odd : parity poly = true) (wide : 8 ≤ width)
    {register : BitVec width} {left right : List UInt8}
    (length : left.length = right.length)
    (same : feedAll poly register left = feedAll poly register right) :
    (flippedBits left right).bodd = false := by
  have equal := congrArg parity same
  rw [parity_feedAll odd wide, parity_feedAll odd wide,
    Bool.xor_right_inj] at equal
  rw [bodd_flippedBits length, equal, Bool.xor_self]

end BitCrc
