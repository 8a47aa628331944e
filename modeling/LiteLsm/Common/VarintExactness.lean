import LiteLsm.Common.Coding

/-!
# Numbers that do not fit

A varint32 has at most five bytes and a varint64 at most ten, which is room
for 35 and 70 bits.  The decoders reject longer numerals but not larger
numbers: what the last admissible byte carries beyond the width is shifted out
of the word.  This is the only way for a decoder to be wrong.
-/

namespace LiteLsm

open Checked

/-- Decoding the bytes of a slice at the given address stores the number that
the consumed bytes denote, and rejects a number which does not fit. -/
structure ExactDecoding {Word : Type} (toNat : Word → Nat)
    (width address : Nat) (bytes : Bytes)
    (read : Program (Option (Word × Slice))) : Prop where
  stored : ∀ val rest, read = pure (some (val, rest)) →
    toNat val = Base128.value (bytes.take (rest.data - address))
  rejected : ∀ numeral, Base128.Terminated numeral → numeral <+: bytes →
    2 ^ width ≤ Base128.value numeral → read = pure none

/-- A high last byte makes a numeral that is accepted and does not fit. -/
private theorem accepted_of_highFinal {least count : Nat} {bytes : Bytes}
    (high : Base128.HighFinal least count bytes) :
    ∃ numeral, Base128.leading (count + 1) bytes = some numeral := by
  induction count generalizing bytes with
  | zero =>
      cases bytes with
      | nil => cases high
      | cons byte bytes =>
          exact ⟨[byte], by rw [Base128.leading, if_pos high.2]⟩
  | succ count induction =>
      cases bytes with
      | nil => cases high
      | cons byte bytes =>
          obtain ⟨numeral, found⟩ := induction high.2
          refine ⟨byte :: numeral, ?_⟩
          rw [Base128.leading, if_neg (Nat.not_lt.mpr high.1), found,
            Option.map_some]

/-- Decoders that take the value of the leading numeral modulo `2 ^ width`
are exact where the last admissible byte carries no further bits. -/
private theorem exactDecoding_iff {Word : Type} {toNat : Word → Nat}
    {width address least count : Nat} {bytes : Bytes}
    {read : Program (Option (Word × Slice))} (ofNat : Nat → Word)
    (modulo : ∀ number, toNat (ofNat number) = number % 2 ^ width)
    (positive : 0 < least) (room : 128 ^ count * least = 2 ^ width)
    (decodes : read = pure ((Base128.leading (count + 1) bytes).map
      fun numeral => (ofNat (Base128.value numeral),
        { data := address + numeral.length
          size := bytes.length - numeral.length }))) :
    ExactDecoding toNat width address bytes read ↔
      ¬Base128.HighFinal least count bytes := by
  constructor
  · intro exact high
    obtain ⟨numeral, found⟩ := accepted_of_highFinal high
    have large := (Base128.highFinal_iff positive found).mp high
    obtain ⟨terminated, -, front⟩ := Base128.leading_eq_some_iff.mp found
    have rejected := exact.rejected numeral terminated front (room ▸ large)
    rw [decodes, found] at rejected
    cases pure_injective rejected
  · intro low
    constructor
    · intro val rest result
      rw [decodes] at result
      obtain ⟨numeral, found, decoded⟩ :=
        Option.map_eq_some_iff.mp (pure_injective result)
      obtain ⟨-, -, front⟩ := Base128.leading_eq_some_iff.mp found
      have fits : ¬2 ^ width ≤ Base128.value numeral := by
        rw [← room, ← Base128.highFinal_iff positive found]
        exact low
      cases decoded
      rw [modulo, Nat.mod_eq_of_lt (Nat.not_le.mp fits),
        Nat.add_sub_cancel_left, ← List.prefix_iff_eq_take.mp front]
    · intro numeral terminated front large
      cases found : Base128.leading (count + 1) bytes with
      | none => rw [decodes, found, Option.map_none]
      | some shown =>
          rw [← room, ← Base128.eq_of_leading found terminated front] at large
          exact absurd
            ((Base128.highFinal_iff positive found).mpr large) low

/-- The decoder for windows does not say how many bytes it consumed; they are
the numeral the window starts with. -/
private theorem exactWindow_iff {memory : Memory} {address : Nat}
    {bytes : Bytes} (held : memory.HoldsAt address bytes) :
    (∀ numeral, Base128.Terminated numeral → numeral <+: bytes →
        ∀ val, getVarint32 memory address bytes.length = pure (some val) →
          val.toNat = Base128.value numeral) ↔
      ¬Base128.HighFinal 16 4 bytes := by
  have decodes := getVarint32_eq held
  constructor
  · intro exact high
    obtain ⟨numeral, found⟩ := accepted_of_highFinal high
    have large := (Base128.highFinal_iff (by decide) found).mp high
    obtain ⟨terminated, -, front⟩ := Base128.leading_eq_some_iff.mp found
    rw [found, Option.map_some] at decodes
    have stored := exact numeral terminated front _ decodes
    have below := (UInt32.ofNat (Base128.value numeral)).toNat_lt
    omega
  · intro low numeral terminated front val result
    rw [decodes] at result
    obtain ⟨shown, found, rfl⟩ :=
      Option.map_eq_some_iff.mp (pure_injective result)
    have same := Base128.eq_of_leading found terminated front
    have fits : ¬128 ^ 4 * 16 ≤ Base128.value shown := by
      rw [← Base128.highFinal_iff (by decide) found]
      exact low
    rw [same] at fits ⊢
    rw [UInt32.toNat_ofNat']
    exact Nat.mod_eq_of_lt (Nat.not_le.mp fits)

/-- Both decoders are exact unless the last admissible byte ends the numeral
and has more than the four usable bits, or the one usable bit, set.  The same
holds of the decoder for windows. -/
theorem varint_exactDecoding_iff {memory : Memory} {address : Nat}
    {bytes : Bytes} (held : memory.HoldsAt address bytes) :
    (ExactDecoding UInt32.toNat 32 address bytes
        (getVarint32Slice memory { data := address, size := bytes.length }) ↔
      ¬Base128.HighFinal 16 4 bytes) ∧
    (ExactDecoding UInt64.toNat 64 address bytes
        (getVarint64 memory { data := address, size := bytes.length }) ↔
      ¬Base128.HighFinal 2 9 bytes) ∧
    ((∀ numeral, Base128.Terminated numeral → numeral <+: bytes →
        ∀ val, getVarint32 memory address bytes.length = pure (some val) →
          val.toNat = Base128.value numeral) ↔
      ¬Base128.HighFinal 16 4 bytes) := by
  have sixteen : (0 : Nat) < 16 ∧ 128 ^ 4 * 16 = 2 ^ 32 := by decide
  have two : (0 : Nat) < 2 ∧ 128 ^ 9 * 2 = 2 ^ 64 := by decide
  refine ⟨?_, ?_, exactWindow_iff held⟩
  · exact exactDecoding_iff UInt32.ofNat
      (fun number => UInt32.toNat_ofNat') sixteen.1 sixteen.2
      (getVarint32Slice_eq held)
  · exact exactDecoding_iff UInt64.ofNat
      (fun number => UInt64.toNat_ofNat') two.1 two.2 (getVarint64_eq held)

/-- The largest varints that fit. -/
theorem varint_exactDecoding_iff_largest :
    ExactDecoding UInt32.toNat 32 0 [0xff, 0xff, 0xff, 0xff, 0x0f]
        (getVarint32Slice
          (Memory.enclosed [0xff, 0xff, 0xff, 0xff, 0x0f])
          { data := 0, size := 5 }) ∧
      ¬Base128.HighFinal 16 4 [0xff, 0xff, 0xff, 0xff, 0x0f] := by
  have low : ¬Base128.HighFinal 16 4 [0xff, 0xff, 0xff, 0xff, 0x0f] := by
    simp [Base128.HighFinal]
  have held : (Memory.enclosed [0xff, 0xff, 0xff, 0xff, 0x0f]).HoldsAt 0
      [0xff, 0xff, 0xff, 0xff, 0x0f] := Memory.holdsAt_bytes (by decide)
  exact ⟨(varint_exactDecoding_iff held).1.mpr low, low⟩

/-- `2^32` and `2^64` are accepted as zero. -/
theorem varint_truncated :
    ¬ExactDecoding UInt32.toNat 32 0 [0x80, 0x80, 0x80, 0x80, 0x10]
        (getVarint32Slice
          (Memory.enclosed [0x80, 0x80, 0x80, 0x80, 0x10])
          { data := 0, size := 5 }) ∧
      ¬ExactDecoding UInt64.toNat 64 0
        [0x80, 0x80, 0x80, 0x80, 0x80, 0x80, 0x80, 0x80, 0x80, 0x02]
        (getVarint64
          (Memory.enclosed
            [0x80, 0x80, 0x80, 0x80, 0x80, 0x80, 0x80, 0x80, 0x80, 0x02])
          { data := 0, size := 10 }) := by
  constructor
  · intro exact
    have stored := exact.stored 0 { data := 5, size := 0 } rfl
    exact absurd stored (by decide)
  · intro exact
    have stored := exact.stored 0 { data := 10, size := 0 } rfl
    exact absurd stored (by decide)

end LiteLsm
