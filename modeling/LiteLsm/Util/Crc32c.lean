import LiteLsm.Common.Coding
import LiteLsm.Support.BitCrc
import LiteLsm.Util.Crc32cTables

/-!
# CRC-32C

The portable path processes eight bytes at a time through four tables, after a
prologue that aligns the pointer and before a bytewise tail.  A pointer into
the buffer is represented by the bytes from it to the end, so `e - p` is the
length of that list and `p` itself is the end address minus it.  Addresses do
not wrap around.

`bitwise` is the definition of the checksum; the main results equate the
implementation with it for every length and every address.
-/

namespace LiteLsm.Crc32c

open Checked

/-- The running register `l` and the position `p` of `ExtendImpl`. -/
structure Progress where
  l : BitVec 64
  p : Bytes

def entry (table : Array (BitVec 32)) (index : BitVec 32) : BitVec 32 :=
  table.getD index.toNat 0

/-- One half of `Slow_CRC32`: four bytes through the four tables. -/
def slowWord (progress : Progress) : Progress :=
  let c : BitVec 32 :=
    (progress.l ^^^ (decodeFixed32Le progress.p).toBitVec.setWidth 64).setWidth
      32
  { l := (entry table3 (c &&& 0xff) ^^^ entry table2 ((c >>> 8) &&& 0xff) ^^^
      entry table1 ((c >>> 16) &&& 0xff) ^^^ entry table0 (c >>> 24)).setWidth
        64
    p := progress.p.drop 4 }

def slowCRC32 (progress : Progress) : Progress :=
  slowWord (slowWord progress)

/-- `STEP1`: one byte through `table0`. -/
def step1 (progress : Progress) : Progress :=
  match progress.p with
  | [] => progress
  | byte :: rest =>
      let c := (progress.l &&& 0xff) ^^^ byte.toBitVec.setWidth 64
      { l := (entry table0 (c.setWidth 32)).setWidth 64 ^^^ (progress.l >>> 8)
        p := rest }

/-- `ALIGN`: the first multiple of `2^m` at or above `n`. -/
def align (n m : Nat) : Nat :=
  (n + (2 ^ m - 1)) / 2 ^ m * 2 ^ m

def extendImpl (crc32 : Progress → Progress) (crc : UInt32) (buf : Nat)
    (data : Bytes) : UInt32 :=
  let size := data.length
  let e := buf + size
  let start : Progress :=
    { l := (crc.toBitVec ^^^ 0xffffffff#32).setWidth 64, p := data }
  let x := align buf 4
  let aligned :=
    if x ≤ e then
      repeatWhile (fun progress => e - progress.p.length != x) step1 size start
    else
      start
  let sixteens :=
    repeatWhile (fun progress => decide (16 ≤ progress.p.length))
      (fun progress => crc32 (crc32 progress)) size aligned
  let eights :=
    repeatWhile (fun progress => decide (8 ≤ progress.p.length)) crc32 size
      sixteens
  let tail :=
    repeatWhile (fun progress => progress.p.length != 0) step1 size eights
  UInt32.ofBitVec ((tail.l ^^^ 0xffffffff#64).setWidth 32)

/-- The portable path of `Extend`. -/
def extend (crc : UInt32) (buf : Nat) (data : Bytes) : UInt32 :=
  extendImpl slowCRC32 crc buf data

def value (buf : Nat) (data : Bytes) : UInt32 :=
  extend 0 buf data

/-- `Value` of several slices, each given by its address and its bytes. -/
def valueOfSlices (slices : List (Nat × Bytes)) : UInt32 :=
  slices.foldl (fun crc slice => extend crc slice.1 slice.2) 0

def polynomial : BitVec 32 := 0x82F63B78#32

/-- The definition of CRC-32C, one bit at a time. -/
def bitwise (crc : UInt32) (data : Bytes) : UInt32 :=
  UInt32.ofBitVec
    (BitCrc.feedAll polynomial (crc.toBitVec ^^^ 0xffffffff#32) data ^^^
      0xffffffff#32)

/-- What `Fast_CRC32` has to do whatever instructions it uses: consume eight
bytes and leave the register the definition leaves. -/
def ComputesCrc32c (crc32 : Progress → Progress) : Prop :=
  ∀ (register : BitVec 32) (eight rest : Bytes), eight.length = 8 →
    crc32 { l := register.setWidth 64, p := eight ++ rest } =
      { l := (BitCrc.feedAll polynomial register eight).setWidth 64, p := rest }

private theorem table_toList :
    table0.toList = (List.range 256).map (fun index =>
        (BitCrc.byteStep polynomial)^[1] (BitVec.ofNat 32 index)) ∧
      table1.toList = (List.range 256).map (fun index =>
        (BitCrc.byteStep polynomial)^[2] (BitVec.ofNat 32 index)) ∧
      table2.toList = (List.range 256).map (fun index =>
        (BitCrc.byteStep polynomial)^[3] (BitVec.ofNat 32 index)) ∧
      table3.toList = (List.range 256).map (fun index =>
        (BitCrc.byteStep polynomial)^[4] (BitVec.ofNat 32 index)) := by
  decide +kernel

private theorem entry_of_toList {table : Array (BitVec 32)}
    {meaning : BitVec 32 → BitVec 32}
    (contents : table.toList =
      (List.range 256).map fun index => meaning (BitVec.ofNat 32 index))
    {index : BitVec 32} (inTable : index.toNat < 256) :
    entry table index = meaning index := by
  have found : table[index.toNat]? = some (meaning index) := by
    rw [← Array.getElem?_toList, contents, List.getElem?_map,
      List.getElem?_range inTable]
    simp
  rw [entry, Array.getD_eq_getD_getElem?, found, Option.getD_some]

private theorem toNat_low (c : BitVec 32) : (c &&& 0xff).toNat < 256 := by
  have bound : (c &&& 0xff).toNat ≤ 0xff := by
    rw [BitVec.toNat_and]
    exact Nat.and_le_right
  omega

private theorem toNat_high (c : BitVec 32) : (c >>> 24).toNat < 256 := by
  rw [BitVec.toNat_ushiftRight, Nat.shiftRight_eq_div_pow]
  have bound := c.isLt
  omega

private theorem low_index (register : BitVec 32) (byte : UInt8) :
    ((register.setWidth 64 &&& 0xff) ^^^ byte.toBitVec.setWidth 64).setWidth
        32 =
      (register ^^^ byte.toBitVec.setWidth 32) &&& 0xff := by
  apply BitVec.eq_of_getLsbD_eq
  intro index inWord
  have wide : index < 64 := by omega
  have masks : (0xff : BitVec 64).getLsbD index = decide (index < 8) ∧
      (0xff : BitVec 32).getLsbD index = decide (index < 8) :=
    ⟨BitCrc.getLsbD_byteMask wide, BitCrc.getLsbD_byteMask inWord⟩
  simp only [BitVec.getLsbD_setWidth, BitVec.getLsbD_xor, BitVec.getLsbD_and,
    masks, inWord, wide, decide_true, Bool.true_and]
  by_cases inByte : index < 8
  · simp only [inByte, decide_true, Bool.and_true]
  · simp only [inByte, decide_false, Bool.and_false,
      BitVec.getLsbD_of_ge byte.toBitVec index (by omega), Bool.xor_false]

private theorem shifted_byte (register : BitVec 32) (byte : UInt8) :
    (register ^^^ byte.toBitVec.setWidth 32) >>> 8 = register >>> 8 := by
  apply BitVec.eq_of_getLsbD_eq
  intro index inWord
  simp

theorem step1_eq_feed (register : BitVec 32) (byte : UInt8) (rest : Bytes) :
    step1 { l := register.setWidth 64, p := byte :: rest } =
      { l := (BitCrc.feed polynomial register byte).setWidth 64
        p := rest } := by
  have lookup := entry_of_toList table_toList.1
    (toNat_low (register ^^^ byte.toBitVec.setWidth 32))
  have fed : BitCrc.feed polynomial register byte =
      entry table0 ((register ^^^ byte.toBitVec.setWidth 32) &&& 0xff) ^^^
        (register >>> 8) := by
    rw [BitCrc.feed, BitCrc.byteStep_split, shifted_byte, lookup]
    rfl
  have narrowed : register.setWidth 64 >>> 8 =
      (register >>> 8).setWidth 64 := by
    apply BitVec.eq_of_getLsbD_eq
    intro index inWord
    by_cases inRegister : 8 + index < 32
    · simp [inWord, show 8 + index < 64 by omega]
    · simp [inWord, BitVec.getLsbD_of_ge register (8 + index) (by omega)]
  simp only [step1, low_index, fed, narrowed]
  rw [BitVec.setWidth_xor]

/-- Four table lookups shift a whole word through the register. -/
theorem slowWord_eq_feedAll (register : BitVec 32) {four : Bytes}
    (rest : Bytes) (length : four.length = 4) :
    slowWord { l := register.setWidth 64, p := four ++ rest } =
      { l := (BitCrc.feedAll polynomial register four).setWidth 64
        p := rest } := by
  obtain ⟨contents0, contents1, contents2, contents3⟩ := table_toList
  have loaded : (decodeFixed32Le (four ++ rest)).toBitVec =
      LittleEndian.word 32 four := by
    rw [decodeFixed32Le, ← length, List.take_left]
  have added :
      (register.setWidth 64 ^^^
          (LittleEndian.word 32 four).setWidth 64).setWidth 32 =
        register ^^^ LittleEndian.word 32 four := by
    rw [← BitVec.setWidth_xor, BitVec.setWidth_setWidth_of_le _ (by decide),
      BitVec.setWidth_eq]
  generalize word : register ^^^ LittleEndian.word 32 four = c at added
  have shift16 : c >>> 8 >>> 8 = c >>> 16 := (BitVec.shiftRight_add c 8 8).symm
  have shift24 : c >>> 16 >>> 8 = c >>> 24 :=
    (BitVec.shiftRight_add c 16 8).symm
  have through : (BitCrc.byteStep polynomial)^[4] c =
      entry table3 (c &&& 0xff) ^^^ entry table2 ((c >>> 8) &&& 0xff) ^^^
        entry table1 ((c >>> 16) &&& 0xff) ^^^ entry table0 (c >>> 24) := by
    rw [BitCrc.iterate_byteStep_split polynomial 3 c,
      BitCrc.iterate_byteStep_split polynomial 2 (c >>> 8), shift16,
      BitCrc.iterate_byteStep_split polynomial 1 (c >>> 16), shift24,
      entry_of_toList contents3 (toNat_low c),
      entry_of_toList contents2 (toNat_low (c >>> 8)),
      entry_of_toList contents1 (toNat_low (c >>> 16)),
      entry_of_toList contents0 (toNat_high c)]
    simp only [BitVec.xor_assoc]
    rfl
  have fed : BitCrc.feedAll polynomial register four =
      (BitCrc.byteStep polynomial)^[4] c := by
    rw [BitCrc.feedAll_eq_word polynomial (by omega), length, word]
  have advanced : (four ++ rest).drop 4 = rest := by
    rw [← length, List.drop_left]
  simp only [slowWord, loaded, added, advanced, fed, through]

theorem slowCRC32_computes : ComputesCrc32c slowCRC32 := by
  intro register eight rest length
  have halves : eight ++ rest =
      eight.take 4 ++ (eight.drop 4 ++ rest) := by
    rw [← List.append_assoc, List.take_append_drop]
  rw [slowCRC32, halves,
    slowWord_eq_feedAll register _ (by rw [List.length_take]; omega),
    slowWord_eq_feedAll _ _ (by rw [List.length_drop]; omega),
    ← BitCrc.feedAll_append, List.take_append_drop]

/-- The bytes still ahead of `p`, at most `size` of them, lead from `l` to the
final register. -/
structure Reaches (final : BitVec 32) (size : Nat) (progress : Progress) :
    Prop where
  remaining : ∃ register : BitVec 32, progress.l = register.setWidth 64 ∧
    BitCrc.feedAll polynomial register progress.p = final
  short : progress.p.length ≤ size

namespace Reaches

variable {final : BitVec 32} {size : Nat} {progress : Progress}

protected theorem step1 (reaches : Reaches final size progress) :
    Reaches final size (step1 progress) := by
  obtain ⟨⟨register, running, remaining⟩, short⟩ := reaches
  obtain ⟨l, p⟩ := progress
  subst running
  cases p with
  | nil => exact ⟨⟨register, rfl, remaining⟩, short⟩
  | cons byte rest =>
      rw [step1_eq_feed]
      exact ⟨⟨_, rfl, remaining⟩, Nat.le_of_succ_le short⟩

protected theorem crc32 {crc32 : Progress → Progress}
    (computes : ComputesCrc32c crc32) (reaches : Reaches final size progress)
    (available : 8 ≤ progress.p.length) :
    Reaches final size (crc32 progress) ∧
      (crc32 progress).p = progress.p.drop 8 := by
  obtain ⟨⟨register, running, remaining⟩, short⟩ := reaches
  obtain ⟨l, p⟩ := progress
  subst running
  have eight : (p.take 8).length = 8 := List.length_take_of_le available
  have stepped := computes register (p.take 8) (p.drop 8) eight
  rw [List.take_append_drop] at stepped
  rw [stepped]
  refine ⟨⟨⟨_, rfl, ?_⟩, ?_⟩, rfl⟩
  · rw [← BitCrc.feedAll_append, List.take_append_drop]
    exact remaining
  · rw [List.length_drop]
    exact Nat.le_trans (Nat.sub_le _ _) short

theorem exhausted (reaches : Reaches final size progress)
    (done : progress.p = []) : progress.l = final.setWidth 64 := by
  obtain ⟨⟨register, running, remaining⟩, -⟩ := reaches
  rw [done] at remaining
  rw [running, ← remaining, BitCrc.feedAll_nil]

end Reaches

private theorem step1_shortens {progress : Progress}
    (continues : (progress.p.length != 0) = true) :
    (step1 progress).p.length < progress.p.length := by
  obtain ⟨l, p⟩ := progress
  cases p with
  | nil => simp at continues
  | cons byte rest => exact Nat.lt_succ_self rest.length

/-- Any eight-byte step that computes CRC-32C yields the definition, whatever
the address of the buffer. -/
theorem extendImpl_eq_bitwise {crc32 : Progress → Progress}
    (computes : ComputesCrc32c crc32) (crc : UInt32) (buf : Nat)
    (data : Bytes) :
    extendImpl crc32 crc buf data = bitwise crc data := by
  unfold extendImpl
  extract_lets size e start x aligned sixteens eights tail
  let final := BitCrc.feedAll polynomial (crc.toBitVec ^^^ 0xffffffff#32) data
  have startReaches : Reaches final size start :=
    ⟨⟨_, rfl, rfl⟩, Nat.le_refl _⟩
  have alignedReaches : Reaches final size aligned := by
    show Reaches final size (if x ≤ e then _ else start)
    split
    · exact repeatWhile_preserves (fun _ reaches _ => reaches.step1) size
        startReaches
    · exact startReaches
  have sixteensReaches : Reaches final size sixteens := by
    apply repeatWhile_preserves _ size alignedReaches
    intro progress reaches continues
    have available : 16 ≤ progress.p.length := of_decide_eq_true continues
    obtain ⟨once, advanced⟩ := reaches.crc32 computes (by omega)
    exact (once.crc32 computes
      (by rw [advanced, List.length_drop]; omega)).1
  have eightsReaches : Reaches final size eights := by
    apply repeatWhile_preserves _ size sixteensReaches
    intro progress reaches continues
    exact (reaches.crc32 computes (of_decide_eq_true continues)).1
  have tailReaches : Reaches final size tail :=
    repeatWhile_preserves (fun _ reaches _ => reaches.step1) size eightsReaches
  have tailExits : (tail.p.length != 0) = false :=
    repeatWhile_exits (fun progress : Progress => progress.p.length)
      (fun _ continues => step1_shortens continues) eightsReaches.short
  have done : tail.p = [] := by
    simpa using tailExits
  have narrowed : (final.setWidth 64 ^^^ 0xffffffff#64).setWidth 32 =
      final ^^^ 0xffffffff#32 := by
    rw [BitVec.setWidth_xor, BitVec.setWidth_setWidth_of_le _ (by decide),
      BitVec.setWidth_eq]
    rfl
  rw [tailReaches.exhausted done, narrowed]
  rfl

theorem extend_eq_bitwise (crc : UInt32) (buf : Nat) (data : Bytes) :
    extend crc buf data = bitwise crc data :=
  extendImpl_eq_bitwise slowCRC32_computes crc buf data

/-- Extending a checksum continues it: the complement applied at the end of
one run is undone at the start of the next. -/
theorem bitwise_append (crc : UInt32) (left right : Bytes) :
    bitwise (bitwise crc left) right = bitwise crc (left ++ right) := by
  simp only [bitwise, BitCrc.feedAll_append]
  rw [BitVec.xor_assoc, BitVec.xor_self, BitVec.xor_zero]

private theorem foldl_extend (crc : UInt32) (slices : List (Nat × Bytes)) :
    slices.foldl (fun crc slice => extend crc slice.1 slice.2) crc =
      bitwise crc (slices.flatMap Prod.snd) := by
  induction slices generalizing crc with
  | nil =>
      rw [List.foldl_nil, List.flatMap_nil, bitwise, BitCrc.feedAll_nil,
        BitVec.xor_assoc, BitVec.xor_self, BitVec.xor_zero]
  | cons slice slices induction =>
      rw [List.foldl_cons, induction, extend_eq_bitwise, bitwise_append,
        List.flatMap_cons]

/-- The implementation is the bit-at-a-time definition at every address;
checksums therefore extend over concatenation, and the checksum of several
slices is that of the bytes they hold together. -/
theorem implementation_eq_definition :
    (∀ (crc : UInt32) (buf : Nat) (data : Bytes),
      extend crc buf data = bitwise crc data) ∧
    (∀ (crc : UInt32) (bufLeft bufRight buf : Nat) (left right : Bytes),
      extend (extend crc bufLeft left) bufRight right =
        extend crc buf (left ++ right)) ∧
    (∀ (slices : List (Nat × Bytes)) (buf : Nat),
      valueOfSlices slices = value buf (slices.flatMap Prod.snd)) := by
  refine ⟨extend_eq_bitwise, ?_, ?_⟩
  · intro crc bufLeft bufRight buf left right
    simp only [extend_eq_bitwise, bitwise_append]
  · intro slices buf
    rw [valueOfSlices, foldl_extend, value, extend_eq_bitwise]

end LiteLsm.Crc32c
