import LiteLsm.Util.Crc32c

/-!
# Pages and their footer

Every page ends in a packed footer of five bytes: the page type and the
CRC-32C of everything before the checksum, type byte included.  Builders
append the footer in `PageBuilder.finish`; readers find it at the end of the
slice they are given.
-/

namespace LiteLsm

open Checked

inductive PageType where
  | dataPage
  | indexPage
  | filterPage
  deriving DecidableEq, Repr

namespace PageType

def toByte : PageType → UInt8
  | dataPage => 0
  | indexPage => 1
  | filterPage => 2

/-- The enumerator with the given underlying value, if there is one. -/
def ofByte (byte : UInt8) : Option PageType :=
  if byte = 0 then some dataPage
  else if byte = 1 then some indexPage
  else if byte = 2 then some filterPage
  else none

@[simp] theorem ofByte_toByte (type : PageType) :
    ofByte type.toByte = some type := by
  cases type <;> rfl

end PageType

structure PageFooter where
  type : PageType := .dataPage
  checksum : UInt32 := 0
  deriving DecidableEq, Repr

/-- `sizeof(PageFooter)`: the structure is packed. -/
def pageFooterSize : Nat := 5

/-- `PAGESIZE` -/
def defaultPageSize : Nat := 4 * 1024

structure PageBuilder where
  footer : PageFooter
  pageSize : Nat
  buffer : Bytes
  deriving Repr

/-- Append the footer.  The checksum is taken where the buffer stands at that
moment; the returned slice is the whole buffer. -/
def PageBuilder.finish (address : Nat) (builder : PageBuilder) : PageBuilder :=
  let buffer := builder.buffer ++ [builder.footer.type.toByte]
  let checksum := Crc32c.value address buffer
  { builder with
    footer := { builder.footer with checksum := checksum }
    buffer := buffer ++ encodeFixed32Le checksum }

/-- The slice a reader is constructed from: its address and its bytes. -/
structure PageReader where
  address : Nat
  rawData : Bytes

namespace PageReader

def checkCRC32C (reader : PageReader) : Bool :=
  let size := reader.rawData.length
  if size < pageFooterSize then
    false
  else
    let crc := Crc32c.value reader.address (reader.rawData.take (size - 4))
    let storedCrc := decodeFixed32Le (reader.rawData.drop (size - 4))
    crc == storedCrc

/-- The type byte as an enumerator.  There is no such byte in a slice shorter
than a footer. -/
def getPageType (reader : PageReader) : Option PageType :=
  let size := reader.rawData.length
  if size < pageFooterSize then
    none
  else
    (reader.rawData[size - pageFooterSize]?).bind PageType.ofByte

end PageReader

/-- The register every intact page leaves. -/
def intactResidue : BitVec 32 :=
  (BitCrc.byteStep Crc32c.polynomial)^[4] 0xffffffff#32

private theorem polynomial_msb : Crc32c.polynomial.msb = true := by
  decide

theorem checkCRC32C_iff_residue {address : Nat} {rawData : Bytes}
    (long : pageFooterSize ≤ rawData.length) :
    PageReader.checkCRC32C { address, rawData } = true ↔
      BitCrc.feedAll Crc32c.polynomial 0xffffffff#32 rawData =
        intactResidue := by
  have footer : 5 ≤ rawData.length := long
  have trailer : (rawData.drop (rawData.length - 4)).length = 4 := by
    rw [List.length_drop]
    omega
  have residue := BitCrc.residue_iff polynomial_msb
    0xffffffff#32 0xffffffff#32 (rawData.take (rawData.length - 4))
    (show 32 = 8 * (rawData.drop (rawData.length - 4)).length by rw [trailer])
  rw [List.take_append_drop, trailer] at residue
  have stored : (decodeFixed32Le
      (rawData.drop (rawData.length - 4))).toBitVec =
        LittleEndian.word 32 (rawData.drop (rawData.length - 4)) := by
    rw [decodeFixed32Le, List.take_of_length_le (Nat.le_of_eq trailer)]
  have computed : (Crc32c.value address
      (rawData.take (rawData.length - 4))).toBitVec =
        BitCrc.feedAll Crc32c.polynomial 0xffffffff#32
          (rawData.take (rawData.length - 4)) ^^^ 0xffffffff#32 := by
    rw [Crc32c.value, Crc32c.extend_eq_bitwise]
    rfl
  have long' : ¬rawData.length < pageFooterSize := Nat.not_lt.mpr long
  rw [intactResidue, residue, ← stored, ← computed]
  simp only [PageReader.checkCRC32C, if_neg long', beq_iff_eq,
    UInt32.toBitVec_inj]

section Finish

variable (address : Nat) (builder : PageBuilder)

theorem buffer_finish :
    (builder.finish address).buffer =
      builder.buffer ++ [builder.footer.type.toByte] ++
        encodeFixed32Le (Crc32c.value address
          (builder.buffer ++ [builder.footer.type.toByte])) :=
  rfl

/-- Neither the place of the buffer nor the checksum of an earlier page has an
influence on the finished bytes. -/
theorem buffer_finish_congr {left right : PageBuilder}
    (sameBuffer : left.buffer = right.buffer)
    (sameType : left.footer.type = right.footer.type)
    (leftAddress rightAddress : Nat) :
    (left.finish leftAddress).buffer = (right.finish rightAddress).buffer := by
  simp only [buffer_finish, sameBuffer, sameType, Crc32c.value,
    Crc32c.extend_eq_bitwise]

theorem finish_appends :
    ∃ footer, footer.length = pageFooterSize ∧
      (builder.finish address).buffer = builder.buffer ++ footer := by
  refine ⟨[builder.footer.type.toByte] ++
    encodeFixed32Le (Crc32c.value address
      (builder.buffer ++ [builder.footer.type.toByte])), ?_, ?_⟩
  · simp [pageFooterSize]
  · rw [buffer_finish, List.append_assoc]

theorem length_finish :
    (builder.finish address).buffer.length =
      builder.buffer.length + pageFooterSize := by
  obtain ⟨footer, length, buffer⟩ := finish_appends address builder
  rw [buffer, List.length_append, length]

theorem checkCRC32C_finish (readAt : Nat) :
    PageReader.checkCRC32C
      ⟨readAt, (builder.finish address).buffer⟩ = true := by
  have covered : (builder.finish address).buffer.length - 4 =
      (builder.buffer ++ [builder.footer.type.toByte]).length := by
    rw [length_finish, List.length_append]
    rfl
  have long : ¬(builder.finish address).buffer.length < pageFooterSize := by
    rw [length_finish]
    omega
  simp only [PageReader.checkCRC32C, if_neg long, covered]
  rw [buffer_finish, List.take_left, List.drop_left]
  simp [Crc32c.value, Crc32c.extend_eq_bitwise]

theorem getPageType_finish (readAt : Nat) :
    PageReader.getPageType ⟨readAt, (builder.finish address).buffer⟩ =
      some builder.footer.type := by
  have position : (builder.finish address).buffer.length - pageFooterSize =
      builder.buffer.length := by
    rw [length_finish, Nat.add_sub_cancel]
  have long : ¬(builder.finish address).buffer.length < pageFooterSize := by
    rw [length_finish]
    omega
  simp only [PageReader.getPageType, if_neg long, position]
  simp [buffer_finish]

end Finish

/-- `damaged` differs from `page`, but only inside four consecutive bytes. -/
structure ShortBurst (page damaged : Bytes) : Prop where
  sameLength : damaged.length = page.length
  different : damaged ≠ page
  window : ∃ start, ∀ index, index < start ∨ start + 4 ≤ index →
    damaged[index]? = page[index]?

theorem ShortBurst.split {page damaged : Bytes}
    (burst : ShortBurst page damaged) :
    ∃ before window replaced after,
      page = before ++ window ++ after ∧
        damaged = before ++ replaced ++ after ∧
        window.length = replaced.length ∧ window.length ≤ 4 ∧
        window ≠ replaced := by
  obtain ⟨sameLength, different, start, agrees⟩ := burst
  have sameBefore : damaged.take start = page.take start := by
    apply List.ext_getElem?
    intro index
    simp only [List.getElem?_take]
    split
    · rename_i below
      exact agrees index (Or.inl below)
    · rfl
  have sameAfter : damaged.drop (start + 4) = page.drop (start + 4) := by
    apply List.ext_getElem?
    intro index
    simp only [List.getElem?_drop]
    exact agrees _ (Or.inr (Nat.le_add_right _ _))
  have parts (bytes : Bytes) : bytes = bytes.take start ++
      (bytes.drop start).take 4 ++ bytes.drop (start + 4) := by
    rw [List.append_assoc, ← List.drop_drop, List.take_append_drop,
      List.take_append_drop]
  have damagedParts := parts damaged
  rw [sameBefore, sameAfter] at damagedParts
  refine ⟨_, _, _, _, parts page, damagedParts, ?_, ?_, ?_⟩
  · simp only [List.length_take, List.length_drop, sameLength]
  · exact List.length_take_le 4 _
  · intro sameWindow
    rw [← sameWindow, ← parts page] at damagedParts
    exact different damagedParts

/-- A checksum over the whole page, stored low byte first after the bytes it
covers, detects every error confined to four consecutive bytes. -/
theorem checkCRC32C_burst (address : Nat) (builder : PageBuilder)
    (readAt : Nat) {damaged : Bytes}
    (burst : ShortBurst (builder.finish address).buffer damaged) :
    PageReader.checkCRC32C ⟨readAt, damaged⟩ = false := by
  have long : pageFooterSize ≤ (builder.finish address).buffer.length := by
    rw [length_finish]
    exact Nat.le_add_left _ _
  have intact := (checkCRC32C_iff_residue long).mp
    (checkCRC32C_finish address builder readAt)
  obtain ⟨before, window, replaced, after, pageParts, damagedParts, lengths,
    short, differs⟩ := burst.split
  rw [pageParts] at intact
  have detected := BitCrc.burst_detected polynomial_msb 0xffffffff#32 before
    after lengths (by omega) differs
  rw [intact, ← damagedParts] at detected
  cases verdict : PageReader.checkCRC32C ⟨readAt, damaged⟩ with
  | false => rfl
  | true =>
      have damagedLong : pageFooterSize ≤ damaged.length := by
        rw [burst.sameLength]
        exact long
      exact absurd ((checkCRC32C_iff_residue damagedLong).mp verdict).symm
        detected

end LiteLsm
