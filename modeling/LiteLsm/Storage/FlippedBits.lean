import LiteLsm.Storage.PageChecksum
import LiteLsm.Support.BitParity

/-!
# Flipped bits

The polynomial of CRC-32C has an odd number of bits, so the register a page
leaves tells the parity of the page.  Every page that passes the check leaves
the same register.  An odd number of flipped bits, wherever they are in the
page, its type or its stored checksum, is therefore detected.
-/

namespace LiteLsm

open BitParity

namespace PageReader

theorem footer_of_accepted {reader : PageReader}
    (accepted : reader.checkCRC32C = true) :
    pageFooterSize ≤ reader.rawData.length := by
  apply Nat.le_of_not_lt
  intro short
  simp [checkCRC32C, short] at accepted

theorem even_of_accepted {address other : Nat} {page damaged : Bytes}
    (length : damaged.length = page.length)
    (accepted : checkCRC32C ⟨address, page⟩ = true)
    (passed : checkCRC32C ⟨other, damaged⟩ = true) :
    flippedBits page damaged % 2 = 0 := by
  have long := footer_of_accepted accepted
  have left := (checkCRC32C_iff_residue long).mp accepted
  have right := (checkCRC32C_iff_residue (length ▸ long)).mp passed
  have odd : parity Crc32c.polynomial = true := by decide +kernel
  rw [Nat.mod_two_of_bodd, BitCrc.even_flippedBits odd (by decide)
    length.symm (left.trans right.symm)]
  rfl

end PageReader

/-- Damage to a finished page that flips an odd number of its bits is
detected, wherever page and copy are read: for data pages and index pages, and
for filter pages. -/
theorem finished_oddDamage :
    (∀ (SliceType : Type) (builder : DataPageBuilder SliceType)
        (address readAt : Nat) (damaged : Bytes),
      damaged.length = (builder.finish address).buffer.length →
      flippedBits (builder.finish address).buffer damaged % 2 = 1 →
        PageReader.checkCRC32C ⟨readAt, damaged⟩ = false) ∧
    (∀ (builder : FilterPageBuilder) (address readAt : Nat) (damaged : Bytes),
      damaged.length = (builder.finish address).buffer.length →
      flippedBits (builder.finish address).buffer damaged % 2 = 1 →
        PageReader.checkCRC32C ⟨readAt, damaged⟩ = false) := by
  have detected {page : Bytes} {type : PageType} (intact : Sealed page type)
      (readAt : Nat) (damaged : Bytes) (length : damaged.length = page.length)
      (odd : flippedBits page damaged % 2 = 1) :
      PageReader.checkCRC32C ⟨readAt, damaged⟩ = false := by
    apply Bool.eq_false_iff.mpr
    intro passed
    have even := PageReader.even_of_accepted length (intact.accepted 0) passed
    omega
  constructor
  · intro _ builder address
    exact detected (builder.sealed address)
  · intro builder address
    exact detected (builder.sealed address)

/-- A bit flipped in the first byte and two in the last one. -/
theorem finished_oddDamage_bothEnds :
    PageReader.checkCRC32C
      ⟨0, ((((DataPageBuilder.ofTypeAndSize .indexPage 4096).addPairs
        [([0x61], [0x62])]).finish 0).buffer.modify 0 (· ^^^ 1)).modify 17
          (· ^^^ 0x81)⟩ = false :=
  finished_oddDamage.1 _ ((DataPageBuilder.ofTypeAndSize .indexPage
    4096).addPairs [([0x61], [0x62])]) 0 0 _ (by decide +kernel)
    (by decide +kernel)

end LiteLsm
