import LiteLsm.Storage.DataPageBuilder
import LiteLsm.Storage.FilterWindows

/-!
# Checksums of finished pages

Both builders end by finishing the page they extend, so what holds of
`PageBuilder.finish` holds of data pages and filter pages.
-/

namespace LiteLsm

open Checked

/-- What a reader can rely on, wherever the page or a damaged copy of it is
placed: the page passes the check and has its type, and damage inside four
consecutive bytes does not pass. -/
structure Sealed (page : Bytes) (type : PageType) : Prop where
  accepted : ∀ address, PageReader.checkCRC32C ⟨address, page⟩ = true
  typed : ∀ address, PageReader.getPageType ⟨address, page⟩ = some type
  detected : ∀ address damaged, ShortBurst page damaged →
    PageReader.checkCRC32C ⟨address, damaged⟩ = false

theorem sealed_finish (address : Nat) (builder : PageBuilder) :
    Sealed (builder.finish address).buffer builder.footer.type where
  accepted := checkCRC32C_finish address builder
  typed := getPageType_finish address builder
  detected := fun readAt _ burst =>
    checkCRC32C_burst address builder readAt burst

theorem DataPageBuilder.sealed {SliceType : Type}
    (builder : DataPageBuilder SliceType) (address : Nat) :
    Sealed (builder.finish address).buffer builder.footer.type := by
  rw [finish]
  exact sealed_finish address _

theorem FilterPageBuilder.sealed (builder : FilterPageBuilder)
    (address : Nat) :
    Sealed (builder.finish address).buffer builder.footer.type := by
  have footer : (if builder.start.isEmpty then builder
      else builder.generateFilter).footer = builder.footer := by
    split
    · rfl
    · exact footer_generateFilter builder
  rw [← footer, finish]
  exact sealed_finish address _

namespace FilterPageBuilder

theorem startBlock_cases (blockOffset : UInt64)
    (builder : FilterPageBuilder) :
    (∃ started, builder.startBlock blockOffset = pure started ∧
        started.footer = builder.footer) ∨
      builder.startBlock blockOffset = fault .assertion := by
  by_cases within : builder.filterOffsets.length ≤
      blockOffset.toNat / filterBase
  · exact Or.inl ⟨_, startBlock_eq within, footer_iterate _ _⟩
  · exact Or.inr (by rw [startBlock, if_neg within])

theorem footer_addKeys (keys : List Bytes) (builder : FilterPageBuilder) :
    (keys.foldl (fun builder key => builder.addKey key) builder).footer =
      builder.footer := by
  induction keys generalizing builder with
  | nil => rfl
  | cons key keys induction => exact induction (builder.addKey key)

theorem footer_addBlocks {blocks : List Block}
    {builder final : FilterPageBuilder}
    (run : builder.addBlocks blocks = pure final) :
    final.footer = builder.footer := by
  induction blocks generalizing builder with
  | nil => rw [← pure_injective run]
  | cons block blocks induction =>
      rw [addBlocks, addBlock] at run
      rcases startBlock_cases block.offset builder with
        ⟨started, start, footer⟩ | failed
      · rw [start] at run
        rw [induction (by simpa only [pure_bind] using run), footer_addKeys,
          footer]
      · rw [failed] at run
        exact absurd run.symm (pure_ne_fault _ _)

end FilterPageBuilder

/-- Whatever was added to the builder, its finished page is sealed under the
builder's type: the type given to a data page builder, and the filter page
type for filters.  An instruction set that computes CRC-32C in hardware
leaves the checksums as they are. -/
theorem finished_sealed :
    (∀ (SliceType : Type) (builder : DataPageBuilder SliceType)
        (address : Nat),
      Sealed (builder.finish address).buffer builder.footer.type) ∧
    (∀ (type : PageType) (pageSize address : Nat) (pairs : List Pair),
      Sealed (DataPageBuilder.dataPage type pageSize address pairs) type) ∧
    (∀ (builder : FilterPageBuilder) (address : Nat),
      Sealed (builder.finish address).buffer builder.footer.type) ∧
    (∀ (policy : FilterPolicy) (blocks : List Block)
        (builder : FilterPageBuilder) (address : Nat),
      (FilterPageBuilder.construct policy).addBlocks blocks = pure builder →
        Sealed (builder.finish address).buffer .filterPage) ∧
    (∀ crc32 : Crc32c.Progress → Crc32c.Progress,
      Crc32c.ComputesCrc32c crc32 →
        Crc32c.extendImpl crc32 = Crc32c.extend) := by
  refine ⟨fun _ => DataPageBuilder.sealed, ?_, FilterPageBuilder.sealed, ?_,
    ?_⟩
  · intro type pageSize address pairs
    have finished := DataPageBuilder.sealed
      ((DataPageBuilder.ofTypeAndSize type pageSize).addPairs pairs) address
    rwa [DataPageBuilder.footer_addPairs] at finished
  · intro policy blocks builder address run
    have finished := builder.sealed address
    rwa [FilterPageBuilder.footer_addBlocks run] at finished
  · intro crc32 computes
    funext crc buf data
    rw [Crc32c.extendImpl_eq_bitwise computes, Crc32c.extend_eq_bitwise]

/-- A page of one pair whose first byte was overwritten. -/
theorem finished_sealed_overwritten :
    PageReader.checkCRC32C
        ⟨3, (DataPageBuilder.dataPage .indexPage 4096 0
          [([0x61], [0x62])]).set 0 0xff⟩ = false ∧
      Crc32c.extendImpl Crc32c.slowCRC32 = Crc32c.extend := by
  obtain ⟨_, dataPages, _, _, kernels⟩ := finished_sealed
  constructor
  · apply (dataPages .indexPage 4096 0 [([0x61], [0x62])]).detected
    constructor
    · exact List.length_set
    · decide +kernel
    · refine ⟨0, fun index outside => List.getElem?_set_ne ?_⟩
      omega
  · exact kernels _ Crc32c.slowCRC32_computes

end LiteLsm
