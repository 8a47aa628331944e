import LiteLsm.Storage.PageParsing

/-!
# Parsing one entry

What the reader makes of the bytes that a single call of `add` appends.  It
looks at each length through a window of four bytes; a length of `2^28` or
more takes five.
-/

namespace LiteLsm

open Checked Layout

section Parsing

variable {iterator : DataPageIterator} {cur : Nat}

/-- A varint is read back through the window unless its length is at least
`2^28`: then nothing is stored. -/
theorem readLength_iff {length : Nat} (fits : length < 2 ^ 32)
    (held : iterator.memory.HoldsAt cur
      (encodeVarint32 (UInt32.ofNat length))) :
    iterator.readLength cur = pure (some (UInt32.ofNat length)) ↔
      length < 2 ^ 28 := by
  constructor
  · intro stored
    apply Decidable.byContradiction
    intro large
    have exact : (UInt32.ofNat length).toNat = length := by
      rw [UInt32.toNat_ofNat']
      exact Nat.mod_eq_of_lt fits
    have refused := getVarint32_encode_four
      (by rw [exact]; exact Nat.not_lt.mp large) held
    have impossible := pure_injective (stored.symm.trans refused)
    cases impossible
  · intro small
    exact OpenPage.readLength_of_holdsAt small held

theorem readsHeader_iff {sharedLen suffixLen valueLen : Nat}
    (sharedFits : sharedLen < 2 ^ 32) (suffixFits : suffixLen < 2 ^ 32)
    (valueFits : valueLen < 2 ^ 32)
    (held : iterator.memory.HoldsAt cur
      (header sharedLen suffixLen valueLen)) :
    OpenPage.ReadsHeader iterator cur sharedLen suffixLen valueLen ↔
      sharedLen < 2 ^ 28 ∧ suffixLen < 2 ^ 28 ∧ valueLen < 2 ^ 28 := by
  rw [header, Memory.holdsAt_append, Memory.holdsAt_append,
    List.length_append, ← Nat.add_assoc] at held
  obtain ⟨⟨sharedHeld, suffixHeld⟩, valueHeld⟩ := held
  rw [← readLength_iff sharedFits sharedHeld,
    ← readLength_iff suffixFits suffixHeld,
    ← readLength_iff valueFits valueHeld]
  constructor
  · rintro ⟨shared, suffix, value⟩
    rw [varintLength_toUInt64] at suffix value
    rw [varintLength_toUInt64] at value
    exact ⟨shared, suffix, value⟩
  · rintro ⟨shared, suffix, value⟩
    constructor
    · exact shared
    · rw [varintLength_toUInt64]
      exact suffix
    · rw [varintLength_toUInt64, varintLength_toUInt64]
      exact value

end Parsing

namespace DataPageBuilder

/-- The reader's parse recovers what `add` wrote exactly if each of the three
lengths fits into four bytes of varint. -/
theorem add_parsed_iff {SliceType : Type} (view : SliceType → Bytes)
    (key value : SliceType) (builder : DataPageBuilder SliceType)
    (keyFits : (view key).length < 2 ^ 32)
    (valueFits : (view value).length < 2 ^ 32)
    (iterator : DataPageIterator) (following : Bytes)
    (held : iterator.memory.HoldsAt 0
      ((builder.add view key value).buffer ++ following)) :
    (OpenPage.ReadsHeader iterator builder.buffer.length
          (prefixLength view key builder) (suffixLength view key builder)
          (view value).length ∧
        iterator.getEntrySize builder.buffer.length =
          pure ((builder.add view key value).buffer.length -
            builder.buffer.length)) ↔
      prefixLength view key builder < 2 ^ 28 ∧
        suffixLength view key builder < 2 ^ 28 ∧
        (view value).length < 2 ^ 28 := by
  have shorter := prefixLength_le view key builder
  have suffixFits : suffixLength view key builder < 2 ^ 32 :=
    Nat.lt_of_le_of_lt (Nat.sub_le _ _) keyFits
  rw [buffer_add, newEntry, List.append_assoc, List.append_assoc,
    List.append_assoc, Memory.holdsAt_append, Memory.holdsAt_append,
    Nat.zero_add] at held
  have parsed := readsHeader_iff (Nat.lt_of_le_of_lt shorter keyFits)
    suffixFits valueFits held.2.1
  constructor
  · rintro ⟨reads, -⟩
    exact parsed.mp reads
  · intro small
    have reads := parsed.mpr small
    refine ⟨reads, ?_⟩
    rw [reads.getEntrySize suffixFits valueFits, buffer_add,
      List.length_append, Nat.add_sub_cancel_left, length_newEntry]

/-- An entry inside a group, with one more byte behind it. -/
theorem add_parsed_iff_insideGroup :
    ({ memory := .enclosed [0x01, 0x01, 0x01, 0x63, 0x07, 0xff]
       dataSize := 6
       comparator := fun _ _ => 0
       cur := 0
       restartPointNum := 0
       restartPointStart := 5
       curRestartPoint := 0 } : DataPageIterator).getEntrySize 0 = pure 5 := by
  have held : (Memory.enclosed [0x01, 0x01, 0x01, 0x63, 0x07, 0xff]).HoldsAt 0
      [0x01, 0x01, 0x01, 0x63, 0x07, 0xff] :=
    Memory.holdsAt_bytes (by decide)
  exact ((add_parsed_iff id [0x61, 0x63] [0x07]
    { footer := {}
      pageSize := 0
      buffer := []
      recordNum := 1
      lastRestartPointKey := [0x61, 0x62]
      restartPointOffsets := [0] } (by decide) (by decide) _ [0xff]
    held).mpr (by decide)).2

/-- The length of a long value behind an empty key is not read: its variable
keeps the suffix length, and the entry appears to end behind its first three
bytes. -/
private theorem longValue_misread {iterator : DataPageIterator}
    {value : Bytes} (large : 2 ^ 28 ≤ value.length)
    (fits : value.length < 2 ^ 32)
    (held : iterator.memory.HoldsAt 0 (header 0 0 value.length)) :
    ¬OpenPage.ReadsHeader iterator 0 0 0 value.length ∧
      iterator.getEntrySize 0 = pure 3 := by
  constructor
  · intro reads
    have small := (readsHeader_iff (by decide) (by decide) fits held).mp reads
    omega
  · rw [header, Memory.holdsAt_append, Memory.holdsAt_append] at held
    obtain ⟨⟨sharedHeld, suffixHeld⟩, valueHeld⟩ := held
    have shared := (readLength_iff (by decide) sharedHeld).mpr (by decide)
    have suffix := (readLength_iff (by decide) suffixHeld).mpr (by decide)
    have exact : (UInt32.ofNat value.length).toNat = value.length := by
      rw [UInt32.toNat_ofNat']
      exact Nat.mod_eq_of_lt fits
    have refused : iterator.readLength _ = pure none :=
      getVarint32_encode_four (by rw [exact]; exact large) valueHeld
    have one : varintLength (UInt32.ofNat 0).toUInt64 = 1 :=
      varintLength_toUInt64 (UInt32.ofNat 0)
    have first : (encodeVarint32 (UInt32.ofNat 0)).length = 1 := rfl
    rw [List.length_append, first] at refused
    rw [first] at suffix
    simp only [DataPageIterator.getEntrySize, shared, one, suffix, refused,
      pure_bind, Option.getDM_some, Option.getD_some, Option.getD_none]
    rfl

private theorem buffer_add_emptyKey (value : Bytes) :
    ((ofTypeAndSize .dataPage 0).add id [] value).buffer =
      header 0 0 value.length ++ value := by
  rw [buffer_add]
  simp [newEntry, ofTypeAndSize, prefixLength, suffixLength]

/-- A value of `2^28` bytes as the first entry of a page. -/
theorem add_parsed_longValue :
    let page := ((ofTypeAndSize .dataPage 0).add id []
      (List.replicate (2 ^ 28) 0)).buffer
    let iterator : DataPageIterator :=
      { memory := .enclosed page
        dataSize := page.length
        comparator := fun _ _ => 0
        cur := 0
        restartPointNum := 1
        restartPointStart := page.length
        curRestartPoint := 0 }
    ¬OpenPage.ReadsHeader iterator 0 0 0
        (List.replicate (2 ^ 28) (0 : UInt8)).length ∧
      iterator.getEntrySize 0 = pure 3 ∧ 3 < page.length := by
  have length : (List.replicate (2 ^ 28) (0 : UInt8)).length = 2 ^ 28 :=
    List.length_replicate
  generalize List.replicate (2 ^ 28) (0 : UInt8) = value at length ⊢
  intro page iterator
  have layout : page = header 0 0 value.length ++ value :=
    buffer_add_emptyKey value
  have header := length_header_le 0 0 value.length
  have total := congrArg List.length layout
  rw [List.length_append] at total
  have held : iterator.memory.HoldsAt 0 page :=
    Memory.holdsAt_bytes (by
      change page.length ≤ 2 ^ 64
      omega)
  rw [layout, Memory.holdsAt_append] at held
  obtain ⟨misread, short⟩ :=
    longValue_misread (by omega) (by omega) held.1
  exact ⟨misread, short, by omega⟩

end DataPageBuilder

end LiteLsm
