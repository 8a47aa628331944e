import LiteLsm.Storage.FilterWindows
import LiteLsm.Util.Bloom

/-!
# Looking up filters

A finished page holds the filters of all windows, and behind them one word
for each filter and one for the end of the last.  The reader therefore finds
every filter between two neighbouring words.
-/

namespace LiteLsm

open Checked

namespace FilterPage

/-- Where the filters start, and where the last one ends. -/
def offsetWords (filters : List Bytes) : List UInt32 :=
  (List.range (filters.length + 1)).map fun index =>
    UInt32.ofNat (Segments.start filters index)

/-- A page without its footer. -/
def contents (filters : List Bytes) : Bytes :=
  filters.flatten ++ (offsetWords filters).flatMap encodeFixed32Le ++
    [UInt8.ofNat filterBaseLg]

@[simp] theorem length_offsetWords (filters : List Bytes) :
    (offsetWords filters).length = filters.length + 1 := by
  simp [offsetWords]

theorem offsetWords_eq (filters : List Bytes) :
    offsetWords filters =
      (Segments.starts filters).map UInt32.ofNat ++
        [UInt32.ofNat filters.flatten.length] := by
  rw [offsetWords, List.range_succ, List.map_append, List.map_singleton,
    Segments.start_length, Segments.starts, List.map_map]
  rfl

theorem length_contents (filters : List Bytes) :
    (contents filters).length =
      filters.flatten.length + 4 * (filters.length + 1) + 1 := by
  rw [contents, List.length_append, List.length_append, length_words,
    length_offsetWords]
  rfl

section Finish

variable {policy : FilterPolicy} {blocks : List Block}
  {builder : FilterPageBuilder}

theorem Sorted.lastFilter
    (sorted : Sorted policy blocks (lastWindow blocks) builder)
    (few : (windowKeys blocks (lastWindow blocks)).length < 2 ^ 31) :
    Sorted policy blocks (filterCount blocks)
      (if builder.start.isEmpty then builder else builder.generateFilter) := by
  have empty : builder.start.isEmpty = true ↔
      windowKeys blocks (lastWindow blocks) = [] := by
    rw [List.isEmpty_iff, ← List.length_eq_zero_iff, sorted.start,
      Segments.length_starts, List.length_eq_zero_iff]
  rw [filterCount]
  by_cases none : windowKeys blocks (lastWindow blocks) = []
  · rw [if_pos none, if_pos (empty.mpr none)]
    exact sorted
  · rw [if_neg none, if_neg fun pooled => none (empty.mp pooled)]
    exact sorted.generateFilter few

theorem Sorted.finish
    (sorted : Sorted policy blocks (lastWindow blocks) builder)
    (few : (windowKeys blocks (lastWindow blocks)).length < 2 ^ 31)
    (address : Nat) :
    (builder.finish address).filterOffsets.length = filterCount blocks ∧
      (builder.finish address).footer.type = .filterPage ∧
      ∃ footer, footer.length = pageFooterSize ∧
        (builder.finish address).buffer =
          contents (filters policy blocks (filterCount blocks)) ++
            footer := by
  have last := sorted.lastFilter few
  rw [FilterPageBuilder.finish]
  generalize (if builder.start.isEmpty then builder
    else builder.generateFilter) = final at last ⊢
  have words : putFixed32Le
      (final.filterOffsets.foldl putFixed32Le final.buffer)
      (UInt32.ofNat final.buffer.length) ++ [UInt8.ofNat filterBaseLg] =
        contents (filters policy blocks (filterCount blocks)) := by
    rw [putFixed32Le, contents, offsetWords_eq, last.filterOffsets,
      ← last.buffer, List.flatMap_append, ← List.append_assoc,
      List.flatMap_singleton]
    congr 2
    exact (List.foldl_append_eq_append).trans
      (by rw [List.flatMap_def])
  refine ⟨last.length_filterOffsets, last.footerType, ?_⟩
  rw [← words]
  exact finish_appends address _

end Finish

section Reader

variable (policy : FilterPolicy) {memory : Memory} {filters : List Bytes}
  (held : memory.HoldsAt 0 (contents filters))
  (small : filters.flatten.length < 2 ^ 32)

/-- The reader of a page with the given filters. -/
def reader (policy : FilterPolicy) (memory : Memory)
    (filters : List Bytes) : FilterPageReader :=
  { memory
    policy
    data := 0
    offset := filters.flatten.length
    num := filters.length
    baseLg := 11 }

include held in
theorem wordHeld {index : Nat} (within : index ≤ filters.length) :
    memory.HoldsAt (filters.flatten.length + index * 4)
      (encodeFixed32Le (UInt32.ofNat (Segments.start filters index))) := by
  rw [contents, Memory.holdsAt_append, Memory.holdsAt_append,
    Nat.zero_add] at held
  have below : index < (offsetWords filters).length := by
    rw [length_offsetWords]
    exact Nat.lt_succ_of_le within
  have word := holdsAt_words held.1.2 below
  rw [Nat.mul_comm 4 index] at word
  simpa [offsetWords] using word

include held in
theorem filterHeld {index : Nat} (inside : index < filters.length) :
    memory.HoldsAt (Segments.start filters index) filters[index] := by
  rw [contents, Memory.holdsAt_append, Memory.holdsAt_append] at held
  obtain ⟨before, after, length, split⟩ := Segments.flatten_split inside
  have whole := held.1.1
  rw [split, Memory.holdsAt_append, Memory.holdsAt_append, Nat.zero_add,
    length] at whole
  exact whole.1.2

include small in
theorem toNat_start (index : Nat) :
    (UInt32.ofNat (Segments.start filters index)).toNat =
      Segments.start filters index := by
  have bound := Segments.start_le filters index
  rw [UInt32.toNat_ofNat']
  exact Nat.mod_eq_of_lt (Nat.lt_of_le_of_lt bound small)

include held small in
theorem construct_eq (few : filters.length ≤ 2 ^ 53) {size : Nat}
    (whole : size = (contents filters).length + pageFooterSize) :
    FilterPageReader.construct policy memory size =
      pure (reader policy memory filters) := by
  rw [length_contents] at whole
  have n : (size + (2 ^ 64 - pageFooterSize)) % 2 ^ 64 =
      filters.flatten.length + filters.length * 4 + 4 + 1 := by
    have footer : pageFooterSize = 5 := rfl
    omega
  have lastByte : memory.readByte
      (filters.flatten.length + filters.length * 4 + 4) =
        pure (UInt8.ofNat filterBaseLg) := by
    rw [contents, Memory.holdsAt_append, List.length_append, length_words,
      length_offsetWords, Memory.holdsAt_cons] at held
    have position : filters.flatten.length + filters.length * 4 + 4 =
        0 + (filters.flatten.length + 4 * (filters.length + 1)) := by
      omega
    rw [position]
    exact Memory.readByte_of_byteAt held.2.1
  have lastWord : decodeFixed32LeAt memory
      (filters.flatten.length + filters.length * 4) =
        pure (UInt32.ofNat filters.flatten.length) := by
    have word := wordHeld held (Nat.le_refl filters.length)
    rw [Segments.start_length] at word
    exact decodeFixed32LeAt_of_holdsAt word
  have arrayOffset : (UInt32.ofNat filters.flatten.length).toNat =
      filters.flatten.length := by
    have position := toNat_start small filters.length
    rwa [Segments.start_length] at position
  have long : ¬filters.flatten.length + filters.length * 4 + 4 + 1 < 5 := by
    omega
  have valid : ¬filters.flatten.length + filters.length * 4 + 4 + 1 - 5 <
      filters.flatten.length := by
    omega
  have words : (filters.flatten.length + filters.length * 4 + 4 + 1 - 5 -
      filters.flatten.length) / 4 = filters.length := by
    omega
  simp only [FilterPageReader.construct, n, if_neg long, Nat.add_sub_cancel,
    lastByte, pure_bind]
  rw [show filters.flatten.length + filters.length * 4 + 4 + 1 - 5 =
    filters.flatten.length + filters.length * 4 by omega] at valid words ⊢
  simp only [lastWord, pure_bind, arrayOffset, if_neg valid, words,
    Nat.zero_add]
  rfl

include held small in
/-- A lookup answers what the policy says about the filter of the window. -/
theorem keyMayMatch_reader (offset : UInt64) (key : Bytes) :
    (reader policy memory filters).keyMayMatch offset key =
      pure (match filters[offset.toNat / filterBase]? with
        | some filter => policy.keyMayMatch key filter
        | none => true) := by
  have index : (offset >>> (reader policy memory filters).baseLg).toNat =
      offset.toNat / filterBase := by
    rw [UInt64.toNat_shiftRight, Nat.shiftRight_eq_div_pow]
    rfl
  rw [FilterPageReader.keyMayMatch, index]
  generalize offset.toNat / filterBase = window
  by_cases inside : window < filters.length
  · have start := decodeFixed32LeAt_of_holdsAt
      (wordHeld held (Nat.le_of_lt inside))
    have limit := decodeFixed32LeAt_of_holdsAt (wordHeld held inside)
    rw [Nat.succ_mul, ← Nat.add_assoc] at limit
    have filter := Memory.read_of_holdsAt (filterHeld held inside)
    have length : Segments.start filters (window + 1) -
        Segments.start filters window = filters[window].length := by
      rw [Segments.start_succ inside, Nat.add_sub_cancel_left]
    have ordered : UInt32.ofNat (Segments.start filters window) ≤
          UInt32.ofNat (Segments.start filters (window + 1)) ∧
        Segments.start filters (window + 1) ≤ filters.flatten.length := by
      constructor
      · rw [UInt32.le_iff_toNat_le, toNat_start small, toNat_start small]
        exact Segments.start_mono filters (Nat.le_succ window)
      · exact Segments.start_le filters (window + 1)
    rw [List.getElem?_eq_getElem inside]
    simp only [reader, if_pos inside, start, limit, pure_bind, Nat.sub_zero,
      toNat_start small, if_pos ordered, length, Nat.zero_add, filter]
  · rw [List.getElem?_eq_none (Nat.le_of_not_lt inside)]
    exact if_neg inside

end Reader

theorem filterCount_le (blocks : List Block) : filterCount blocks ≤ 2 ^ 53 := by
  have bound : lastWindow blocks ≤ 2 ^ 53 - 1 := by
    apply lastWindow_le
    intro block _
    have offset := block.offset.toNat_lt
    have base : block.window = block.offset.toNat / 2 ^ 11 := rfl
    omega
  rw [filterCount]
  split <;> omega

theorem getElem?_filters (policy : FilterPolicy) (blocks : List Block)
    (count window : Nat) :
    (filters policy blocks count)[window]? =
      if window < count then
        some (windowFilter policy (windowKeys blocks window))
      else none := by
  by_cases inside : window < count
  · simp [filters, inside]
  · simp [inside]

/-- The reader of a finished page finds the filters written into it. -/
theorem Sorted.construct_finish {policy : FilterPolicy} {blocks : List Block}
    {builder : FilterPageBuilder}
    (sorted : Sorted policy blocks (lastWindow blocks) builder)
    (few : (windowKeys blocks (lastWindow blocks)).length < 2 ^ 31)
    (address : Nat)
    (small : (filters policy blocks (filterCount blocks)).flatten.length <
      2 ^ 32) :
    (Memory.enclosed (builder.finish address).buffer).HoldsAt 0
        (contents (filters policy blocks (filterCount blocks))) ∧
      FilterPageReader.construct policy
          (Memory.enclosed (builder.finish address).buffer)
          (builder.finish address).buffer.length =
        pure (reader policy
          (Memory.enclosed (builder.finish address).buffer)
          (filters policy blocks (filterCount blocks))) := by
  obtain ⟨_, _, footer, footerSize, page⟩ := sorted.finish few address
  have number := length_filters policy blocks (filterCount blocks)
  have windows := filterCount_le blocks
  generalize filters policy blocks (filterCount blocks) = written
    at small page number ⊢
  have size : (builder.finish address).buffer.length =
      (contents written).length + pageFooterSize := by
    rw [page, List.length_append, footerSize]
  have bounded : (builder.finish address).buffer.length ≤ 2 ^ 64 := by
    have footerBytes : pageFooterSize = 5 := rfl
    rw [size, length_contents]
    omega
  have held : (Memory.enclosed (builder.finish address).buffer).HoldsAt 0
      (contents written) := by
    have whole : (Memory.enclosed (builder.finish address).buffer).HoldsAt 0
        (builder.finish address).buffer :=
      Memory.holdsAt_bytes bounded
    rw [page, Memory.holdsAt_append] at whole
    rw [page]
    exact whole.1
  exact ⟨held, construct_eq policy held small (number ▸ windows) size⟩

theorem keyMayMatch_windowFilter {policy : FilterPolicy}
    (complete : policy.Complete) {keys : List Bytes} {key : Bytes}
    (few : keys.length < 2 ^ 31) (member : key ∈ keys) :
    policy.keyMayMatch key (windowFilter policy keys) = true := by
  rw [windowFilter, if_neg (List.ne_nil_of_mem member)]
  exact complete keys key few member

/-- No call of `StartBlock` fails its assertion.  The page has a filter for each
window before the last block's, and one for this if it has keys.  A lookup
consults the filter made from the keys of the blocks in its window and from no
others; behind the last filter every key may match. -/
theorem keyMayMatch_exact (policy : FilterPolicy) {blocks : List Block}
    (admissible : Admissible blocks) (address : Nat)
    (small : (filters policy blocks (filterCount blocks)).flatten.length <
      2 ^ 32) :
    ∃ builder reader,
      (FilterPageBuilder.construct policy).addBlocks blocks = pure builder ∧
      FilterPageReader.construct policy
          (Memory.enclosed (builder.finish address).buffer)
          (builder.finish address).buffer.length = pure reader ∧
      (builder.finish address).filterOffsets.length = filterCount blocks ∧
      (∀ (offset : UInt64) (key : Bytes),
        reader.keyMayMatch offset key =
          pure (if offset.toNat / filterBase < filterCount blocks then
            policy.keyMayMatch key (windowFilter policy
              (windowKeys blocks (offset.toNat / filterBase)))
          else true)) ∧
      (policy.Complete → ∀ block, block ∈ blocks → ∀ key, key ∈ block.keys →
        reader.keyMayMatch block.offset key = pure true) := by
  have few (window : Nat) : (windowKeys blocks window).length < 2 ^ 31 := by
    have bound := length_windowKeys_le blocks [] window
    rw [List.append_nil] at bound
    exact Nat.lt_of_le_of_lt bound admissible.fewKeys
  obtain ⟨builder, run, sorted⟩ := addBlocks_construct policy admissible
  obtain ⟨held, constructed⟩ := sorted.construct_finish (few _) address small
  have count := (sorted.finish (few _) address).1
  have answers (offset : UInt64) (key : Bytes) :
      (reader policy (Memory.enclosed (builder.finish address).buffer)
          (filters policy blocks (filterCount blocks))).keyMayMatch offset
            key =
        pure (if offset.toNat / filterBase < filterCount blocks then
          policy.keyMayMatch key (windowFilter policy
            (windowKeys blocks (offset.toNat / filterBase)))
        else true) := by
    rw [keyMayMatch_reader policy held small, getElem?_filters]
    by_cases inside : offset.toNat / filterBase < filterCount blocks
    · rw [if_pos inside, if_pos inside]
    · rw [if_neg inside, if_neg inside]
  refine ⟨builder, _, run, constructed, count, answers, ?_⟩
  intro complete block member key added
  have own := keyMayMatch_windowFilter complete (few block.window)
    (mem_windowKeys member added)
  rw [Block.window] at own
  rw [answers, own, ite_self]

/-- Two blocks with windows in between that have no keys, under a Bloom filter
policy.  The second block's key is denied for the first one, every key for the
windows in between, and none behind the last filter. -/
theorem keyMayMatch_exact_twoBlocks :
    ∃ builder reader,
      (FilterPageBuilder.construct
          (BloomFilterPolicy.construct bloomHash 10 6).toFilterPolicy).addBlocks
        [⟨100, [[0x66], []]⟩, ⟨9000, [[0x62]]⟩] = pure builder ∧
      FilterPageReader.construct
          (BloomFilterPolicy.construct bloomHash 10 6).toFilterPolicy
          (Memory.enclosed (builder.finish 0).buffer)
          (builder.finish 0).buffer.length = pure reader ∧
      (builder.finish 0).filterOffsets.length = 5 ∧
      reader.keyMayMatch 100 [] = pure true ∧
      reader.keyMayMatch 100 [0x62] = pure false ∧
      reader.keyMayMatch 5000 [0x62] = pure false ∧
      reader.keyMayMatch 9000 [0x62] = pure true ∧
      reader.keyMayMatch 10240 [0x66] = pure true := by
  have admissible : Admissible [⟨100, [[0x66], []]⟩, ⟨9000, [[0x62]]⟩] :=
    ⟨by decide, by decide⟩
  obtain ⟨builder, reader, run, constructed, count, answers, matched⟩ :=
    keyMayMatch_exact
      (BloomFilterPolicy.construct bloomHash 10 6).toFilterPolicy admissible 0
      (by decide +kernel)
  have complete := BloomFilterPolicy.complete_toFilterPolicy
    (BloomFilterPolicy.construct bloomHash 10 6) (by decide)
  refine ⟨builder, reader, run, constructed, count,
    matched complete ⟨100, [[0x66], []]⟩ (by simp) [] (by simp), ?_, ?_,
    matched complete ⟨9000, [[0x62]]⟩ (by simp) [0x62] (by simp), ?_⟩
  · exact (answers 100 [0x62]).trans (congrArg pure (by decide +kernel))
  · exact (answers 5000 [0x62]).trans (congrArg pure (by decide +kernel))
  · exact (answers 10240 [0x66]).trans (congrArg pure (by decide +kernel))

end FilterPage

end LiteLsm
