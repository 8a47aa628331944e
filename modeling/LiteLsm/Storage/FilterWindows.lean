import LiteLsm.Storage.FilterPage
import LiteLsm.Support.Segments
import Mathlib.Data.List.Flatten

/-!
# Filters of windows

What a filter page is for: the keys of all blocks that start in one window of
block offsets share one filter.  `windowKeys` says which keys these are.  The
builder never holds this classification.  It holds the flattened keys of the
current window and the flattened filters of the windows before it; `Sorted`
is the invariant which connects the two.
-/

namespace LiteLsm

open Checked

/-- A call of `StartBlock` with the calls of `AddKey` behind it. -/
structure Block where
  offset : UInt64
  keys : List Bytes

def Block.window (block : Block) : Nat :=
  block.offset.toNat / filterBase

namespace FilterPageBuilder

def addBlock (block : Block) (builder : FilterPageBuilder) :
    Program FilterPageBuilder := do
  let builder ← builder.startBlock block.offset
  pure (block.keys.foldl (fun builder key => builder.addKey key) builder)

/-- The calls for a list of blocks, in order. -/
def addBlocks : List Block → FilterPageBuilder → Program FilterPageBuilder
  | [], builder => pure builder
  | block :: blocks, builder => do
      let builder ← builder.addBlock block
      addBlocks blocks builder

end FilterPageBuilder

namespace FilterPage

/-- The keys added for blocks that start in the given window, in order. -/
def windowKeys (blocks : List Block) (window : Nat) : List Bytes :=
  (blocks.filter fun block => block.window = window).flatMap Block.keys

/-- The filter of a window: without keys there is none. -/
def windowFilter (policy : FilterPolicy) (keys : List Bytes) : Bytes :=
  if keys = [] then [] else policy.filterOf keys

/-- The filters of the first windows. -/
def filters (policy : FilterPolicy) (blocks : List Block) (count : Nat) :
    List Bytes :=
  (List.range count).map fun window =>
    windowFilter policy (windowKeys blocks window)

def lastWindow (blocks : List Block) : Nat :=
  (blocks.getLast?.map Block.window).getD 0

/-- The number of filters a finished page has. -/
def filterCount (blocks : List Block) : Nat :=
  if windowKeys blocks (lastWindow blocks) = [] then lastWindow blocks
  else lastWindow blocks + 1

theorem windowKeys_concat (blocks : List Block) (block : Block)
    (window : Nat) :
    windowKeys (blocks ++ [block]) window =
      windowKeys blocks window ++
        if block.window = window then block.keys else [] := by
  rw [windowKeys, List.filter_append, List.flatMap_append, ← windowKeys]
  congr 1
  by_cases here : block.window = window
  · simp [here]
  · simp [here]

theorem mem_windowKeys {blocks : List Block} {block : Block} {key : Bytes}
    (member : block ∈ blocks) (added : key ∈ block.keys) :
    key ∈ windowKeys blocks block.window := by
  refine List.mem_flatMap.mpr ⟨block, ?_, added⟩
  exact List.mem_filter.mpr ⟨member, decide_eq_true rfl⟩

theorem windowKeys_of_later {blocks : List Block} {window : Nat}
    (earlier : ∀ block, block ∈ blocks → block.window < window) :
    windowKeys blocks window = [] := by
  have none : blocks.filter (fun block => block.window = window) = [] := by
    apply List.filter_eq_nil_iff.mpr
    intro block member
    simpa using Nat.ne_of_lt (earlier block member)
  rw [windowKeys, none, List.flatMap_nil]

theorem length_windowKeys_le (blocks more : List Block) (window : Nat) :
    (windowKeys blocks window).length ≤
      ((blocks ++ more).flatMap Block.keys).length := by
  apply List.Sublist.length_le
  apply List.Sublist.flatMap
  exact List.filter_sublist.trans (List.sublist_append_left blocks more)

@[simp] theorem lastWindow_concat (blocks : List Block) (block : Block) :
    lastWindow (blocks ++ [block]) = block.window := by
  simp [lastWindow]

theorem lastWindow_le {blocks : List Block} {window : Nat}
    (earlier : ∀ block, block ∈ blocks → block.window ≤ window) :
    lastWindow blocks ≤ window := by
  rw [lastWindow]
  cases last : blocks.getLast? with
  | none => exact Nat.zero_le _
  | some block => exact earlier block (List.mem_of_getLast? last)

@[simp] theorem length_filters (policy : FilterPolicy) (blocks : List Block)
    (count : Nat) : (filters policy blocks count).length = count := by
  simp [filters]

theorem filters_succ (policy : FilterPolicy) (blocks : List Block)
    (count : Nat) :
    filters policy blocks (count + 1) =
      filters policy blocks count ++
        [windowFilter policy (windowKeys blocks count)] := by
  rw [filters, List.range_succ, List.map_append, List.map_singleton, filters]

theorem filters_concat (policy : FilterPolicy) (blocks : List Block)
    {block : Block} {count : Nat} (later : count ≤ block.window) :
    filters policy (blocks ++ [block]) count =
      filters policy blocks count := by
  apply List.map_congr_left
  intro window member
  have before : window < count := List.mem_range.mp member
  have other : block.window ≠ window := by omega
  rw [windowKeys_concat, if_neg other, List.append_nil]

/-- The builder holds the given keys, flattened. -/
structure Pools (pooled : List Bytes) (builder : FilterPageBuilder) :
    Prop where
  keys : builder.keys = pooled.flatten
  start : builder.start = Segments.starts pooled

theorem Pools.foldl_addKey {pooled : List Bytes} {builder : FilterPageBuilder}
    (pools : Pools pooled builder) (keys : List Bytes) :
    keys.foldl (fun builder key => builder.addKey key) builder =
      { builder with
        keys := (pooled ++ keys).flatten
        start := Segments.starts (pooled ++ keys) } := by
  induction keys generalizing pooled builder with
  | nil => rw [List.append_nil, ← pools.keys, ← pools.start]; rfl
  | cons key keys induction =>
      have added : Pools (pooled ++ [key]) (builder.addKey key) := by
        constructor
        · rw [FilterPageBuilder.addKey, List.flatten_append,
            List.flatten_singleton, pools.keys]
        · rw [FilterPageBuilder.addKey, Segments.starts_concat, pools.start,
            pools.keys]
      rw [List.foldl_cons, induction added, List.append_assoc,
        List.singleton_append]
      rfl

/-- Flattened keys are cut apart again where they were joined. -/
theorem Pools.tmpKeys_eq {pooled : List Bytes} {builder : FilterPageBuilder}
    (pools : Pools pooled builder) : builder.tmpKeys = pooled := by
  have position (i : Nat) (within : i ≤ pooled.length) :
      (Segments.starts pooled ++ [pooled.flatten.length]).getD i 0 =
        Segments.start pooled i := by
    rcases Nat.lt_or_eq_of_le within with inside | rfl
    · rw [List.getD_append _ _ _ _ (by simpa using inside)]
      simp [Segments.starts, inside]
    · rw [List.getD_append_right _ _ _ _ (by simp), Segments.start_length]
      simp
  calc
    builder.tmpKeys = (List.range pooled.length).map fun i =>
        (pooled.flatten.drop (Segments.start pooled i)).take
          (Segments.start pooled (i + 1) - Segments.start pooled i) := by
      simp only [FilterPageBuilder.tmpKeys, pools.start, pools.keys,
        Segments.length_starts]
      apply List.map_congr_left
      intro i member
      have inside : i < pooled.length := List.mem_range.mp member
      rw [position i (Nat.le_of_lt inside), position (i + 1) inside]
    _ = pooled := Segments.slices_eq pooled

theorem generateFilter_eq {pooled : List Bytes} {builder : FilterPageBuilder}
    (pools : Pools pooled builder) (few : pooled.length < 2 ^ 31) :
    builder.generateFilter =
      { builder with
        filterOffsets :=
          builder.filterOffsets ++ [UInt32.ofNat builder.buffer.length]
        buffer := builder.buffer ++ windowFilter builder.policy pooled
        keys := []
        start := [] } := by
  have count : builder.start.length = pooled.length := by
    rw [pools.start, Segments.length_starts]
  rw [FilterPageBuilder.generateFilter, windowFilter]
  by_cases none : pooled = []
  · have noKeys : builder.keys = [] := by
      rw [pools.keys, none, List.flatten_nil]
    have noStart : builder.start = [] := by
      rw [pools.start, none]
      rfl
    rw [if_pos none, if_pos (by rw [noStart]; rfl), List.append_nil, ← noKeys,
      ← noStart]
  · have some : builder.start.length ≠ 0 := by
      rw [count]
      exact fun empty => none (List.length_eq_zero_iff.mp empty)
    have narrowed : ((builder.start.length : Int).bmod (2 ^ 32)).toNat =
        pooled.length := by
      rw [count, Int.bmod_eq_of_le (by omega) (by omega), Int.toNat_natCast]
    simp only [if_neg none, if_neg some, pools.tmpKeys_eq, narrowed,
      List.take_length, builder.policy.createFilter_eq]

/-- The filters of all windows before `window` are written, the keys of
`window` are pooled, and no block was started in a later window. -/
structure Sorted (policy : FilterPolicy) (blocks : List Block) (window : Nat)
    (builder : FilterPageBuilder) : Prop
    extends Pools (windowKeys blocks window) builder where
  samePolicy : builder.policy = policy
  footerType : builder.footer.type = .filterPage
  buffer : builder.buffer = (filters policy blocks window).flatten
  filterOffsets : builder.filterOffsets =
    (Segments.starts (filters policy blocks window)).map UInt32.ofNat
  passed : ∀ block, block ∈ blocks → block.window ≤ window

theorem sorted_construct (policy : FilterPolicy) :
    Sorted policy [] 0 (FilterPageBuilder.construct policy) where
  keys := rfl
  start := rfl
  samePolicy := rfl
  footerType := rfl
  buffer := rfl
  filterOffsets := rfl
  passed := fun _ member => absurd member (List.not_mem_nil)

section Steps

variable {policy : FilterPolicy} {blocks : List Block} {window : Nat}
  {builder : FilterPageBuilder}

theorem Sorted.length_filterOffsets
    (sorted : Sorted policy blocks window builder) :
    builder.filterOffsets.length = window := by
  rw [sorted.filterOffsets, List.length_map, Segments.length_starts,
    length_filters]

theorem Sorted.generateFilter (sorted : Sorted policy blocks window builder)
    (few : (windowKeys blocks window).length < 2 ^ 31) :
    Sorted policy blocks (window + 1) builder.generateFilter := by
  have nothingLater : windowKeys blocks (window + 1) = [] :=
    windowKeys_of_later fun block member =>
      Nat.lt_succ_of_le (sorted.passed block member)
  rw [generateFilter_eq sorted.toPools few]
  constructor
  · constructor
    · rw [nothingLater, List.flatten_nil]
    · rw [nothingLater]
      rfl
  · exact sorted.samePolicy
  · exact sorted.footerType
  · rw [filters_succ, List.flatten_append, List.flatten_singleton,
      ← sorted.buffer, sorted.samePolicy]
  · rw [filters_succ, Segments.starts_concat, List.map_append,
      List.map_singleton, ← sorted.filterOffsets, ← sorted.buffer]
  · exact fun block member =>
      Nat.le_succ_of_le (sorted.passed block member)

theorem Sorted.startBlock (sorted : Sorted policy blocks window builder)
    (few : ∀ window, (windowKeys blocks window).length < 2 ^ 31)
    {offset : UInt64} (later : window ≤ offset.toNat / filterBase) :
    ∃ next, builder.startBlock offset = pure next ∧
      Sorted policy blocks (offset.toNat / filterBase) next := by
  have along (count : Nat) : Sorted policy blocks (window + count)
      (FilterPageBuilder.generateFilter^[count] builder) := by
    induction count with
    | zero => exact sorted
    | succ count induction =>
        rw [Function.iterate_succ_apply']
        exact induction.generateFilter (few _)
  obtain ⟨count, reached⟩ := Nat.exists_eq_add_of_le later
  have written := sorted.length_filterOffsets
  refine ⟨_, FilterPageBuilder.startBlock_eq (by rwa [written]), ?_⟩
  rw [written, reached, Nat.add_sub_cancel_left]
  exact along count

theorem Sorted.addKeys {block : Block}
    (sorted : Sorted policy blocks block.window builder) :
    Sorted policy (blocks ++ [block]) block.window
      (block.keys.foldl (fun builder key => builder.addKey key) builder) := by
  have together : windowKeys (blocks ++ [block]) block.window =
      windowKeys blocks block.window ++ block.keys := by
    rw [windowKeys_concat, if_pos rfl]
  have earlier := filters_concat policy blocks (Nat.le_refl block.window)
  rw [sorted.toPools.foldl_addKey]
  constructor
  · constructor
    · rw [together]
    · rw [together]
  · exact sorted.samePolicy
  · exact sorted.footerType
  · rw [earlier, ← sorted.buffer]
  · rw [earlier, ← sorted.filterOffsets]
  · intro other member
    rcases List.mem_append.mp member with before | last
    · exact sorted.passed other before
    · exact Nat.le_of_eq (by rw [List.mem_singleton.mp last])

end Steps

/-- Blocks in the order of their offsets, with fewer keys than an `int` can
count. -/
structure Admissible (blocks : List Block) : Prop where
  ordered : blocks.Pairwise fun earlier later => earlier.offset ≤ later.offset
  fewKeys : (blocks.flatMap Block.keys).length < 2 ^ 31

/-- The windows of the blocks never decrease. -/
def WindowsOrdered (blocks : List Block) : Prop :=
  blocks.Pairwise fun earlier later => earlier.window ≤ later.window

instance (blocks : List Block) : Decidable (WindowsOrdered blocks) :=
  inferInstanceAs (Decidable (blocks.Pairwise fun earlier later =>
    earlier.window ≤ later.window))

theorem Admissible.windowsOrdered {blocks : List Block}
    (admissible : Admissible blocks) : WindowsOrdered blocks :=
  admissible.ordered.imp fun offsets => Nat.div_le_div_right offsets

theorem WindowsOrdered.window_le {done blocks : List Block} {block : Block}
    (ordered : WindowsOrdered (done ++ block :: blocks)) :
    ∀ earlier, earlier ∈ done → earlier.window ≤ block.window :=
  fun earlier member => (List.pairwise_append.mp ordered).2.2 earlier member
    block List.mem_cons_self

theorem addBlocks_from {policy : FilterPolicy} {done : List Block}
    {builder : FilterPageBuilder}
    (sorted : Sorted policy done (lastWindow done) builder)
    {blocks : List Block} (ordered : WindowsOrdered (done ++ blocks))
    (fewKeys : ((done ++ blocks).flatMap Block.keys).length < 2 ^ 31) :
    ∃ final, builder.addBlocks blocks = pure final ∧
      Sorted policy (done ++ blocks) (lastWindow (done ++ blocks)) final := by
  induction blocks generalizing done builder with
  | nil =>
      rw [List.append_nil]
      exact ⟨builder, rfl, sorted⟩
  | cons block blocks induction =>
      have few (window : Nat) : (windowKeys done window).length < 2 ^ 31 :=
        Nat.lt_of_le_of_lt (length_windowKeys_le done (block :: blocks) window)
          fewKeys
      obtain ⟨started, run, moved⟩ := sorted.startBlock few
        (lastWindow_le ordered.window_le)
      have atBlock : Sorted policy done block.window started := moved
      have added := atBlock.addKeys
      rw [List.append_cons] at ordered fewKeys ⊢
      obtain ⟨final, rest, result⟩ :=
        induction (lastWindow_concat done block ▸ added) ordered fewKeys
      refine ⟨final, ?_, result⟩
      rw [FilterPageBuilder.addBlocks, FilterPageBuilder.addBlock, run]
      simpa only [pure_bind] using rest

/-- A sequence of calls with offsets in order meets no failing assertion. -/
theorem addBlocks_construct (policy : FilterPolicy) {blocks : List Block}
    (admissible : Admissible blocks) :
    ∃ builder,
      (FilterPageBuilder.construct policy).addBlocks blocks = pure builder ∧
        Sorted policy blocks (lastWindow blocks) builder :=
  addBlocks_from (sorted_construct policy) admissible.windowsOrdered
    admissible.fewKeys

end FilterPage

end LiteLsm
