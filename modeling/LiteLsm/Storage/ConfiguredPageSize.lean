import LiteLsm.Storage.SizeEstimate

/-!
# The configured page size

The options carry a page size, and a constructor hands it on to the one which
stores `PAGESIZE` in its place.  A caller that fills a page up to the size the
builder reports therefore fills it up to the default, whatever was configured.
The largest page that comes out of this has 4093 bytes: a single pair can use
up the estimates of 4096 bytes to the last one, and these are three bytes
more than what is written.
-/

namespace LiteLsm

open Layout

structure PageBuilderOptions where
  pageSize : Nat := defaultPageSize
  deriving DecidableEq, Repr

namespace DataPageBuilder

/-- `DataPageBuilder(const PageBuilderOptions& options)` -/
def ofOptions {SliceType : Type} [Inhabited SliceType]
    (options : PageBuilderOptions) : DataPageBuilder SliceType :=
  ofTypeAndSize .dataPage options.pageSize

/-- The fill loop of the tests, up to the given size: it stops at the first
pair whose estimate does not fit. -/
def fillUpTo (pageSize : Nat) (builder : DataPageBuilder Bytes) :
    List Pair → DataPageBuilder Bytes
  | [] => builder
  | (key, value) :: pairs =>
      if builder.estimateSize + estimateEntrySize key value > pageSize then
        builder
      else
        fillUpTo pageSize (builder.add id key value) pairs

/-- The fill loop, up to the size which the builder reports. -/
def fill (builder : DataPageBuilder Bytes) (pairs : List Pair) :
    DataPageBuilder Bytes :=
  builder.fillUpTo builder.pageSize pairs

theorem filledWithin_fillUpTo {pageSize : Nat}
    {builder : DataPageBuilder Bytes}
    (filled : FilledWithin pageSize builder) (pairs : List Pair) :
    FilledWithin pageSize (builder.fillUpTo pageSize pairs) := by
  induction pairs generalizing builder with
  | nil => exact filled
  | cons pair pairs induction =>
      obtain ⟨key, value⟩ := pair
      rw [fillUpTo]
      split
      · exact filled
      · rename_i fits
        exact induction (.add id key value filled (Nat.not_lt.mp fits))

/-- Whatever is configured, the budget is the default. -/
private theorem filledWithin_fill (options : PageBuilderOptions)
    (pairs : List Pair) :
    FilledWithin defaultPageSize ((ofOptions options).fill pairs) :=
  filledWithin_fillUpTo (.fresh .dataPage options.pageSize) pairs

private theorem length_encodeVarint32_of_lt {length : Nat}
    (short : length < 2 ^ 32) :
    (encodeVarint32 (UInt32.ofNat length)).length =
      varintLength (UInt64.ofNat length) := by
  rw [encodeVarint32_eq, varintLength_eq, UInt32.toNat_ofNat',
    UInt64.toNat_ofNat', Nat.mod_eq_of_lt short,
    Nat.mod_eq_of_lt (Nat.lt_trans short (by decide))]

/-- At the start of a group the estimates are three bytes above what comes
out, never more. -/
private theorem length_finish_add_restart {builder : DataPageBuilder Bytes}
    (restart : builder.recordNum % restartPointInterval = 0)
    {key value : Bytes} (shortKey : key.length < 2 ^ 32)
    (shortValue : value.length < 2 ^ 32) (address : Nat) :
    ((builder.add id key value).finish address).buffer.length + 3 =
      builder.estimateSize + estimateEntrySize key value := by
  have noPrefix : prefixLength id key builder = 0 := by
    rw [prefixLength, if_pos restart]
  have entry := length_newEntry id key value builder
  have zero : (encodeVarint32 (UInt32.ofNat 0)).length = 1 := rfl
  rw [header, List.length_append, List.length_append, suffixLength, noPrefix,
    zero, id, id, Nat.sub_zero, length_encodeVarint32_of_lt shortKey,
    length_encodeVarint32_of_lt shortValue] at entry
  have appended := congrArg List.length (buffer_add id key value builder)
  rw [List.length_append] at appended
  have before := estimateSize_eq address builder
  rw [length_finish] at before ⊢
  rw [length_restartPointOffsets_add, if_pos restart, estimateEntrySize]
  omega

/-- The page of one pair whose estimate is within the default size. -/
private theorem length_fill_singleton (options : PageBuilderOptions)
    {key value : Bytes}
    (fits : 13 + estimateEntrySize key value ≤ defaultPageSize)
    (address : Nat) :
    (((ofOptions options).fill [(key, value)]).finish
        address).buffer.length + 3 = 13 + estimateEntrySize key value := by
  have empty : (ofOptions options : DataPageBuilder Bytes).estimateSize = 13 :=
    rfl
  have added : (ofOptions options).fill [(key, value)] =
      (ofOptions options).add id key value := by
    rw [fill, fillUpTo, fillUpTo, empty]
    exact if_neg (Nat.not_lt.mpr fits)
  have lengths : key.length < 2 ^ 32 ∧ value.length < 2 ^ 32 := by
    rw [estimateEntrySize, defaultPageSize] at fits
    omega
  rw [added, ← empty]
  exact length_finish_add_restart rfl lengths.1 lengths.2 address

private theorem varintLength_of_lt {length : Nat} (short : length < 128) :
    varintLength (UInt64.ofNat length) = 1 := by
  rw [varintLength_eq, UInt64.toNat_ofNat',
    Nat.mod_eq_of_lt (Nat.lt_trans short (by decide)),
    Base128.encode_of_lt short, List.length_singleton]

/-- An empty key and a value of 4076 bytes make up the largest page. -/
private theorem length_largestPage (options : PageBuilderOptions)
    (address : Nat) :
    (((ofOptions options).fill [([], List.replicate 4076 0)]).finish
      address).buffer.length = 4093 := by
  have keyVarint := varintLength_of_lt (show 0 < 128 by decide)
  have valueVarint : varintLength (UInt64.ofNat 4076) = 2 := by
    rw [varintLength_eq, UInt64.toNat_ofNat', Base128.encode_of_le (by decide),
      Base128.encode_of_lt (by decide)]
    rfl
  have estimate : estimateEntrySize [] (List.replicate 4076 0) = 4083 := by
    rw [estimateEntrySize, List.length_nil, List.length_replicate, keyVarint,
      valueVarint]
  have page := length_fill_singleton options
    (Nat.le_of_eq (congrArg (13 + ·) estimate)) address
  rw [estimate] at page
  exact Nat.add_right_cancel page

/-- Filled pages keep to the configured size exactly where this is as large
as the largest page of the default size. -/
theorem fill_withinConfigured_iff (options : PageBuilderOptions) :
    (∀ pairs address,
      (((ofOptions options).fill pairs).finish address).buffer.length ≤
        options.pageSize) ↔
      4093 ≤ options.pageSize := by
  constructor
  · intro within
    rw [← length_largestPage options 0]
    exact within _ 0
  · intro enough pairs address
    have filled := filledWithin_fill options pairs
    have spare := filled.length_finish_le (by decide) address
    rw [defaultPageSize] at spare
    omega

/-- Configured to 13 bytes, a pair of two bytes makes a page of 18. -/
theorem fill_beyondConfigured :
    (((ofOptions { pageSize := 13 }).fill [([0x61], [0x62])]).finish
      0).buffer.length = 18 ∧
    ¬∀ options : PageBuilderOptions, 13 ≤ options.pageSize →
      ∀ pairs address,
        (((ofOptions options).fill pairs).finish address).buffer.length ≤
          options.pageSize := by
  have estimate : estimateEntrySize [0x61] [0x62] = 8 := by
    rw [estimateEntrySize, List.length_singleton, List.length_singleton,
      varintLength_of_lt (by decide)]
  have page := length_fill_singleton { pageSize := 13 }
    (show 13 + estimateEntrySize [0x61] [0x62] ≤ defaultPageSize by
      rw [estimate]
      decide) 0
  rw [estimate] at page
  have length := Nat.add_right_cancel (page.trans (show 21 = 18 + 3 from rfl))
  refine ⟨length, ?_⟩
  intro respected
  have short := respected { pageSize := 13 } (Nat.le_refl 13)
    [([0x61], [0x62])] 0
  rw [length] at short
  exact absurd short (by decide)

end DataPageBuilder

end LiteLsm
