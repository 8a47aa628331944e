import LiteLsm.Storage.PageChecksum
import LiteLsm.Storage.RoundTrip

/-!
# What a data page is

A page shows its pairs to whoever goes backward from its last entry, and its
type in its footer.  Nothing else can be told from the bytes: neither the
configured page size nor where the builder or its buffer were.
-/

namespace LiteLsm

open Checked Layout DataPageIterator DataPageBuilder DataPageReader

theorem OpenPage.observe_stepsBack {pairs : List Pair} (page : OpenPage pairs)
    (nonempty : pairs ≠ []) (steps : Nat) :
    (page.standing ((Place.first (List.length_pos_iff.mpr nonempty)).moves
        (.seekToLast :: List.replicate steps .prev))).observe =
      pure pairs.reverse[steps]? := by
  have last : pairs.length - 1 < pairs.length :=
    Nat.sub_one_lt_of_lt (List.length_pos_iff.mpr nonempty)
  have start : Move.seekToLast.onPlace (Place.first (Nat.zero_lt_of_lt last)) =
      Place.own last := rfl
  rw [Place.moves_cons, start]
  rcases Nat.lt_or_ge steps pairs.length with below | beyond
  · have reached := Place.moves_replicate_prev last steps (by omega)
    have inside : pairs.length - 1 - steps < pairs.length := by omega
    rw [reached, OpenPage.observe_own _ inside, List.getElem?_reverse below]
  · have behind := Place.moves_replicate_prev_beyond last steps (by omega)
    rw [OpenPage.observe_standing_end _ behind,
      List.getElem?_eq_none (by simpa using beyond)]

section Identity

variable {pairs others : List Pair} {type otherType : PageType}
  {pageSize otherSize address otherAddress : Nat}

theorem getPageType_dataPage (type : PageType) (pageSize address : Nat)
    (pairs : List Pair) :
    PageReader.getPageType ⟨0, dataPage type pageSize address pairs⟩ =
      some type := by
  have finished := DataPageBuilder.sealed
    ((ofTypeAndSize type pageSize).addPairs pairs) address
  rw [footer_addPairs] at finished
  exact finished.typed 0

theorem groupCount_of_same (small : offsetAt pairs pairs.length < 2 ^ 28)
    (smallOthers : offsetAt others others.length < 2 ^ 28)
    (same : dataPage type pageSize address pairs =
      dataPage otherType otherSize otherAddress others) :
    groupCount pairs = groupCount others := by
  let memory := Memory.among (fun _ => none)
    (dataPage type pageSize address pairs)
  have loaded : memory.bytes = dataPage type pageSize address pairs := rfl
  have opened := newIterator_eq small loaded defaultCompare
  have openedOther := newIterator_eq smallOthers (loaded.trans same)
    defaultCompare
  have iterators := opened.symm.trans
    ((congrArg (newIterator memory · defaultCompare) same).trans openedOther)
  have numbers := congrArg (fun iterator => iterator.restartPointNum.toNat)
    (pure_injective iterators)
  have few := (openPage small loaded defaultCompare).groupCount_lt
  have fewOthers :=
    (openPage smallOthers (loaded.trans same) defaultCompare).groupCount_lt
  simp only [OpenPage.cursor, UInt32.toNat_ofNat'] at numbers
  omega

/-- The bytes of a page determine its pairs. -/
theorem pairs_of_same (small : offsetAt pairs pairs.length < 2 ^ 28)
    (smallOthers : offsetAt others others.length < 2 ^ 28)
    (same : dataPage type pageSize address pairs =
      dataPage otherType otherSize otherAddress others) :
    pairs = others := by
  have groups := groupCount_of_same small smallOthers same
  by_cases empty : pairs = []
  · subst empty
    by_contra nonempty
    have positive := groupCount_pos others (Ne.symm nonempty)
    rw [← groups] at positive
    exact absurd positive (by decide)
  · have nonempty : others ≠ [] := by
      rintro rfl
      have positive := groupCount_pos pairs empty
      rw [groups] at positive
      exact absurd positive (by decide)
    let memory := Memory.among (fun _ => none)
      (dataPage type pageSize address pairs)
    have loaded : memory.bytes = dataPage type pageSize address pairs := rfl
    refine List.reverse_inj.mp (List.ext_getElem? fun steps => ?_)
    have shown := observeAfter_eq empty small loaded defaultCompare
      (.seekToLast :: List.replicate steps .prev)
    have shownOther := observeAfter_eq nonempty smallOthers
      (loaded.trans same) defaultCompare
      (.seekToLast :: List.replicate steps .prev)
    rw [OpenPage.observe_stepsBack _ empty] at shown
    rw [OpenPage.observe_stepsBack _ nonempty] at shownOther
    exact pure_injective (shown.symm.trans ((congrArg (observeAfter memory ·
      defaultCompare _) same).trans shownOther))

/-- Two data pages are the same bytes if and only if they have the same type
and the same list of pairs. -/
theorem dataPage_eq_iff (small : offsetAt pairs pairs.length < 2 ^ 28)
    (smallOthers : offsetAt others others.length < 2 ^ 28) :
    dataPage type pageSize address pairs =
        dataPage otherType otherSize otherAddress others ↔
      type = otherType ∧ pairs = others := by
  constructor
  · intro same
    have typed := getPageType_dataPage type pageSize address pairs
    rw [same, getPageType_dataPage] at typed
    exact ⟨(Option.some.inj typed).symm, pairs_of_same small smallOthers same⟩
  · rintro ⟨rfl, rfl⟩
    rw [dataPage_sections, dataPage_sections]
    simp only [Crc32c.value, Crc32c.extend_eq_bitwise]

end Identity

/-- An index page built elsewhere for another page size. -/
theorem dataPage_eq_iff_sample :
    dataPage .indexPage 4096 0 samplePairs =
        dataPage .indexPage 512 7 samplePairs ∧
      dataPage .indexPage 4096 0 samplePairs ≠
        dataPage .dataPage 4096 0 samplePairs := by
  have small : offsetAt samplePairs samplePairs.length < 2 ^ 28 := by
    decide +kernel
  exact ⟨(dataPage_eq_iff small small).mpr ⟨rfl, rfl⟩,
    fun same => absurd ((dataPage_eq_iff small small).mp same).1 (by decide)⟩

end LiteLsm
