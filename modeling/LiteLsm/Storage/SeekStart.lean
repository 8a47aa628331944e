import LiteLsm.Storage.SeekLowerBound

/-!
# Where a search begins its scan

The binary search takes a candidate on its right that may still be below the
target, and two cases behind it correct this.  With restart keys in order, what
comes out is the last restart point whose key is less than the target, or the
first one.  That the entries before it are of no interest, and that the first
entry of interest is not far behind it, takes more: the order of all keys, of
which that of the restart keys is only a part.
-/

namespace LiteLsm

open Checked Layout DataPageIterator DataPageBuilder

namespace Layout

variable (comparator : Compare) (pairs : List Pair) (target : Bytes)

/-- The last restart point whose key is less than the target, or the first one
if there is none. -/
structure LastRestartBelow (group : Nat) : Prop where
  inside : group < groupCount pairs
  last : ∀ later, group < later → later < groupCount pairs →
    ¬comparator (keyAt pairs (restartPointInterval * later)) target < 0
  below : comparator (keyAt pairs (restartPointInterval * group)) target < 0 ∨
    group = 0

variable {comparator pairs target}

namespace LastRestartBelow

theorem unique {left right : Nat}
    (leftFound : LastRestartBelow comparator pairs target left)
    (rightFound : LastRestartBelow comparator pairs target right) :
    left = right := by
  have one (group later : Nat)
      (found : LastRestartBelow comparator pairs target group)
      (laterFound : LastRestartBelow comparator pairs target later) :
      ¬group < later := by
    intro before
    rcases laterFound.below with below | first
    · exact found.last later before laterFound.inside below
    · omega
  exact Nat.le_antisymm
    (Nat.not_lt.mp (one right left rightFound leftFound))
    (Nat.not_lt.mp (one left right leftFound rightFound))

variable (order : TotalPreorder comparator)
  (sorted : NonDecreasing comparator pairs) {group : Nat}
  (found : LastRestartBelow comparator pairs target group)

include order sorted found in
theorem below_before {index : Nat}
    (before : index < restartPointInterval * group) :
    comparator (keyAt pairs index) target < 0 := by
  rcases found.below with below | first
  · exact keyAt_below order sorted (Nat.le_of_lt before)
      ((lt_groupCount_iff pairs).mp found.inside) below
  · rw [first, Nat.mul_zero] at before
    exact absurd before (Nat.not_lt_zero index)

include order sorted found in
/-- The first candidate is in the group, or the first entry behind it. -/
theorem firstNotBelow_within {index : Nat}
    (first : FirstNotBelow comparator pairs target index) :
    restartPointInterval * group ≤ index ∧
      index ≤ restartPointInterval * (group + 1) := by
  constructor
  · apply Nat.not_lt.mp
    intro before
    exact first.notBelow (found.below_before order sorted before)
  · apply Nat.not_lt.mp
    intro behind
    have counted : group + 1 < groupCount pairs :=
      (lt_groupCount_iff pairs).mpr (Nat.lt_trans behind first.inside)
    exact found.last (group + 1) (Nat.lt_succ_self group) counted
      (first.before _ behind)

end LastRestartBelow

end Layout

/-- In any state of the iterator a search begins at the restart point of the
group: it goes to the first entry, or scans from where the group starts. -/
def DataPageIterator.BeginsAt (iterator : DataPageIterator)
    (pairs : List Pair) (target : Bytes) (group : Nat) : Prop :=
  ∀ (cur : Nat) (curRestartPoint : Int),
    (group = 0 ∧
      seek { iterator with cur, curRestartPoint } target =
        pure (seekToFirst { iterator with cur, curRestartPoint })) ∨
    seek { iterator with cur, curRestartPoint } target =
      scanToTarget
        { iterator with
          cur := offsetAt pairs (restartPointInterval * group)
          curRestartPoint } target

namespace OpenPage

variable {pairs : List Pair} (page : OpenPage pairs)
  (order : TotalPreorder page.comparator)
  (restarts : RestartsNonDecreasing page.comparator pairs) {target : Bytes}

include order restarts in
/-- Behind a restart point that is not below the target there is none that
is. -/
private theorem not_below_later {earlier later : Nat}
    (ordered : earlier ≤ later) (within : later < groupCount pairs)
    (above : page.restartBelow target earlier = false) :
    ¬page.comparator (keyAt pairs (restartPointInterval * later))
      target < 0 := by
  intro below
  have lower := page.restartBelow_antitone order restarts ordered within
    (decide_eq_true below)
  rw [above] at lower
  cases lower

include order restarts in
theorem lastRestartBelow_of_startsAt {group : Nat}
    (starts : page.StartsAt target group) :
    LastRestartBelow page.comparator pairs target group := by
  refine ⟨starts.inside, ?_, Or.inl (of_decide_eq_true starts.below)⟩
  intro later behind within
  rcases starts.last with atEnd | above
  · omega
  · exact page.not_below_later order restarts behind within above

include order restarts in
theorem lastRestartBelow_of_none (nonempty : pairs ≠ [])
    (found : page.startGroup target = none) :
    LastRestartBelow page.comparator pairs target 0 := by
  refine ⟨groupCount_pos pairs nonempty, ?_, Or.inr rfl⟩
  intro later behind within
  rcases page.not_below_of_startGroup target found with alone | above
  · omega
  · exact page.not_below_later order restarts (Nat.zero_le later) within above

include order restarts in
/-- The group a search begins in does not depend on the iterator's state. -/
theorem exists_beginsAt (nonempty : pairs ≠ []) (target : Bytes) :
    ∃ group, LastRestartBelow page.comparator pairs target group ∧
      (page.cursor 0 0).BeginsAt pairs target group := by
  have run := page.seek_anywhere nonempty target
  cases found : page.startGroup target with
  | none =>
      refine ⟨0, page.lastRestartBelow_of_none order restarts nonempty found,
        ?_⟩
      rw [found] at run
      intro cur curRestartPoint
      exact Or.inl ⟨rfl, run cur curRestartPoint⟩
  | some group =>
      have starts := page.startsAt_of_startGroup target found
      refine ⟨group, page.lastRestartBelow_of_startsAt order restarts starts,
        ?_⟩
      rw [found] at run
      intro cur curRestartPoint
      exact Or.inr (run cur curRestartPoint)

end OpenPage

namespace DataPageReader

/-- On a built page whose restart keys are in order, any search begins at the
last restart point that is below the target, or at the first one.  If all keys
are in order, no entry before it is a candidate, and the first candidate is in
the group or the first entry behind it. -/
theorem seek_beginsAt_lastBelow {pairs : List Pair} (nonempty : pairs ≠ [])
    {comparator : Compare} (order : TotalPreorder comparator)
    (restarts : RestartsNonDecreasing comparator pairs)
    (small : offsetAt pairs pairs.length < 2 ^ 28) (type : PageType)
    (pageSize address : Nat) (outside : Nat → Option UInt8)
    (target : Bytes) :
    ∃ opened group,
      newIterator
          (Memory.among outside (dataPage type pageSize address pairs))
          (dataPage type pageSize address pairs) comparator = pure opened ∧
        LastRestartBelow comparator pairs target group ∧
        opened.BeginsAt pairs target group ∧
        (NonDecreasing comparator pairs →
          (∀ index, index < restartPointInterval * group →
            comparator (keyAt pairs index) target < 0) ∧
          ∀ index, FirstNotBelow comparator pairs target index →
            restartPointInterval * group ≤ index ∧
              index ≤ restartPointInterval * (group + 1)) := by
  have opens := newIterator_eq small
    (show (Memory.among outside (dataPage type pageSize address pairs)).bytes =
      dataPage type pageSize address pairs from rfl) comparator
  let page : OpenPage pairs := openPage small
    (show (Memory.among outside (dataPage type pageSize address pairs)).bytes =
      dataPage type pageSize address pairs from rfl) comparator
  obtain ⟨group, found, begins⟩ := page.exists_beginsAt order restarts
    nonempty target
  refine ⟨page.cursor 0 0, group, opens, found, begins, ?_⟩
  intro sorted
  constructor
  · intro index before
    exact found.below_before order sorted before
  · intro index first
    exact found.firstNotBelow_within order sorted first

/-- Two groups in order, and a target behind all keys. -/
theorem seek_beginsAt_lastBelow_twoGroups :
    let pairs := List.replicate 16 ([0], []) ++ [([1], [])]
    ∃ opened group,
      newIterator
          (Memory.among (fun _ => none)
            (dataPage .dataPage defaultPageSize 0 pairs))
          (dataPage .dataPage defaultPageSize 0 pairs) defaultCompare =
        pure opened ∧
        LastRestartBelow defaultCompare pairs [2] group ∧
        opened.BeginsAt pairs [2] group := by
  intro pairs
  have sorted : NonDecreasing defaultCompare pairs := by
    decide +kernel
  obtain ⟨opened, group, opens, found, begins, -⟩ :=
    seek_beginsAt_lastBelow (show pairs ≠ [] by decide) totalPreorder_default
      (sorted.restarts totalPreorder_default)
      (show offsetAt pairs pairs.length < 2 ^ 28 by decide +kernel) .dataPage
      defaultPageSize 0 (fun _ => none) [2]
  exact ⟨opened, group, opens, found, begins⟩

/-- The restart keys are in order, but not the keys of the first group: the
search begins at the second group, behind the first candidate. -/
theorem seek_beginsBehindCandidate :
    let pairs := ([0], []) :: List.replicate 15 ([9], []) ++ [([1], [])]
    let page := dataPage .dataPage defaultPageSize 0 pairs
    TotalPreorder defaultCompare ∧
      RestartsNonDecreasing defaultCompare pairs ∧
      offsetAt pairs pairs.length < 2 ^ 28 ∧
      LastRestartBelow defaultCompare pairs [2] 1 ∧
      (∃ opened,
        newIterator (Memory.among (fun _ => none) page) page defaultCompare =
          pure opened ∧ opened.BeginsAt pairs [2] 1) ∧
      FirstNotBelow defaultCompare pairs [2] 1 ∧
      1 < restartPointInterval * 1 := by
  intro pairs page
  have restarts : RestartsNonDecreasing defaultCompare pairs := by
    intro later within earlier before
    have count : groupCount pairs = 2 := by decide +kernel
    obtain ⟨rfl, rfl⟩ : later = 1 ∧ earlier = 0 := by omega
    decide +kernel
  have small : offsetAt pairs pairs.length < 2 ^ 28 := by
    decide +kernel
  have last : LastRestartBelow defaultCompare pairs [2] 1 := by
    constructor
    · decide +kernel
    · intro later behind within
      have count : groupCount pairs = 2 := by decide +kernel
      omega
    · exact Or.inl (by decide +kernel)
  have first : FirstNotBelow defaultCompare pairs [2] 1 := by
    constructor
    · decide +kernel
    · decide +kernel
    · intro earlier before
      obtain rfl : earlier = 0 := by omega
      decide +kernel
  have opens := newIterator_eq small
    (show (Memory.among (fun _ => none) page).bytes = page from rfl)
    defaultCompare
  let opened : OpenPage pairs := openPage small
    (show (Memory.among (fun _ => none) page).bytes = page from rfl)
    defaultCompare
  obtain ⟨group, found, begins⟩ := opened.exists_beginsAt
    totalPreorder_default restarts (show pairs ≠ [] by decide) [2]
  rw [found.unique last] at begins
  exact ⟨totalPreorder_default, restarts, small, last,
    ⟨opened.cursor 0 0, opens, begins⟩, first, by decide⟩

end DataPageReader

end LiteLsm
