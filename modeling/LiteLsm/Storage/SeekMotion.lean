import LiteLsm.Support.IndexSearch
import LiteLsm.Storage.CursorMotion

/-!
# The motion of `seek`

The binary search over restart keys picks the group in which the final scan
starts, or no group at all, in which case the iterator goes to the first entry
without looking at it.  The scan leaves the restart index as it was before
`seek`, so the keys it compares are rebuilt from that group's first key.
-/

namespace LiteLsm

open Checked Layout DataPageIterator

namespace OpenPage

variable {pairs : List Pair} (page : OpenPage pairs)

/-- Is the first key of the group less than the target? -/
def restartBelow (target : Bytes) (group : Nat) : Bool :=
  decide (page.comparator (keyAt pairs (restartPointInterval * group))
    target < 0)

/-- Where the binary search ends. -/
def searchPoint (target : Bytes) : Nat :=
  Bisection.point (page.restartBelow target) 32 (groupCount pairs - 1)

/-- The group whose first entry the final scan starts from. -/
def startGroup (target : Bytes) : Option Nat :=
  if page.searchPoint target = 0 then none
  else if page.searchPoint target = groupCount pairs - 1 ∧
      page.restartBelow target (page.searchPoint target) = true then
    some (page.searchPoint target)
  else
    some (page.searchPoint target - 1)

theorem groupCount_sub_one_lt (page : OpenPage pairs) :
    groupCount pairs - 1 < 2 ^ 32 := by
  have small := page.groupCount_lt
  omega

theorem brackets_searchPoint (target : Bytes) :
    Bisection.Brackets (page.restartBelow target) (groupCount pairs - 1)
      (page.searchPoint target, page.searchPoint target) :=
  Bisection.brackets_point page.groupCount_sub_one_lt

theorem startGroup_eq_some_iff {target : Bytes} {group : Nat} :
    page.startGroup target = some group ↔
      page.searchPoint target ≠ 0 ∧
        (if page.searchPoint target = groupCount pairs - 1 ∧
            page.restartBelow target (page.searchPoint target) = true then
          page.searchPoint target
        else page.searchPoint target - 1) = group := by
  rw [startGroup]
  by_cases first : page.searchPoint target = 0
  · simp [first]
  · rw [if_neg first, ← apply_ite some, Option.some.injEq]
    exact (and_iff_right first).symm

/-- A group in which a scan starts is the last one before the point where the
first keys reach the target; there are others. -/
structure StartsAt (target : Bytes) (group : Nat) : Prop where
  several : 1 < groupCount pairs
  inside : group < groupCount pairs
  below : page.restartBelow target group = true
  last : group + 1 = groupCount pairs ∨
    page.restartBelow target (group + 1) = false

theorem startsAt_of_startGroup (target : Bytes) {group : Nat}
    (found : page.startGroup target = some group) :
    page.StartsAt target group := by
  have brackets := page.brackets_searchPoint target
  have within := brackets.within
  have lower := brackets.lower
  have upper := brackets.upper
  simp only at within lower upper
  obtain ⟨first, chosen⟩ := page.startGroup_eq_some_iff.mp found
  by_cases all : page.searchPoint target = groupCount pairs - 1 ∧
      page.restartBelow target (page.searchPoint target) = true
  · rw [if_pos all] at chosen
    subst chosen
    exact ⟨by omega, by omega, all.2, Or.inl (by omega)⟩
  · rw [if_neg all] at chosen
    subst chosen
    have successor : page.searchPoint target - 1 + 1 =
        page.searchPoint target := by
      omega
    refine ⟨by omega, by omega, lower.resolve_left first, Or.inr ?_⟩
    rw [successor]
    rcases upper with atEnd | above
    · cases probe : page.restartBelow target (page.searchPoint target) with
      | false => rfl
      | true => exact absurd ⟨atEnd, probe⟩ all
    · exact above

theorem searchPoint_of_none (target : Bytes)
    (found : page.startGroup target = none) :
    page.searchPoint target = 0 := by
  unfold startGroup at found
  by_cases first : page.searchPoint target = 0
  · exact first
  · rw [if_neg first] at found
    split at found <;> cases found

theorem not_below_of_startGroup (target : Bytes)
    (found : page.startGroup target = none) :
    groupCount pairs ≤ 1 ∨ page.restartBelow target 0 = false := by
  have brackets := page.brackets_searchPoint target
  have upper := brackets.upper
  simp only at upper
  rw [page.searchPoint_of_none target found] at upper
  rcases upper with alone | above
  · exact Or.inl (by omega)
  · exact Or.inr above

theorem searchRestartPoint_standing (target : Bytes)
    (place : Place pairs.length) :
    (page.standing place).searchRestartPoint target =
      pure (page.searchPoint target : Int) := by
  have nonempty := nonempty_of_place place
  have positive := groupCount_pos pairs nonempty
  have last : toInt ((page.standing place).restartPointNum - 1) =
      (groupCount pairs - 1 : Nat) := by
    rw [groupCount_sub_one nonempty]
    exact page.toInt_last nonempty
  have probes (group : Nat) (within : group ≤ groupCount pairs - 1) :
      (page.standing place).restartPointBelow target group =
        pure (page.restartBelow target group) :=
    page.restartPointBelow_cursor target (by omega) _ _
  have found := Bisection.whileLoop_eq_point probes
    page.groupCount_sub_one_lt
  rw [searchRestartPoint, last, found]
  simp only [pure_bind, if_true]
  rfl

theorem startRestartPoint_standing (target : Bytes)
    (place : Place pairs.length) {group : Nat}
    (found : page.startGroup target = some group) :
    (page.standing place).startRestartPoint target
        (page.searchPoint target) = pure (group : Int) := by
  have positive := groupCount_pos pairs (nonempty_of_place place)
  have small := page.groupCount_lt
  have within := (page.brackets_searchPoint target).within
  simp only at within
  have last : ((page.standing place).restartPointNum - 1).toNat =
      groupCount pairs - 1 := by
    have count : (page.standing place).restartPointNum =
        UInt32.ofNat (groupCount pairs) := rfl
    rw [count, UInt32.toNat_sub, UInt32.toNat_ofNat', UInt32.toNat_one]
    omega
  have probe : (page.standing place).restartPointBelow target
      (page.searchPoint target) =
        pure (page.restartBelow target (page.searchPoint target)) :=
    page.restartPointBelow_cursor target (by omega) _ _
  obtain ⟨first, chosen⟩ := page.startGroup_eq_some_iff.mp found
  have before : (page.searchPoint target : Int) - 1 =
      (page.searchPoint target - 1 : Nat) := by
    omega
  rw [startRestartPoint, last, probe]
  simp only [pure_bind]
  by_cases atEnd : page.searchPoint target = groupCount pairs - 1
  · rw [if_pos (Int.ofNat_inj.mpr atEnd)]
    cases below : page.restartBelow target (page.searchPoint target) with
    | true =>
        rw [if_pos ⟨atEnd, below⟩] at chosen
        rw [if_pos rfl, chosen]
    | false =>
        rw [if_neg (by simp [below])] at chosen
        rw [if_neg (by simp), before, chosen]
  · rw [if_neg (fun both => atEnd both.1)] at chosen
    rw [if_neg (by omega), before, chosen]

/-- An iterator over the page in any state. -/
def anywhere (cur : Nat) (curRestartPoint : Int) : DataPageIterator :=
  { page.cursor 0 0 with cur, curRestartPoint }

/-- Where a search begins does not depend on the state it begins in. -/
theorem seek_anywhere (nonempty : pairs ≠ []) (target : Bytes) (cur : Nat)
    (curRestartPoint : Int) :
    (page.anywhere cur curRestartPoint).seek target =
      match page.startGroup target with
      | none => pure (page.anywhere cur curRestartPoint).seekToFirst
      | some group =>
          (page.anywhere (offsetAt pairs (restartPointInterval * group))
            curRestartPoint).scanToTarget target := by
  let place := Place.first (List.length_pos_iff.mpr nonempty)
  have positive := groupCount_pos pairs nonempty
  have small := page.groupCount_lt
  have some_restart :
      (page.anywhere cur curRestartPoint).restartPointNum ≠ 0 := by
    intro zero
    have count := congrArg UInt32.toNat zero
    rw [anywhere, cursor, UInt32.toNat_ofNat', UInt32.toNat_zero] at count
    omega
  have search : (page.anywhere cur curRestartPoint).searchRestartPoint
      target = pure (page.searchPoint target : Int) :=
    page.searchRestartPoint_standing target place
  rw [seek, if_neg some_restart, search, pure_bind]
  cases found : page.startGroup target with
  | none =>
      have first : page.searchPoint target = 0 :=
        page.searchPoint_of_none target found
      rw [if_pos (by rw [first]; rfl)]
  | some group =>
      have first : ¬(page.searchPoint target : Int) = 0 := by
        intro zero
        have none_found : page.startGroup target = none :=
          if_pos (Int.ofNat_eq_zero.mp zero)
        rw [none_found] at found
        cases found
      have start : (page.anywhere cur curRestartPoint).startRestartPoint
          target (page.searchPoint target) = pure (group : Int) :=
        page.startRestartPoint_standing target place found
      have inside := (page.startsAt_of_startGroup target found).inside
      have slot : decodeFixed32LeAt
          (page.anywhere cur curRestartPoint).memory
          ((page.anywhere cur curRestartPoint).getRestartPointOffset
            group) = _ :=
        page.decodeFixed32LeAt_slot inside 0 0
      have exact := page.toNat_restartOffset inside
      rw [if_neg first, start, pure_bind, slot, pure_bind, exact]
      rfl

theorem seek_standing (target : Bytes) (place : Place pairs.length) :
    (page.standing place).seek target =
      match page.startGroup target with
      | none => pure (page.standing place.seekToFirst)
      | some group =>
          (page.cursor (restartPointInterval * group)
            place.group).scanToTarget target :=
  page.seek_anywhere (nonempty_of_place place) target _ _

theorem seek_of_startGroup {target : Bytes} (place : Place pairs.length)
    {group : Nat} (found : page.startGroup target = some group) :
    ∃ inside : restartPointInterval * group < pairs.length,
      (page.standing place).seek target =
        (page.standing (place.toGroup inside)).scanToTarget target := by
  have counted := (page.startsAt_of_startGroup target found).inside
  refine ⟨(lt_groupCount_iff pairs).mp counted, ?_⟩
  rw [page.seek_standing, found]
  rfl

section Scan

variable (target : Bytes) (shown : Nat → Bytes)

/-- Is the key shown at an entry less than the target? -/
def shownBelow (index : Nat) : Bool :=
  decide (page.comparator (shown index) target < 0)

/-- Where the scan ends if the entries show the given keys. -/
def scanStop (start : Nat) : Nat :=
  LinearScan.stop (page.shownBelow target shown) pairs.length
    (offsetAt pairs pairs.length / 3 + 1) start

theorem stops_scanStop (page : OpenPage pairs) {start : Nat}
    (inside : start ≤ pairs.length) :
    LinearScan.Stops (page.shownBelow target shown) pairs.length start
      (page.scanStop target shown start) := by
  have entries := three_mul_le_offsetAt pairs pairs.length
  exact LinearScan.stops_stop inside (by omega)

/-- The place where the scan from a place ends. -/
def landing (place : Place pairs.length) : Place pairs.length :=
  { place with
    index := page.scanStop target shown place.index
    within := (page.stops_scanStop target shown place.within).within }

theorem next_cursor (page : OpenPage pairs) {index group : Nat}
    (below : index < pairs.length)
    (inside : restartPointInterval * group < pairs.length) :
    (page.cursor index group).next = pure (page.cursor (index + 1) group) := by
  have moved := page.next_standing
    { index, group, within := Nat.le_of_lt below, inside }
  rw [Place.next_of_lt below] at moved
  exact moved

theorem scanToTarget_standing {target : Bytes} {shown : Nat → Bytes}
    {place : Place pairs.length}
    (shows : ∀ index, LinearScan.Reaches (page.shownBelow target shown)
      pairs.length place.index index →
        (page.cursor index place.group).key = pure (shown index)) :
    (page.standing place).scanToTarget target =
      pure (page.standing (page.landing target shown place)) := by
  let embed : Nat → DataPageIterator × Bytes := fun index =>
    (page.cursor index place.group, shown index)
  have entries := three_mul_le_offsetAt pairs pairs.length
  have start : (page.standing place).key = pure (shown place.index) :=
    shows place.index (LinearScan.reaches_start place.within)
  have valid (index : Nat) := page.valid_cursor index place.group
  rw [scanToTarget, start, pure_bind]
  refine (congrArg (fun loop => loop >>= fun final => pure final.1)
    (whileLoop_refines embed
      (LinearScan.Reaches (page.shownBelow target shown) pairs.length
        place.index)
      (fun index => pairs.length - index) ?_ ?_
      (fun index => LinearScan.reaches_step)
      (fun index => LinearScan.remaining_step)
      (LinearScan.reaches_start place.within) ?_)).trans ?_
  · intro index reaches
    simp only [embed, valid]
    rfl
  · intro index reaches going
    have below : index < pairs.length := by
      simp only [LinearScan.continues, Bool.and_eq_true,
        decide_eq_true_eq] at going
      exact going.1
    simp only [embed, page.next_cursor below place.inside, pure_bind,
      shows _ (LinearScan.reaches_step reaches going)]
  · show pairs.length - place.index ≤ offsetAt pairs pairs.length / 3 + 1
    omega
  · rfl

theorem scanToTarget_faults {target : Bytes} {shown : Nat → Bytes}
    {place : Place pairs.length} {last : Nat} {reason : Fault}
    (reaches : LinearScan.Reaches (page.shownBelow target shown) pairs.length
      place.index last)
    (shows : ∀ index, place.index ≤ index → index < last →
      (page.cursor index place.group).key = pure (shown index))
    (faults : (page.cursor last place.group).key = fault reason) :
    (page.standing place).scanToTarget target = fault reason := by
  obtain ⟨distance, rfl⟩ := Nat.exists_eq_add_of_le reaches.forward
  cases distance with
  | zero =>
      have start : (page.standing place).key = fault reason := faults
      rw [scanToTarget, start, fault_bind]
  | succ distance =>
      have within := reaches.within
      have entries := three_mul_le_offsetAt pairs pairs.length
      have start : (page.standing place).key = pure (shown place.index) :=
        shows place.index (Nat.le_refl _) (by omega)
      have valid (index : Nat) := page.valid_cursor index place.group
      let path : Nat → DataPageIterator × Bytes := fun step =>
        (page.cursor (place.index + step) place.group,
          shown (place.index + step))
      rw [scanToTarget, start, pure_bind]
      refine (congrArg (fun loop => loop >>= fun final => pure final.1)
        (whileLoop_faults path distance ?_ ?_ ?_ ?_)).trans
          (fault_bind reason _)
      · show distance < offsetAt pairs pairs.length / 3 + 1
        omega
      · intro step taken
        have below := reaches.passed (place.index + step) (by omega) (by omega)
        have inside : place.index + step < pairs.length := by omega
        simp only [path, valid, decide_eq_true inside, Bool.true_and]
        exact congrArg pure below
      · intro step taken
        have inside : place.index + step < pairs.length := by omega
        have shownNext := shows (place.index + step + 1) (by omega) (by omega)
        simp only [path, page.next_cursor inside place.inside, pure_bind,
          shownNext]
        rfl
      · have inside : place.index + distance < pairs.length := by omega
        rw [← Nat.add_assoc] at faults
        simp only [path, page.next_cursor inside place.inside, pure_bind,
          faults, fault_bind]

end Scan

end OpenPage

end LiteLsm
