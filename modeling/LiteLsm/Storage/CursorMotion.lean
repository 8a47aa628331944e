import LiteLsm.Storage.PageParsing

/-!
# Motions of the iterator

`Place` is what an iterator over a non-empty page amounts to: the entry it
stands at and the group it believes to be in, both within bounds.  The four
motions which do not search are functions on places, and `apply_at` shows that
the iterator refines them.

`next` never changes the group.  Its test compares the new position with the
position of a restart *slot*, which lies behind all entries, and therefore
always fails.
-/

namespace LiteLsm

open Checked Layout DataPageIterator

/-- The operations which do not search. -/
inductive Move where
  | seekToFirst
  | seekToLast
  | next
  | prev
  deriving DecidableEq, Repr

def Move.apply : Move → DataPageIterator → Program DataPageIterator
  | seekToFirst, iterator => pure iterator.seekToFirst
  | seekToLast, iterator => iterator.seekToLast
  | next, iterator => iterator.next
  | prev, iterator => iterator.prev

inductive Operation where
  | move (step : Move)
  | seek (target : Bytes)
  deriving DecidableEq, Repr

def Operation.apply :
    Operation → DataPageIterator → Program DataPageIterator
  | .move step, iterator => step.apply iterator
  | .seek target, iterator => iterator.seek target

namespace DataPageIterator

/-- Apply the moves one after another. -/
def moves : List Move → DataPageIterator → Program DataPageIterator
  | [], iterator => pure iterator
  | move :: later, iterator => do
      let moved ← move.apply iterator
      moved.moves later

/-- What the user sees: nothing at an invalid position, else key and value. -/
def observe (iterator : DataPageIterator) : Program (Option Pair) :=
  if iterator.valid then do
    let key ← iterator.key
    let value ← iterator.value
    pure (some (key, value))
  else
    pure none

end DataPageIterator

/-- An entry, or the position behind the last one, and the group an iterator
believes to be in. -/
structure Place (count : Nat) where
  index : Nat
  group : Nat
  within : index ≤ count
  inside : restartPointInterval * group < count

namespace Place

variable {count : Nat}

@[ext] theorem ext {left right : Place count}
    (index : left.index = right.index) (group : left.group = right.group) :
    left = right := by
  cases left
  cases right
  simp_all

theorem positive (place : Place count) : 0 < count :=
  Nat.lt_of_le_of_lt (Nat.zero_le _) place.inside

theorem lastGroup_inside (positive : 0 < count) :
    restartPointInterval * ((count - 1) / restartPointInterval) < count := by
  have start := Nat.mul_div_le (count - 1) restartPointInterval
  omega

def seekToFirst (place : Place count) : Place count where
  index := 0
  group := 0
  within := Nat.zero_le _
  inside := place.positive

def seekToLast (place : Place count) : Place count where
  index := count - 1
  group := (count - 1) / restartPointInterval
  within := Nat.sub_le _ _
  inside := lastGroup_inside place.positive

def next (place : Place count) : Place count :=
  if below : place.index < count then
    { place with index := place.index + 1, within := below }
  else
    place

/-- The group `prev` searches: one before, if the iterator stands at the start
of the group it believes to be in. -/
def prevGroup (place : Place count) : Nat :=
  if place.index = restartPointInterval * place.group then place.group - 1
  else place.group

theorem prevGroup_inside (place : Place count) :
    restartPointInterval * place.prevGroup < count := by
  have inside := place.inside
  by_cases start : place.index = restartPointInterval * place.group
  · rw [prevGroup, if_pos start]
    exact Nat.lt_of_le_of_lt
      (Nat.mul_le_mul_left _ (Nat.sub_le _ _)) inside
  · rw [prevGroup, if_neg start]
    exact inside

/-- The first entry of a group, where a search starts to scan: the group the
iterator believes to be in stays the same. -/
def toGroup (place : Place count) {group : Nat}
    (inside : restartPointInterval * group < count) : Place count :=
  { place with
    index := restartPointInterval * group
    within := Nat.le_of_lt inside }

/-- The scan of `prev` never ends before the group it starts in. -/
def prev (place : Place count) : Place count :=
  if place.index < count then
    if place.index = 0 then
      { index := count
        group := (count - 1) / restartPointInterval
        within := Nat.le_refl _
        inside := lastGroup_inside place.positive }
    else
      { index :=
          max (restartPointInterval * place.prevGroup) (place.index - 1)
        group := place.prevGroup
        within := Nat.max_le.mpr ⟨Nat.le_of_lt place.prevGroup_inside,
          Nat.le_trans (Nat.sub_le _ _) place.within⟩
        inside := place.prevGroup_inside }
  else
    place

end Place

namespace Place

variable {count : Nat} {place : Place count}

theorem next_of_lt (below : place.index < count) :
    place.next = { place with index := place.index + 1, within := below } :=
  dif_pos below

theorem next_of_eq (behind : place.index = count) : place.next = place :=
  dif_neg (Nat.not_lt.mpr (Nat.le_of_eq behind.symm))

theorem prev_of_eq (behind : place.index = count) : place.prev = place :=
  if_neg (Nat.not_lt.mpr (Nat.le_of_eq behind.symm))

private theorem lt_of_zero (first : place.index = 0) :
    place.index < count := by
  rw [first]
  exact place.positive

theorem prev_index_of_zero (first : place.index = 0) :
    place.prev.index = count := by
  rw [prev, if_pos (lt_of_zero first), if_pos first]

theorem prev_group_of_zero (first : place.index = 0) :
    place.prev.group = (count - 1) / restartPointInterval := by
  rw [prev, if_pos (lt_of_zero first), if_pos first]

theorem prev_index_of_ne_zero (below : place.index < count)
    (later : place.index ≠ 0) :
    place.prev.index =
      max (restartPointInterval * place.prevGroup) (place.index - 1) := by
  rw [prev, if_pos below, if_neg later]

theorem prev_group_of_ne_zero (below : place.index < count)
    (later : place.index ≠ 0) : place.prev.group = place.prevGroup := by
  rw [prev, if_pos below, if_neg later]

end Place

def Move.onPlace {count : Nat} : Move → Place count → Place count
  | seekToFirst, place => place.seekToFirst
  | seekToLast, place => place.seekToLast
  | next, place => place.next
  | prev, place => place.prev

namespace Place

variable {count : Nat}

def moves : List Move → Place count → Place count
  | [], place => place
  | move :: later, place => (move.onPlace place).moves later

@[simp] theorem moves_cons (move : Move) (later : List Move)
    (place : Place count) :
    place.moves (move :: later) = (move.onPlace place).moves later :=
  rfl

/-- Where a fresh iterator stands. -/
def first (positive : 0 < count) : Place count where
  index := 0
  group := 0
  within := Nat.zero_le _
  inside := positive

end Place

namespace OpenPage

variable {pairs : List Pair} (page : OpenPage pairs)

/-- The iterator at a place. -/
def standing (place : Place pairs.length) : DataPageIterator :=
  page.cursor place.index place.group

theorem nonempty_of_place (place : Place pairs.length) : pairs ≠ [] :=
  List.length_pos_iff.mp place.positive

theorem group_lt (place : Place pairs.length) :
    place.group < groupCount pairs :=
  (lt_groupCount_iff pairs).mpr place.inside

theorem valid_standing (place : Place pairs.length) :
    (page.standing place).valid = decide (place.index < pairs.length) :=
  page.valid_cursor place.index place.group

theorem groupCount_sub_one (nonempty : pairs ≠ []) :
    groupCount pairs - 1 = (pairs.length - 1) / restartPointInterval := by
  have positive := List.length_pos_iff.mpr nonempty
  simp only [groupCount, restartPointInterval]
  omega

theorem toInt_of_lt {number : UInt32} (small : number.toNat < 2 ^ 31) :
    toInt number = number.toNat := by
  unfold toInt
  exact Int.bmod_eq_of_le (by omega) (by omega)

theorem toInt_last (page : OpenPage pairs) (nonempty : pairs ≠ []) :
    toInt (UInt32.ofNat (groupCount pairs) - 1) =
      ((pairs.length - 1) / restartPointInterval : Nat) := by
  have positive := groupCount_pos pairs nonempty
  have small := page.groupCount_lt
  have count : (UInt32.ofNat (groupCount pairs) - 1).toNat =
      groupCount pairs - 1 := by
    rw [UInt32.toNat_sub, UInt32.toNat_ofNat', UInt32.toNat_one]
    omega
  rw [toInt_of_lt (by omega), count, groupCount_sub_one nonempty]

theorem seekToFirst_standing (place : Place pairs.length) :
    (page.standing place).seekToFirst =
      page.standing place.seekToFirst :=
  rfl

theorem advance_cursor (page : OpenPage pairs) {index : Nat}
    (below : index < pairs.length) :
    (offsetAt pairs index + (entryAt pairs index).length) % 2 ^ 64 =
      offsetAt pairs (index + 1) := by
  have bound : offsetAt pairs (index + 1) < 2 ^ 28 := page.offsetAt_lt below
  rw [← offsetAt_succ, Nat.mod_eq_of_lt]
  exact Nat.lt_trans bound (by decide)

theorem next_standing (place : Place pairs.length) :
    (page.standing place).next = pure (page.standing place.next) := by
  have valid := page.valid_standing place
  by_cases below : place.index < pairs.length
  · have size := page.getEntrySize_cursor (nonempty_of_place place)
      place.within place.index place.group
    have slot := page.getRestartPointOffset_cursor
      (Nat.succ_le_of_lt (group_lt place)) place.index place.group
    have advanced := page.advance_cursor below
    have fits : offsetAt pairs (place.index + 1) ≤
        offsetAt pairs pairs.length := offsetAt_le below
    -- a restart slot is never the position of an entry
    have differs : offsetAt pairs (place.index + 1) ≠
        (page.standing place).getRestartPointOffset (place.group + 1) := by
      intro same
      rw [standing, ← Int.natCast_succ, slot] at same
      omega
    rw [decide_eq_true below] at valid
    rw [DataPageIterator.next, if_pos valid, Place.next_of_lt below]
    simp only [standing, cursor] at size advanced differs ⊢
    simp only [size, pure_bind, advanced, if_neg differs]
  · rw [decide_eq_false below] at valid
    have landed : place.next = place := dif_neg below
    rw [DataPageIterator.next, if_neg (by simp [valid]), landed]

/-- The scan goes on until the next entry is not before the bound; it stays
where it starts if that already holds there. -/
theorem scanBelow_cursor {start bound : Nat} (below : start < pairs.length)
    (within : bound ≤ pairs.length) (place group : Nat) :
    (page.cursor place group).scanBelow (offsetAt pairs bound)
        (offsetAt pairs start) =
      pure (offsetAt pairs (max start (bound - 1))) := by
  have nonempty : pairs ≠ [] :=
    List.ne_nil_of_length_pos (Nat.zero_lt_of_lt below)
  have last : start + (bound - 1 - start) = max start (bound - 1) := by
    omega
  have size (index : Nat) (inside : index < pairs.length) :=
    page.getEntrySize_cursor nonempty (Nat.le_of_lt inside) place group
  have entries := three_mul_le_offsetAt pairs pairs.length
  rw [← last]
  unfold scanBelow
  apply whileLoop_follows (fun step => offsetAt pairs (start + step))
  · simp only [cursor]
    omega
  · intro step taken
    rw [size _ (by omega), pure_bind, page.advance_cursor (by omega),
      decide_eq_true ((offsetAt_lt_offsetAt pairs).mpr (by omega))]
  · intro step taken
    rw [size _ (by omega), pure_bind, page.advance_cursor (by omega),
      Nat.add_assoc]
  · rw [size _ (by omega), pure_bind, page.advance_cursor (by omega),
      decide_eq_false (by rw [offsetAt_lt_offsetAt]; omega)]

theorem seekToLast_standing (place : Place pairs.length) :
    (page.standing place).seekToLast =
      pure (page.standing place.seekToLast) := by
  have nonempty := nonempty_of_place place
  have inside := (lt_groupCount_iff pairs).mpr
    (Place.lastGroup_inside place.positive)
  have last := page.toInt_last nonempty
  have slot := page.decodeFixed32LeAt_slot inside place.index place.group
  have exact := page.toNat_restartOffset inside
  have scan := page.scanBelow_cursor
    (Place.lastGroup_inside place.positive) (Nat.le_refl pairs.length)
    place.index place.group
  have landed : max (restartPointInterval *
      ((pairs.length - 1) / restartPointInterval)) (pairs.length - 1) =
        pairs.length - 1 :=
    max_eq_right (Nat.mul_div_le _ _)
  rw [landed] at scan
  simp only [standing, cursor] at slot scan ⊢
  simp only [seekToLast, last, slot, pure_bind, exact, scan]
  rfl

private theorem prev_first {place : Place pairs.length}
    (below : place.index < pairs.length) (first : place.index = 0) :
    (page.standing place).prev = pure (page.standing place.prev) := by
  have nonempty := nonempty_of_place place
  have valid := page.valid_standing place
  rw [decide_eq_true below] at valid
  have start : (page.standing place).cur = 0 := by
    simp [standing, cursor, first]
  rw [DataPageIterator.prev, if_pos valid, if_pos start, Place.prev,
    if_pos below, if_pos first]
  simp only [standing, cursor, page.toInt_last nonempty]

private theorem prev_later {place : Place pairs.length}
    (below : place.index < pairs.length) (later : place.index ≠ 0) :
    (page.standing place).prev = pure (page.standing place.prev) := by
  have valid := page.valid_standing place
  rw [decide_eq_true below] at valid
  have position : (page.standing place).cur = offsetAt pairs place.index :=
    rfl
  have belief : (page.standing place).curRestartPoint = place.group := rfl
  have start : ¬(page.standing place).cur = 0 := by
    rw [position, offsetAt_eq_zero]
    exact later
  have entry : (page.standing place).getRestartPointEntry place.group =
      pure (offsetAt pairs (restartPointInterval * place.group)) :=
    page.getRestartPointEntry_cursor (group_lt place) _ _
  have searched : place.prevGroup < groupCount pairs :=
    (lt_groupCount_iff pairs).mpr place.prevGroup_inside
  have searchedEntry :
      (page.standing place).getRestartPointEntry place.prevGroup =
        pure (offsetAt pairs (restartPointInterval * place.prevGroup)) :=
    page.getRestartPointEntry_cursor searched _ _
  have scan : (page.standing place).scanBelow (page.standing place).cur
      (offsetAt pairs (restartPointInterval * place.prevGroup)) =
        pure (offsetAt pairs (max (restartPointInterval * place.prevGroup)
          (place.index - 1))) :=
    page.scanBelow_cursor place.prevGroup_inside place.within _ _
  -- both tests for the start of a group agree
  have group : (if (page.standing place).cur =
      offsetAt pairs (restartPointInterval * place.group) then
        (place.group : Int) - 1 else place.group) = place.prevGroup := by
    by_cases starts : place.index = restartPointInterval * place.group
    · have positive : place.group ≠ 0 := by
        intro zero
        rw [zero, Nat.mul_zero] at starts
        exact later starts
      rw [Place.prevGroup, if_pos starts,
        if_pos (position.trans (congrArg (offsetAt pairs) starts))]
      omega
    · rw [Place.prevGroup, if_neg starts,
        if_neg (by rw [position, offsetAt_inj]; exact starts)]
  rw [DataPageIterator.prev, if_pos valid, if_neg start, Place.prev,
    if_pos below, if_neg later]
  simp only [belief, entry, pure_bind, group, searchedEntry, scan]
  rfl

theorem prev_standing (place : Place pairs.length) :
    (page.standing place).prev = pure (page.standing place.prev) := by
  by_cases below : place.index < pairs.length
  · by_cases first : place.index = 0
    · exact page.prev_first below first
    · exact page.prev_later below first
  · have valid := page.valid_standing place
    rw [decide_eq_false below] at valid
    rw [DataPageIterator.prev, if_neg (by simp [valid]), Place.prev,
      if_neg below]

/-- The iterator moves exactly as its place does. -/
theorem apply_standing (move : Move) (place : Place pairs.length) :
    move.apply (page.standing place) =
      pure (page.standing (move.onPlace place)) := by
  cases move with
  | seekToFirst => exact congrArg pure (page.seekToFirst_standing place)
  | seekToLast => exact page.seekToLast_standing place
  | next => exact page.next_standing place
  | prev => exact page.prev_standing place

theorem moves_standing (moves : List Move) (place : Place pairs.length) :
    (page.standing place).moves moves =
      pure (page.standing (place.moves moves)) := by
  induction moves generalizing place with
  | nil => rfl
  | cons move moves induction =>
      simp only [DataPageIterator.moves, page.apply_standing, pure_bind,
        induction, Place.moves_cons]

theorem observe_standing {place : Place pairs.length} {key : Bytes}
    (below : place.index < pairs.length)
    (shown : (page.standing place).key = pure key) :
    (page.standing place).observe =
      pure (some (key, valueAt pairs place.index)) := by
  have valid := page.valid_standing place
  have stored : (page.standing place).value =
      pure (valueAt pairs place.index) :=
    page.value_cursor (nonempty_of_place place) place.within place.group
  rw [decide_eq_true below] at valid
  simp only [observe, if_pos valid, shown, stored, pure_bind]

theorem observe_standing_end {place : Place pairs.length}
    (behind : place.index = pairs.length) :
    (page.standing place).observe = pure none := by
  have valid := page.valid_standing place
  rw [decide_eq_false (Nat.not_lt.mpr (Nat.le_of_eq behind.symm))] at valid
  rw [observe, if_neg (by simp [valid])]

end OpenPage

theorem newIterator_moves {pairs : List Pair} (nonempty : pairs ≠ [])
    (small : offsetAt pairs pairs.length < 2 ^ 28) {memory : Memory}
    {type : PageType} {pageSize address : Nat}
    (loaded : memory.bytes =
      DataPageBuilder.dataPage type pageSize address pairs)
    (comparator : Compare) (moves : List Move) :
    (do
      let fresh ← DataPageReader.newIterator memory
        (DataPageBuilder.dataPage type pageSize address pairs) comparator
      fresh.moves moves) =
      pure ((openPage small loaded comparator).standing
        ((Place.first (List.length_pos_iff.mpr nonempty)).moves moves)) := by
  rw [newIterator_eq small loaded comparator, pure_bind]
  exact (openPage small loaded comparator).moves_standing moves
    (Place.first (List.length_pos_iff.mpr nonempty))

end LiteLsm
