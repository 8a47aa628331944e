import LiteLsm.Storage.CursorMotion

/-!
# Round trips through a data page

Three results about pages of arbitrary pairs.  Moves without `seek` keep an
iterator in step with a cursor over the list.  Going backward, the iterator
also tracks its group, so every pair comes back.  Going forward it stays in
the first group, and pairs come back exactly if the first key's bytes can
stand in for all bytes left out of later entries.
-/

namespace LiteLsm

open Checked Layout DataPageIterator DataPageBuilder

namespace DataPageReader

/-- Move a fresh iterator and look at where it ends up. -/
def observeAfter (memory : Memory) (page : Bytes) (comparator : Compare)
    (moves : List Move) : Program (Option Pair) := do
  let iterator ← newIterator memory page comparator
  let moved ← iterator.moves moves
  moved.observe

theorem observeAfter_eq {pairs : List Pair} (nonempty : pairs ≠ [])
    (small : offsetAt pairs pairs.length < 2 ^ 28) {memory : Memory}
    {type : PageType} {pageSize address : Nat}
    (loaded : memory.bytes =
      dataPage type pageSize address pairs)
    (comparator : Compare) (moves : List Move) :
    observeAfter memory
        (dataPage type pageSize address pairs) comparator
        moves =
      ((openPage small loaded comparator).standing
        ((Place.first (List.length_pos_iff.mpr nonempty)).moves
          moves)).observe := by
  have moved := newIterator_moves nonempty small loaded comparator moves
  rw [observeAfter, ← bind_assoc, moved, pure_bind]

end DataPageReader

/-- A cursor over a list of the given length; `none` is an invalid one. -/
def Move.reference (count : Nat) : Move → Option Nat → Option Nat
  | seekToFirst, _ => some 0
  | seekToLast, _ => some (count - 1)
  | next, some index => if index + 1 < count then some (index + 1) else none
  | prev, some (index + 1) => some index
  | prev, some 0 => none
  | next, none => none
  | prev, none => none

/-- The reference cursor starts at the first position. -/
def Move.referenceAfter (count : Nat) (moves : List Move) : Option Nat :=
  moves.foldl (fun position move => move.reference count position) (some 0)

namespace Place

variable {count : Nat}

/-- The iterator does not believe to be in a later group than it is. -/
def Ordered (place : Place count) : Prop :=
  restartPointInterval * place.group ≤ place.index

/-- The reference cursor at the same position. -/
def position (place : Place count) : Option Nat :=
  if place.index < count then some place.index else none

theorem ordered_onPlace {place : Place count} (ordered : place.Ordered)
    (move : Move) : (move.onPlace place).Ordered := by
  have within := place.within
  have last := Nat.mul_div_le (count - 1) restartPointInterval
  unfold Ordered at ordered ⊢
  cases move with
  | seekToFirst => exact Nat.le_refl _
  | seekToLast => exact last
  | next =>
      simp only [Move.onPlace, next]
      split
      · exact Nat.le_succ_of_le ordered
      · exact ordered
  | prev =>
      simp only [Move.onPlace, prev]
      split
      · split
        · exact Nat.le_trans last (Nat.sub_le _ _)
        · exact Nat.le_max_left _ _
      · exact ordered

/-- In a place that is ordered, `prev` goes back by exactly one entry. -/
theorem prev_index {place : Place count} (ordered : place.Ordered)
    (below : place.index < count) (later : place.index ≠ 0) :
    place.prev.index = place.index - 1 := by
  have start : restartPointInterval * place.prevGroup ≤ place.index - 1 := by
    unfold Ordered at ordered
    simp only [restartPointInterval] at ordered ⊢
    by_cases starts : place.index = restartPointInterval * place.group
    · rw [prevGroup, if_pos starts]
      simp only [restartPointInterval] at starts
      omega
    · rw [prevGroup, if_neg starts]
      simp only [restartPointInterval] at starts
      omega
  rw [prev_index_of_ne_zero below later]
  exact max_eq_right start

theorem position_of_lt {place : Place count} (below : place.index < count) :
    place.position = some place.index :=
  if_pos below

theorem position_of_eq {place : Place count} (behind : place.index = count) :
    place.position = none :=
  if_neg (Nat.not_lt.mpr (Nat.le_of_eq behind.symm))

theorem position_next (place : Place count) :
    place.next.position = Move.next.reference count place.position := by
  rcases Nat.lt_or_eq_of_le place.within with below | behind
  · rw [position_of_lt below, next_of_lt below]
    rfl
  · rw [next_of_eq behind, position_of_eq behind]
    rfl

theorem position_prev {place : Place count} (ordered : place.Ordered) :
    place.prev.position = Move.prev.reference count place.position := by
  rcases Nat.lt_or_eq_of_le place.within with below | behind
  · rw [position_of_lt below]
    cases entry : place.index with
    | zero => exact position_of_eq (prev_index_of_zero entry)
    | succ index =>
        have landed := prev_index ordered below (by omega)
        rw [entry, Nat.add_sub_cancel] at landed
        rw [position_of_lt (by omega), landed]
        rfl
  · rw [prev_of_eq behind, position_of_eq behind]
    rfl

theorem position_onPlace {place : Place count} (ordered : place.Ordered)
    (move : Move) :
    (move.onPlace place).position = move.reference count place.position := by
  cases move with
  | seekToFirst => exact position_of_lt place.positive
  | seekToLast => exact position_of_lt (Nat.sub_one_lt_of_lt place.positive)
  | next => exact position_next place
  | prev => exact position_prev ordered

/-- Over a whole run the iterator's place follows the reference cursor. -/
theorem position_moves {place : Place count} (ordered : place.Ordered)
    (moves : List Move) :
    (place.moves moves).position =
      moves.foldl (fun position move => move.reference count position)
        place.position := by
  induction moves generalizing place with
  | nil => rfl
  | cons move moves induction =>
      rw [moves_cons, List.foldl_cons, ← position_onPlace ordered move]
      exact induction (ordered_onPlace ordered move)

end Place

section

variable {pairs : List Pair}

theorem getElem?_eq_pairAt {index : Nat} (below : index < pairs.length) :
    pairs[index]? = some (keyAt pairs index, valueAt pairs index) := by
  simp [keyAt, valueAt, List.getElem?_eq_getElem below]

end

/-- On a page built from any non-empty list, every run of moves keeps the
iterator in step with the reference cursor. -/
theorem DataPageReader.moves_simulate_reference (pairs : List Pair)
    (nonempty : pairs ≠ []) (small : offsetAt pairs pairs.length < 2 ^ 28)
    (type : PageType) (pageSize address : Nat) (memory : Memory)
    (loaded : memory.bytes =
      dataPage type pageSize address pairs)
    (comparator : Compare) (moves : List Move) :
    ∃ iterator : DataPageIterator,
      (do
        let fresh ← newIterator memory
          (dataPage type pageSize address pairs) comparator
        fresh.moves moves) = pure iterator ∧
      iterator.valid = (Move.referenceAfter pairs.length moves).isSome ∧
      ∀ index, Move.referenceAfter pairs.length moves = some index →
        ∃ pair, pairs[index]? = some pair ∧
          iterator.value = pure pair.2 := by
  have positive := List.length_pos_iff.mpr nonempty
  have ordered : (Place.first positive).Ordered := Nat.le_refl _
  have start : (Place.first positive).position = some 0 := if_pos positive
  have follows := Place.position_moves ordered moves
  rw [start, ← Move.referenceAfter] at follows
  have moved := newIterator_moves nonempty small loaded comparator moves
  generalize (Place.first positive).moves moves = place at follows moved
  refine ⟨_, moved, ?_, ?_⟩
  · rw [OpenPage.valid_standing, ← follows, Place.position]
    split
    · rename_i below
      exact decide_eq_true below
    · rename_i behind
      exact decide_eq_false behind
  · intro index reached
    rcases Nat.lt_or_eq_of_le place.within with below | behind
    · rw [← follows, Place.position_of_lt below] at reached
      have same : place.index = index := Option.some.inj reached
      subst same
      exact ⟨_, getElem?_eq_pairAt below,
        OpenPage.value_cursor _ nonempty place.within place.group⟩
    · rw [← follows, Place.position_of_eq behind] at reached
      cases reached

/-- The pairs of a small page whose keys share their first byte. -/
def samplePairs : List Pair :=
  [([1, 2], [3]), ([1, 4], []), ([1], [5, 6])]

theorem DataPageReader.moves_simulate_reference_sample :
    ∃ iterator : DataPageIterator,
      (do
        let fresh ← newIterator
          (Memory.enclosed
            (dataPage .dataPage defaultPageSize 0 samplePairs))
          (dataPage .dataPage defaultPageSize 0 samplePairs)
          (fun _ _ => 0)
        fresh.moves [.next, .next, .prev]) = pure iterator ∧
      iterator.valid = (Move.referenceAfter 3 [.next, .next, .prev]).isSome ∧
      ∀ index, Move.referenceAfter 3 [.next, .next, .prev] = some index →
        ∃ pair, samplePairs[index]? = some pair ∧
          iterator.value = pure pair.2 :=
  moves_simulate_reference samplePairs (by decide) (by decide +kernel)
    .dataPage defaultPageSize 0 _ rfl (fun _ _ => 0) [.next, .next, .prev]

namespace Place

variable {count : Nat}

/-- At an entry, in that entry's own group. -/
def own {index : Nat} (below : index < count) : Place count where
  index
  group := index / restartPointInterval
  within := Nat.le_of_lt below
  inside := Nat.lt_of_le_of_lt (Nat.mul_div_le _ _) below

/-- Going back from an entry in its own group leads to the entry before in
that one's own group: the group changes exactly at a group's first entry. -/
theorem prev_own_succ {index : Nat} (below : index + 1 < count) :
    (own below).prev = own (Nat.lt_of_succ_lt below) := by
  have ordered : (own below).Ordered := Nat.mul_div_le _ _
  have landed := prev_index ordered below (Nat.succ_ne_zero index)
  have group : (own below).prev.group = index / restartPointInterval := by
    rw [prev_group_of_ne_zero below (Nat.succ_ne_zero index)]
    by_cases starts : index + 1 = restartPointInterval *
        ((index + 1) / restartPointInterval)
    · refine (if_pos starts).trans ?_
      simp only [own, restartPointInterval] at starts ⊢
      omega
    · refine (if_neg starts).trans ?_
      simp only [own, restartPointInterval] at starts ⊢
      omega
  exact Place.ext landed group

theorem moves_replicate_prev {index : Nat} (below : index < count)
    (steps : Nat) (enough : steps ≤ index) :
    (own below).moves (List.replicate steps .prev) =
      own (Nat.lt_of_le_of_lt (Nat.sub_le index steps) below) := by
  induction steps generalizing index with
  | zero => rfl
  | succ steps induction =>
      obtain ⟨before, rfl⟩ := Nat.exists_eq_succ_of_ne_zero
        (Nat.ne_of_gt (Nat.lt_of_lt_of_le (Nat.succ_pos steps) enough))
      have shorter := induction (Nat.lt_of_succ_lt below)
        (Nat.le_of_succ_le_succ enough)
      rw [List.replicate_succ, moves_cons, Move.onPlace, prev_own_succ below,
        shorter]
      apply Place.ext
      · simp [own]
      · simp [own]

theorem moves_prev_exhausted {place : Place count}
    (behind : place.index = count) (steps : Nat) :
    place.moves (List.replicate steps .prev) = place := by
  induction steps with
  | zero => rfl
  | succ steps induction =>
      rw [List.replicate_succ, moves_cons, Move.onPlace, prev_of_eq behind]
      exact induction

theorem moves_replicate_prev_beyond {index : Nat} (below : index < count)
    (steps : Nat) (beyond : index < steps) :
    ((own below).moves (List.replicate steps .prev)).index = count := by
  induction steps generalizing index with
  | zero => exact absurd beyond (Nat.not_lt_zero index)
  | succ steps induction =>
      rw [List.replicate_succ, moves_cons, Move.onPlace]
      cases index with
      | zero =>
          have behind : (own below).prev.index = count :=
            prev_index_of_zero rfl
          rw [moves_prev_exhausted behind]
          exact behind
      | succ index =>
          rw [prev_own_succ below]
          exact induction (Nat.lt_of_succ_lt below)
            (Nat.lt_of_succ_lt_succ beyond)

end Place

theorem OpenPage.observe_own {pairs : List Pair} (page : OpenPage pairs)
    {index : Nat} (below : index < pairs.length) :
    (page.standing (Place.own below)).observe = pure pairs[index]? := by
  have shown : (page.standing (Place.own below)).key =
      pure (keyAt pairs index) := page.key_cursor_ownGroup below
  rw [page.observe_standing below shown, getElem?_eq_pairAt below]
  rfl

/-- Going backward through a page built from any non-empty list yields exactly
its pairs in reverse order, and then nothing. -/
theorem DataPageReader.backward_roundTrip (pairs : List Pair)
    (nonempty : pairs ≠ []) (small : offsetAt pairs pairs.length < 2 ^ 28)
    (type : PageType) (pageSize address : Nat) (memory : Memory)
    (loaded : memory.bytes =
      dataPage type pageSize address pairs)
    (comparator : Compare) (steps : Nat) :
    observeAfter memory
        (dataPage type pageSize address pairs) comparator
        (.seekToLast :: List.replicate steps .prev) =
      pure pairs.reverse[steps]? := by
  have last : pairs.length - 1 < pairs.length :=
    Nat.sub_one_lt_of_lt (List.length_pos_iff.mpr nonempty)
  have observed := observeAfter_eq nonempty small loaded comparator
    (.seekToLast :: List.replicate steps .prev)
  have start : Move.seekToLast.onPlace (Place.first (Nat.zero_lt_of_lt last)) =
      Place.own last := rfl
  rw [Place.moves_cons, start] at observed
  rw [observed]
  rcases Nat.lt_or_ge steps pairs.length with below | beyond
  · have reached := Place.moves_replicate_prev last steps (by omega)
    have inside : pairs.length - 1 - steps < pairs.length := by omega
    rw [reached, OpenPage.observe_own _ inside, List.getElem?_reverse below]
  · have behind := Place.moves_replicate_prev_beyond last steps (by omega)
    rw [OpenPage.observe_standing_end _ behind,
      List.getElem?_eq_none (by simpa using beyond)]

theorem DataPageReader.backward_roundTrip_sample :
    observeAfter
        (Memory.enclosed
          (dataPage .dataPage defaultPageSize 0 samplePairs))
        (dataPage .dataPage defaultPageSize 0 samplePairs)
        (fun _ _ => 0) [.seekToLast, .prev] =
      pure samplePairs.reverse[1]? :=
  backward_roundTrip samplePairs (by decide) (by decide +kernel) .dataPage
    defaultPageSize 0 _ rfl (fun _ _ => 0) 1

namespace Place

variable {count : Nat}

theorem moves_replicate_next (place : Place count) (steps : Nat) :
    (place.moves (List.replicate steps .next)).index =
        min (place.index + steps) count ∧
      (place.moves (List.replicate steps .next)).group = place.group := by
  have within := place.within
  induction steps generalizing place with
  | zero => exact ⟨(min_eq_left within).symm, rfl⟩
  | succ steps induction =>
      rw [List.replicate_succ, moves_cons, Move.onPlace]
      obtain ⟨index, group⟩ := induction place.next place.next.within
      rw [index, group]
      rcases Nat.lt_or_eq_of_le within with below | behind
      · rw [next_of_lt below]
        constructor
        · show min (place.index + 1 + steps) count = _
          rw [Nat.add_assoc, Nat.add_comm 1 steps]
        · rfl
      · rw [next_of_eq behind]
        constructor
        · rw [min_eq_right (by omega), min_eq_right (by omega)]
        · rfl

end Place

/-- Before any group was entered, an entry shows the key rebuilt from the
page's first key. -/
theorem OpenPage.observe_firstGroup {pairs : List Pair}
    (page : OpenPage pairs) (unguarded : page.memory.guarded = false)
    {place : Place pairs.length} (first : place.group = 0)
    (below : place.index < pairs.length) :
    (page.standing place).observe =
      pure (some (rebuiltKey pairs place.index,
        valueAt pairs place.index)) := by
  apply page.observe_standing below
  rw [standing, first]
  exact page.key_cursor_firstGroup unguarded (nonempty_of_place place)
    place.within

private theorem moves_next_invalid {iterator : DataPageIterator}
    (invalid : iterator.valid = false) (steps : Nat) :
    iterator.moves (List.replicate steps .next) = pure iterator := by
  induction steps with
  | zero => rfl
  | succ steps induction =>
      have stays : Move.next.apply iterator = pure iterator := by
        simp [Move.apply, next, invalid]
      rw [List.replicate_succ, DataPageIterator.moves, stays, pure_bind]
      exact induction

namespace DataPageReader

variable {pairs : List Pair} {type : PageType} {pageSize address : Nat}

theorem observe_forward (small : offsetAt pairs pairs.length < 2 ^ 28)
    (outside : Nat → Option UInt8) (comparator : Compare) (steps : Nat) :
    observeAfter
        (Memory.among outside
          (dataPage type pageSize address pairs))
        (dataPage type pageSize address pairs) comparator
        (.seekToFirst :: List.replicate steps .next) =
      pure (if steps < pairs.length then
        some (rebuiltKey pairs steps, valueAt pairs steps) else none) := by
  have loaded : (Memory.among outside
      (dataPage type pageSize address pairs)).bytes =
        dataPage type pageSize address pairs := rfl
  by_cases nonempty : pairs = []
  · have invalid : ((openPage small loaded comparator).cursor 0 0).valid =
        false := by
      rw [OpenPage.valid_cursor, nonempty]
      rfl
    have stays := moves_next_invalid invalid steps
    have first : Move.seekToFirst.apply
        ((openPage small loaded comparator).cursor 0 0) =
          pure ((openPage small loaded comparator).cursor 0 0) := rfl
    rw [observeAfter, newIterator_eq small loaded comparator, pure_bind,
      DataPageIterator.moves, first, pure_bind, stays, pure_bind, observe,
      if_neg (by simp [invalid]), if_neg (by simp [nonempty])]
  · have observed := observeAfter_eq nonempty small loaded comparator
      (.seekToFirst :: List.replicate steps .next)
    have positive := List.length_pos_iff.mpr nonempty
    have start : Move.seekToFirst.onPlace (Place.first positive) =
        Place.first positive := rfl
    obtain ⟨index, group⟩ :=
      (Place.first positive).moves_replicate_next steps
    have entered : (Place.first positive).index = 0 := rfl
    rw [entered, Nat.zero_add] at index
    rw [Place.moves_cons, start] at observed
    rw [observed]
    by_cases below : steps < pairs.length
    · rw [min_eq_left (Nat.le_of_lt below)] at index
      rw [OpenPage.observe_firstGroup _ rfl group (by rw [index]; exact below),
        index, if_pos below]
    · rw [min_eq_right (Nat.not_lt.mp below)] at index
      rw [OpenPage.observe_standing_end _ index, if_neg below]

/-- A forward run yields exactly the pairs of the list, then nothing, if and
only if the bytes left out of each entry are those that stand on the page from
its first key on. -/
theorem forward_roundTrip_iff (pairs : List Pair)
    (small : offsetAt pairs pairs.length < 2 ^ 28) (type : PageType)
    (pageSize address : Nat) (outside : Nat → Option UInt8)
    (comparator : Compare) :
    (∀ steps, observeAfter
        (Memory.among outside
          (dataPage type pageSize address pairs))
        (dataPage type pageSize address pairs) comparator
        (.seekToFirst :: List.replicate steps .next) =
      pure pairs[steps]?) ↔
    ∀ index, index < pairs.length →
      (keyAt pairs index).take (sharedLength pairs index) <+:
        firstKeyBytes pairs := by
  constructor
  · intro roundTrip index below
    have shown := roundTrip index
    rw [observe_forward small, if_pos below, getElem?_eq_pairAt below] at shown
    have same := congrArg Prod.fst (Option.some.inj (pure_injective shown))
    exact (rebuiltKey_eq_iff pairs index).mp same
  · intro restored steps
    rw [observe_forward small]
    by_cases below : steps < pairs.length
    · rw [if_pos below, getElem?_eq_pairAt below,
        (rebuiltKey_eq_iff pairs steps).mpr (restored steps below)]
    · rw [if_neg below, List.getElem?_eq_none (Nat.not_lt.mp below)]

theorem forward_roundTrip_iff_sample :
    offsetAt samplePairs samplePairs.length < 2 ^ 28 ∧
    ∀ steps, observeAfter
        (Memory.among (fun _ => none)
          (dataPage .dataPage defaultPageSize 0 samplePairs))
        (dataPage .dataPage defaultPageSize 0 samplePairs) (fun _ _ => 0)
        (.seekToFirst :: List.replicate steps .next) =
      pure samplePairs[steps]? := by
  have small : offsetAt samplePairs samplePairs.length < 2 ^ 28 := by
    decide +kernel
  constructor
  · exact small
  · exact (forward_roundTrip_iff samplePairs small .dataPage defaultPageSize 0
      (fun _ => none) (fun _ _ => 0)).mpr (by decide +kernel)

/-- Sixteen empty keys, then two pairs with the key `[1]`: the second group
shares a byte which the page's first key does not have. -/
def staleGroupPairs : List Pair :=
  List.replicate 16 ([], []) ++ [([1], [7]), ([1], [8])]

/-- The last pair comes back under the key `[0]`. -/
theorem forward_roundTrip_stale :
    offsetAt staleGroupPairs staleGroupPairs.length < 2 ^ 28 ∧
    ¬∀ steps, observeAfter
        (Memory.among (fun _ => none)
          (dataPage .dataPage defaultPageSize 0 staleGroupPairs))
        (dataPage .dataPage defaultPageSize 0 staleGroupPairs) (fun _ _ => 0)
        (.seekToFirst :: List.replicate steps .next) =
      pure staleGroupPairs[steps]? := by
  refine ⟨by decide +kernel, fun roundTrip => ?_⟩
  have expected := congrArg (outcome · fun _ => 0) (roundTrip 17)
  have shown : outcome (observeAfter
      (Memory.among (fun _ => none)
        (dataPage .dataPage defaultPageSize 0 staleGroupPairs))
      (dataPage .dataPage defaultPageSize 0 staleGroupPairs) (fun _ _ => 0)
      (.seekToFirst :: List.replicate 17 .next)) (fun _ => 0) =
        .ok (some ([0], [8])) := by
    decide +kernel
  rw [shown, outcome_pure] at expected
  exact absurd expected (by decide +kernel)

end DataPageReader

end LiteLsm
