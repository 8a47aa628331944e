import LiteLsm.Storage.SeekLowerBound
import LiteLsm.Support.Lockstep

/-!
# The iterator as a sorted cursor

What an iterator over a sorted page is for: a cursor over the list of pairs
that also finds the first pair not less than a target.  The keys of a page
read the same from every group if each group's first key begins with the bytes
left out of any entry.  On such pages the iterator is that cursor throughout a
run exactly if every `prev` is called in a group that does not begin behind the
cursor, and every `seek` on a page with several groups or with a target that
the first pair already reaches.
-/

namespace LiteLsm

open Checked Layout DataPageIterator DataPageBuilder

/-- A position in a sorted list; `none` is behind its end. -/
def Operation.reference (comparator : Compare) (pairs : List Pair) :
    Operation → Option Nat → Option Nat
  | .move step, position => step.reference pairs.length position
  | .seek target, _ => pairs.findIdx? (notBelow comparator target)

/-- The iterator stands at the entry and shows its pair. -/
structure StandsAt (pairs : List Pair) (iterator : DataPageIterator)
    (position : Option Nat) : Prop where
  cur : iterator.cur = offsetAt pairs (position.getD pairs.length)
  observe : iterator.observe = pure (position.bind (pairs[·]?))

/-- When an operation does what the cursor does. -/
def Operation.Regular (comparator : Compare) (pairs : List Pair) :
    Operation → DataPageIterator → Option Nat → Prop
  | .move .prev, iterator, some index =>
      index = 0 ∨ (restartPointInterval : Int) * iterator.curRestartPoint ≤
        index
  | .move _, _, _ => True
  | .seek target, _, _ =>
      restartPointInterval < pairs.length ∨
        ¬comparator (keyAt pairs 0) target < 0

/-- The bytes left out of an entry stand at the start of every group's first
key. -/
def Interchangeable (pairs : List Pair) : Prop :=
  ∀ index, index < pairs.length → ∀ group, group < groupCount pairs →
    (keyAt pairs index).take (sharedLength pairs index) <+:
      keyAt pairs (restartPointInterval * group)

instance (pairs : List Pair) : Decidable (Interchangeable pairs) :=
  inferInstanceAs (Decidable (∀ index, index < pairs.length →
    ∀ group, group < groupCount pairs →
      (keyAt pairs index).take (sharedLength pairs index) <+:
        keyAt pairs (restartPointInterval * group)))

theorem Operation.reference_lt (operation : Operation) (comparator : Compare)
    {pairs : List Pair} (nonempty : pairs ≠ []) {position : Option Nat}
    (before : ∀ index, position = some index → index < pairs.length) :
    ∀ index, operation.reference comparator pairs position = some index →
      index < pairs.length := by
  have positive := List.length_pos_iff.mpr nonempty
  intro index reached
  cases operation with
  | seek target =>
      exact (List.findIdx?_eq_some_iff_findIdx_eq.mp reached).1
  | move step =>
      cases step with
      | seekToFirst =>
          rw [← Option.some.inj reached]
          exact positive
      | seekToLast =>
          rw [← Option.some.inj reached]
          exact Nat.sub_one_lt_of_lt positive
      | next =>
          cases position with
          | none => cases reached
          | some current =>
              simp only [reference, Move.reference] at reached
              split at reached
              · rename_i inside
                rw [← Option.some.inj reached]
                exact inside
              · cases reached
      | prev =>
          cases position with
          | none => cases reached
          | some current =>
              have inside := before current rfl
              cases current with
              | zero => cases reached
              | succ current =>
                  rw [← Option.some.inj reached]
                  exact Nat.lt_of_succ_lt inside

namespace Place

variable {count : Nat}

theorem position_lt (place : Place count) :
    ∀ index, place.position = some index → index < count := by
  intro index reached
  rw [position] at reached
  split at reached
  · rename_i below
    rwa [← Option.some.inj reached]
  · cases reached

theorem position_getD (place : Place count) :
    place.position.getD count = place.index := by
  rcases Nat.lt_or_eq_of_le place.within with below | behind
  · rw [position_of_lt below]
    rfl
  · rw [position_of_eq behind, behind]
    rfl

/-- Going back leads to the entry before exactly if the group does not begin
behind the iterator. -/
theorem position_prev_iff {place : Place count} :
    place.prev.position = Move.prev.reference count place.position ↔
      ∀ index, place.position = some index →
        index = 0 ∨ restartPointInterval * place.group ≤ index := by
  constructor
  · intro follows index reached
    have below := place.position_lt index reached
    have here : place.index = index := by
      rw [← place.position_getD, reached]
      rfl
    subst here
    cases entry : place.index with
    | zero => exact Or.inl rfl
    | succ before =>
        have landed := prev_index_of_ne_zero below (by omega)
        rw [reached, entry] at follows
        have back : place.prev.index = before := by
          rw [← place.prev.position_getD, follows]
          rfl
        rw [landed, entry] at back
        refine Or.inr ?_
        by_cases starts : place.index = restartPointInterval * place.group
        · exact Nat.le_of_eq (entry ▸ starts).symm
        · rw [prevGroup, if_neg starts] at back
          have bound := Nat.le_max_left
            (restartPointInterval * place.group) (before + 1 - 1)
          omega
  · intro ordered
    rcases Nat.lt_or_eq_of_le place.within with below | behind
    · rcases ordered place.index (position_of_lt below) with first | inGroup
      · rw [position_of_lt below, position_of_eq (prev_index_of_zero first),
          first]
        rfl
      · exact position_prev inGroup
    · rw [prev_of_eq behind, position_of_eq behind]
      rfl

end Place

namespace OpenPage

variable {pairs : List Pair} (page : OpenPage pairs)
  (interchangeable : Interchangeable pairs)

include interchangeable in
/-- Every entry shows its own key, whatever group the iterator believes to be
in. -/
theorem key_cursor_interchangeable {index group : Nat}
    (within : index ≤ pairs.length) (inside : group < groupCount pairs) :
    (page.cursor index group).key = pure (keyAt pairs index) := by
  have leads : (keyAt pairs index).take (sharedLength pairs index) <+:
      keyAt pairs (restartPointInterval * group) := by
    rcases Nat.lt_or_eq_of_le within with below | behind
    · exact interchangeable index below group inside
    · rw [behind, sharedLength_end]
      exact List.nil_prefix
  have length : ((keyAt pairs index).take (sharedLength pairs index)).length =
      sharedLength pairs index :=
    List.length_take_of_le (sharedLength_le_own pairs index)
  have same := List.prefix_iff_eq_take.mp leads
  rw [length] at same
  have longEnough : sharedLength pairs index ≤
      (keyAt pairs (restartPointInterval * group)).length :=
    length ▸ leads.length_le
  rw [page.key_cursor_of_le within inside longEnough, ← same,
    take_append_suffixAt]

include interchangeable in
theorem standsAt_position (place : Place pairs.length) :
    StandsAt pairs (page.standing place) place.position := by
  constructor
  · rw [place.position_getD]
    rfl
  · rcases Nat.lt_or_eq_of_le place.within with below | behind
    · rw [page.observe_standing below (page.key_cursor_interchangeable
        interchangeable place.within (group_lt place)),
        Place.position_of_lt below, Option.bind_some,
        getElem?_eq_pairAt below]
    · rw [page.observe_standing_end behind, Place.position_of_eq behind]
      rfl

include interchangeable in
theorem standsAt_iff {place : Place pairs.length} {position : Option Nat}
    (inside : ∀ index, position = some index → index < pairs.length) :
    StandsAt pairs (page.standing place) position ↔
      place.position = position := by
  constructor
  · intro stands
    have same : place.index = position.getD pairs.length :=
      (offsetAt_inj pairs).mp stands.cur
    cases position with
    | none => exact Place.position_of_eq same
    | some index =>
        have here : place.index = index := same
        rw [Place.position_of_lt (here ▸ inside index rfl), here]
  · rintro rfl
    exact page.standsAt_position interchangeable place

section Search

variable (order : TotalPreorder page.comparator)
  (sorted : NonDecreasing page.comparator pairs)

include order sorted in
theorem position_landing {target : Bytes} {place : Place pairs.length}
    (begins : place.index < pairs.length)
    (startsBelow : page.comparator (keyAt pairs place.index) target < 0) :
    (page.landing target (keyAt pairs) place).position =
      pairs.findIdx? (notBelow page.comparator target) := by
  have stops := page.stops_scanStop target (keyAt pairs) place.within
  have landed : (page.landing target (keyAt pairs) place).index =
      page.scanStop target (keyAt pairs) place.index := rfl
  generalize page.scanStop target (keyAt pairs) place.index = stop
    at stops landed
  have wanted (index : Nat) (inside : index < pairs.length) :
      notBelow page.comparator target pairs[index] =
        !page.shownBelow target (keyAt pairs) index := by
    simp [notBelow, shownBelow, keyAt, inside]
  have passed (index : Nat) (before : index < stop) :
      page.shownBelow target (keyAt pairs) index = true := by
    rcases Nat.lt_or_ge index place.index with early | late
    · exact decide_eq_true (keyAt_below order sorted (Nat.le_of_lt early)
        begins startsBelow)
    · exact stops.passed index late before
  symm
  rcases Nat.lt_or_eq_of_le stops.within with inside | behind
  · rw [Place.position_of_lt (landed ▸ inside), landed,
      List.findIdx?_eq_some_iff_getElem]
    refine ⟨inside, ?_, ?_⟩
    · rw [wanted stop inside, stops.halted inside]
      rfl
    · intro index before
      rw [wanted index (Nat.lt_trans before inside), passed index before]
      decide
  · rw [Place.position_of_eq (landed.trans behind),
      List.findIdx?_eq_none_iff]
    intro pair member
    obtain ⟨index, inside, found⟩ := List.mem_iff_getElem.mp member
    rw [← found, wanted index inside, passed index (behind ▸ inside)]
    rfl

theorem findIdx?_eq_zero_iff (comparator : Compare) (target : Bytes)
    (positive : 0 < pairs.length) :
    pairs.findIdx? (notBelow comparator target) = some 0 ↔
      ¬comparator (keyAt pairs 0) target < 0 := by
  rw [List.findIdx?_eq_some_iff_getElem]
  simp [positive, notBelow, keyAt]

include order sorted interchangeable in
/-- A search leads to the first pair not less than the target exactly if the
page has several groups or the first pair is the one sought. -/
theorem seek_regular (target : Bytes) (place : Place pairs.length) :
    ∃ reached : Place pairs.length,
      (page.standing place).seek target = pure (page.standing reached) ∧
      (reached.position = pairs.findIdx? (notBelow page.comparator target) ↔
        restartPointInterval < pairs.length ∨
          ¬page.comparator (keyAt pairs 0) target < 0) := by
  cases found : page.startGroup target with
  | none =>
      refine ⟨place.seekToFirst, by rw [page.seek_standing, found], ?_⟩
      have first : place.seekToFirst.position = some 0 :=
        Place.position_of_lt place.positive
      rw [first, eq_comm,
        findIdx?_eq_zero_iff page.comparator target place.positive]
      refine (or_iff_right_of_imp fun several => ?_).symm
      rcases page.not_below_of_startGroup target found with few | reached
      · have groups := (one_lt_groupCount_iff pairs).mpr several
        omega
      · exact of_decide_eq_false reached
  | some group =>
      obtain ⟨inside, sought⟩ := page.seek_of_startGroup place found
      have starts := page.startsAt_of_startGroup target found
      have shows (index : Nat) (reaches : LinearScan.Reaches
          (page.shownBelow target (keyAt pairs)) pairs.length
            (place.toGroup inside).index index) :
          (page.cursor index place.group).key = pure (keyAt pairs index) :=
        page.key_cursor_interchangeable interchangeable reaches.within
          (group_lt place)
      refine ⟨_, sought.trans (page.scanToTarget_standing shows), ?_⟩
      exact iff_of_true
        (page.position_landing order sorted inside
          (of_decide_eq_true starts.below))
        (Or.inl ((one_lt_groupCount_iff pairs).mp starts.several))

end Search

/-- The iterator stands at a place, and the cursor at the same position. -/
def Beside (iterator : DataPageIterator) (position : Option Nat) : Prop :=
  ∃ place : Place pairs.length, iterator = page.standing place ∧
    position = place.position

section Run

variable (order : TotalPreorder page.comparator)
  (sorted : NonDecreasing page.comparator pairs)

include interchangeable in
theorem keeps_of_reached {operation : Operation}
    {place reached : Place pairs.length}
    (returns : operation.apply (page.standing place) =
      pure (page.standing reached))
    (exactly : reached.position =
        operation.reference page.comparator pairs place.position ↔
      operation.Regular page.comparator pairs (page.standing place)
        place.position) :
    Lockstep.Keeps Operation.apply
      (Operation.reference page.comparator pairs) page.Beside
      (StandsAt pairs) (Operation.Regular page.comparator pairs) operation
      (page.standing place) place.position (page.standing reached) where
  returns := returns
  exactly := by
    have inside := operation.reference_lt page.comparator
      (nonempty_of_place place) place.position_lt
    exact (page.standsAt_iff interchangeable inside).trans exactly
  kept := fun regular => ⟨reached, rfl, (exactly.mpr regular).symm⟩

theorem position_onPlace_iff (step : Move) (place : Place pairs.length) :
    (step.onPlace place).position =
        step.reference pairs.length place.position ↔
      (Operation.move step).Regular page.comparator pairs
        (page.standing place) place.position := by
  cases step with
  | seekToFirst =>
      exact iff_of_true (Place.position_of_lt place.positive) trivial
  | seekToLast =>
      exact iff_of_true
        (Place.position_of_lt (Nat.sub_one_lt_of_lt place.positive)) trivial
  | next => exact iff_of_true (Place.position_next place) trivial
  | prev =>
      have belief : (page.standing place).curRestartPoint = place.group := rfl
      rw [Move.onPlace, Place.position_prev_iff]
      cases place.position with
      | none => exact iff_of_true (fun _ absent => by cases absent) trivial
      | some index =>
          rw [Operation.Regular, belief]
          constructor
          · intro ordered
            exact (ordered index rfl).imp_right fun within => by omega
          · rintro ordered other same
            cases same
            exact ordered.imp_right fun within => by omega

include interchangeable order sorted in
/-- Each operation returns, and does what the cursor does exactly if it is
regular. -/
theorem keeps_beside (operation : Operation) (place : Place pairs.length) :
    ∃ reached : Place pairs.length,
      Lockstep.Keeps Operation.apply
        (Operation.reference page.comparator pairs) page.Beside
        (StandsAt pairs) (Operation.Regular page.comparator pairs) operation
        (page.standing place) place.position (page.standing reached) := by
  cases operation with
  | move step =>
      exact ⟨step.onPlace place, page.keeps_of_reached interchangeable
        (page.apply_standing step place) (page.position_onPlace_iff step place)⟩
  | seek target =>
      obtain ⟨reached, returns, exactly⟩ := page.seek_regular interchangeable
        order sorted target place
      exact ⟨reached, page.keeps_of_reached interchangeable returns exactly⟩

end Run

end OpenPage

namespace DataPageReader

/-- On a sorted page whose keys read the same from every group, a fresh iterator
stands step by step where the cursor over the list stands, and shows its pair,
exactly if all operations of the run are regular. -/
theorem sortedCursor_iff (pairs : List Pair) (nonempty : pairs ≠ [])
    (comparator : Compare) (order : TotalPreorder comparator)
    (sorted : NonDecreasing comparator pairs)
    (interchangeable : Interchangeable pairs)
    (small : offsetAt pairs pairs.length < 2 ^ 28) (type : PageType)
    (pageSize address : Nat) (memory : Memory)
    (loaded : memory.bytes = dataPage type pageSize address pairs)
    (operations : List Operation) :
    ∃ fresh,
      newIterator memory (dataPage type pageSize address pairs) comparator =
        pure fresh ∧
      StandsAt pairs fresh (some 0) ∧
      (Lockstep.InStep Operation.apply (Operation.reference comparator pairs)
          (StandsAt pairs) operations fresh (some 0) ↔
        Lockstep.Throughout Operation.apply
          (Operation.reference comparator pairs)
          (Operation.Regular comparator pairs) operations fresh (some 0)) := by
  have positive := List.length_pos_iff.mpr nonempty
  have opened := newIterator_eq small loaded comparator
  have same : (openPage small loaded comparator).comparator = comparator := rfl
  generalize openPage small loaded comparator = page at opened same
  subst same
  have start : (Place.first positive).position = some 0 := if_pos positive
  have first := page.standsAt_position interchangeable (Place.first positive)
  rw [start] at first
  refine ⟨_, opened, first, ?_⟩
  apply Lockstep.inStep_iff page.Beside
  · rintro operation _ _ ⟨place, rfl, rfl⟩
    obtain ⟨reached, keeps⟩ := page.keeps_beside interchangeable order sorted
      operation place
    exact ⟨_, keeps⟩
  · exact ⟨Place.first positive, rfl, start.symm⟩

/-- Seventeen keys of one byte, which share nothing. -/
def distinctPairs : List Pair :=
  (List.range 17).map fun index => ([UInt8.ofNat index], [])

theorem sortedCursor_iff_distinctPairs :
    ∃ fresh,
      newIterator
          (Memory.enclosed (dataPage .dataPage defaultPageSize 0 distinctPairs))
          (dataPage .dataPage defaultPageSize 0 distinctPairs)
          defaultCompare = pure fresh ∧
      Lockstep.InStep Operation.apply
        (Operation.reference defaultCompare distinctPairs)
        (StandsAt distinctPairs) [.seek [5], .move .next, .seek [17]] fresh
        (some 0) := by
  obtain ⟨fresh, opened, -, exactly⟩ := sortedCursor_iff distinctPairs
    (by decide) defaultCompare totalPreorder_default (by decide +kernel)
    (by decide +kernel) (by decide +kernel) .dataPage defaultPageSize 0
    (Memory.enclosed (dataPage .dataPage defaultPageSize 0 distinctPairs)) rfl
    [.seek [5], .move .next, .seek [17]]
  have several : restartPointInterval < distinctPairs.length := by
    decide +kernel
  exact ⟨fresh, opened, exactly.mpr ⟨Or.inl several, fun _ _ =>
    ⟨trivial, fun _ _ => ⟨Or.inl several, fun _ _ => trivial⟩⟩⟩⟩

/-- After `seekToLast` and a search, going back leads forward: from the entry
with the key `[5]` to the last one. -/
example :
    outcome (do
      let fresh ← newIterator
        (Memory.enclosed (dataPage .dataPage defaultPageSize 0 distinctPairs))
        (dataPage .dataPage defaultPageSize 0 distinctPairs) defaultCompare
      let last ← fresh.seekToLast
      let found ← last.seek [5]
      let back ← found.prev
      back.observe) (fun _ => 0) = .ok (some ([16], [])) := by
  decide +kernel

end DataPageReader

end LiteLsm
