import LiteLsm.Storage.SeekLowerBound

/-!
# What `seek` remembers

The one thing a search leaves as it was is the restart index.  Two iterators
with different histories are therefore in the same state after a search if
their restart indices agreed before it, or if the search does not scan.

Runs are followed in a memory where every address is readable: an iterator
that believes to be in the wrong group may copy bytes from behind the page.
-/

namespace LiteLsm

open Checked Layout DataPageIterator DataPageBuilder

namespace DataPageIterator

/-- Apply the operations one after another. -/
def operate :
    List Operation → DataPageIterator → Program DataPageIterator
  | [], iterator => pure iterator
  | operation :: later, iterator => do
      let moved ← operation.apply iterator
      moved.operate later

/-- What the user sees now and after every further operation. -/
def observations :
    List Operation → DataPageIterator → Program (List (Option Pair))
  | [], iterator => do
      let seen ← iterator.observe
      pure [seen]
  | operation :: later, iterator => do
      let seen ← iterator.observe
      let moved ← operation.apply iterator
      let rest ← moved.observations later
      pure (seen :: rest)

end DataPageIterator

namespace DataPageReader

/-- Run a fresh iterator through some operations. -/
def operated (memory : Memory) (page : Bytes) (comparator : Compare)
    (operations : List Operation) : Program DataPageIterator := do
  let fresh ← newIterator memory page comparator
  fresh.operate operations

/-- Search after some operations, and observe the search and what follows. -/
def observeSearch (memory : Memory) (page : Bytes) (comparator : Compare)
    (before : List Operation) (target : Bytes) (later : List Operation) :
    Program (List (Option Pair)) := do
  let iterator ← operated memory page comparator before
  let found ← iterator.seek target
  found.observations later

end DataPageReader

namespace OpenPage

variable {pairs : List Pair} (page : OpenPage pairs)
  (unguarded : page.memory.guarded = false) (total : page.memory.Total)

/-- The key shown at an entry by an iterator which believes to be in the given
group. -/
def peekedKey (group index : Nat) : Bytes :=
  page.memory.peek (restartKey pairs group).data (sharedLength pairs index) ++
    suffixAt pairs index

include unguarded total

theorem key_cursor_total {index group : Nat} (within : index ≤ pairs.length)
    (inside : group < groupCount pairs) :
    (page.cursor index group).key = pure (page.peekedKey group index) :=
  page.key_cursor_of_held unguarded within inside (Memory.length_peek _ _)
    (Memory.holdsAt_peek total _ _)

theorem observe_total (place : Place pairs.length) :
    ∃ seen, (page.standing place).observe = pure seen := by
  rcases Nat.lt_or_eq_of_le place.within with below | behind
  · exact ⟨_, page.observe_standing below
      (page.key_cursor_total unguarded total place.within (group_lt place))⟩
  · exact ⟨_, page.observe_standing_end behind⟩

theorem seek_total (target : Bytes) (place : Place pairs.length) :
    ∃ reached : Place pairs.length,
      (page.standing place).seek target = pure (page.standing reached) := by
  cases found : page.startGroup target with
  | none =>
      rw [page.seek_standing, found]
      exact ⟨place.seekToFirst, rfl⟩
  | some group =>
      obtain ⟨inside, sought⟩ := page.seek_of_startGroup place found
      have shows (index : Nat) (reaches : LinearScan.Reaches
          (page.shownBelow target (page.peekedKey place.group)) pairs.length
            (place.toGroup inside).index index) :
          (page.cursor index place.group).key =
            pure (page.peekedKey place.group index) :=
        page.key_cursor_total unguarded total reaches.within (group_lt place)
      rw [sought]
      exact ⟨_, page.scanToTarget_standing shows⟩

theorem apply_total (operation : Operation) (place : Place pairs.length) :
    ∃ reached : Place pairs.length,
      operation.apply (page.standing place) =
        pure (page.standing reached) := by
  cases operation with
  | move step => exact ⟨step.onPlace place, page.apply_standing step place⟩
  | seek target => exact page.seek_total unguarded total target place

theorem operate_total (operations : List Operation)
    (place : Place pairs.length) :
    ∃ reached : Place pairs.length,
      (page.standing place).operate operations =
        pure (page.standing reached) := by
  induction operations generalizing place with
  | nil => exact ⟨place, rfl⟩
  | cons operation later induction =>
      obtain ⟨moved, step⟩ := page.apply_total unguarded total operation place
      obtain ⟨reached, rest⟩ := induction moved
      exact ⟨reached, by rw [operate, step, pure_bind, rest]⟩

theorem observations_total (operations : List Operation)
    (place : Place pairs.length) :
    ∃ seen, (page.standing place).observations operations = pure seen := by
  obtain ⟨now, observed⟩ := page.observe_total unguarded total place
  induction operations generalizing place now with
  | nil => exact ⟨[now], by rw [observations, observed, pure_bind]⟩
  | cons operation later induction =>
      obtain ⟨moved, step⟩ := page.apply_total unguarded total operation place
      obtain ⟨next, observedNext⟩ := page.observe_total unguarded total moved
      obtain ⟨rest, observedRest⟩ := induction moved next observedNext
      exact ⟨now :: rest, by
        rw [observations, observed, pure_bind, step, pure_bind, observedRest,
          pure_bind]⟩

omit unguarded total

/-- With equal restart indices, or without a scan, a search forgets where the
iterator was. -/
theorem seek_same (target : Bytes) {left right : Place pairs.length}
    (agree : left.group = right.group ∨ page.startGroup target = none) :
    (page.standing left).seek target = (page.standing right).seek target := by
  rw [page.seek_standing, page.seek_standing]
  rcases agree with same | notScanned
  · cases page.startGroup target with
    | none => rfl
    | some group => simp only [same]
  · rw [notScanned]
    rfl

theorem startGroup_of_oneGroup (target : Bytes)
    (few : pairs.length ≤ restartPointInterval) :
    page.startGroup target = none := by
  cases found : page.startGroup target with
  | none => rfl
  | some group =>
      have several := (page.startsAt_of_startGroup target found).several
      have more := (one_lt_groupCount_iff pairs).mp several
      omega

theorem startGroup_of_first (order : TotalPreorder page.comparator)
    (sorted : NonDecreasing page.comparator pairs) (target : Bytes)
    (reached : ¬page.comparator (keyAt pairs 0) target < 0) :
    page.startGroup target = none := by
  cases found : page.startGroup target with
  | none => rfl
  | some group =>
      have starts := page.startsAt_of_startGroup target found
      have first := page.restartBelow_antitone order
        (sorted.restarts order) (Nat.zero_le group) starts.inside starts.below
      exact absurd (of_decide_eq_true first) reached

end OpenPage

namespace DataPageReader

/-- Two runs show the same from a common search on, whatever they did before,
if their restart indices agree when the search begins, if the page has a
single group, or if its first key is not less than the target. -/
theorem seek_forgets_history (pairs : List Pair) (nonempty : pairs ≠ [])
    (comparator : Compare) (order : TotalPreorder comparator)
    (sorted : NonDecreasing comparator pairs)
    (small : offsetAt pairs pairs.length < 2 ^ 28) (type : PageType)
    (pageSize address : Nat) (neighbour : Nat → UInt8) (target : Bytes)
    (before other : List Operation) :
    let page := dataPage type pageSize address pairs
    let memory := Memory.among (fun address => some (neighbour address)) page
    ∃ left right : DataPageIterator,
      operated memory page comparator before = pure left ∧
      operated memory page comparator other = pure right ∧
      (left.curRestartPoint = right.curRestartPoint ∨
          pairs.length ≤ restartPointInterval ∨
          ¬comparator (keyAt pairs 0) target < 0 →
        ∀ later, ∃ seen,
          observeSearch memory page comparator before target later =
            pure seen ∧
          observeSearch memory page comparator other target later =
            pure seen) := by
  intro page memory
  have positive := List.length_pos_iff.mpr nonempty
  have loaded : memory.bytes = dataPage type pageSize address pairs := rfl
  have opened := newIterator_eq small loaded comparator
  have unguarded : (openPage small loaded comparator).memory.guarded =
      false := rfl
  have total : (openPage small loaded comparator).memory.Total :=
    Memory.total_among page neighbour
  have same : (openPage small loaded comparator).comparator = comparator := rfl
  generalize openPage small loaded comparator = held at *
  have start : held.cursor 0 0 = held.standing (Place.first positive) := rfl
  rw [start] at opened
  have ran (operations : List Operation) :
      operated memory page comparator operations =
        (held.standing (Place.first positive)).operate operations := by
    exact (congrArg (· >>= fun fresh => fresh.operate operations)
      opened).trans (pure_bind _ _)
  obtain ⟨left, leftRun⟩ := held.operate_total unguarded total before
    (Place.first positive)
  obtain ⟨right, rightRun⟩ := held.operate_total unguarded total other
    (Place.first positive)
  have leftReached := (ran before).trans leftRun
  have rightReached := (ran other).trans rightRun
  refine ⟨held.standing left, held.standing right, leftReached, rightReached,
    ?_⟩
  intro agree later
  have forgets : left.group = right.group ∨
      held.startGroup target = none := by
    rcases agree with restart | few | reached
    · exact Or.inl (Int.ofNat_inj.mp restart)
    · exact Or.inr (held.startGroup_of_oneGroup target few)
    · rw [← same] at order sorted reached
      exact Or.inr (held.startGroup_of_first order sorted target reached)
  have sameSearch := held.seek_same target forgets
  obtain ⟨found, searched⟩ := held.seek_total unguarded total target left
  obtain ⟨seen, observed⟩ :=
    held.observations_total unguarded total later found
  refine ⟨seen, ?_, ?_⟩
  · rw [observeSearch, leftReached, pure_bind, searched, pure_bind, observed]
  · rw [observeSearch, rightReached, pure_bind, ← sameSearch, searched,
      pure_bind, observed]

/-- Sixteen keys that start with `0`, and one that starts with `1`. -/
def twoGroupPairs : List Pair :=
  (List.range 16).map (fun index => ([0, UInt8.ofNat index], [])) ++
    [([1, 0], [])]

/-- On that page two histories cannot be told apart from the search on. -/
def Forgotten (before other : List Operation) (target : Bytes) : Prop :=
  ∀ later, ∃ seen,
    observeSearch
        (Memory.among (fun _ => some 0)
          (dataPage .dataPage defaultPageSize 0 twoGroupPairs))
        (dataPage .dataPage defaultPageSize 0 twoGroupPairs) defaultCompare
        before target later = pure seen ∧
    observeSearch
        (Memory.among (fun _ => some 0)
          (dataPage .dataPage defaultPageSize 0 twoGroupPairs))
        (dataPage .dataPage defaultPageSize 0 twoGroupPairs) defaultCompare
        other target later = pure seen

private theorem curRestartPoint_of_outcome
    {run : Program DataPageIterator} {iterator : DataPageIterator}
    (reached : run = pure iterator) (stream : Nat → UInt32)
    (shown : outcome (run >>= fun iterator => pure iterator.curRestartPoint)
      stream = .ok 0) :
    iterator.curRestartPoint = 0 := by
  rw [reached, pure_bind, outcome_pure] at shown
  exact Except.ok.inj shown

/-- The search for `[0, 5]` scans the first group, at whatever entry of it the
histories end; the one for `[0]` goes to the first entry, even if one history
ends in the last group. -/
theorem seek_forgets_history_twoGroups :
    Forgotten [.move .next, .seek [0, 9], .move .prev]
        [.seek [0, 3], .move .next, .move .next] [0, 5] ∧
      Forgotten [.move .next] [.move .seekToLast] [0] := by
  constructor
  · obtain ⟨left, right, leftRun, rightRun, agrees⟩ :=
      seek_forgets_history twoGroupPairs (by decide) defaultCompare
        totalPreorder_default (by decide +kernel) (by decide +kernel)
        .dataPage defaultPageSize 0 (fun _ => 0) [0, 5]
        [.move .next, .seek [0, 9], .move .prev]
        [.seek [0, 3], .move .next, .move .next]
    refine agrees (Or.inl ?_)
    rw [curRestartPoint_of_outcome leftRun (fun _ => 0) (by decide +kernel),
      curRestartPoint_of_outcome rightRun (fun _ => 0) (by decide +kernel)]
  · obtain ⟨left, right, -, -, agrees⟩ :=
      seek_forgets_history twoGroupPairs (by decide) defaultCompare
        totalPreorder_default (by decide +kernel) (by decide +kernel)
        .dataPage defaultPageSize 0 (fun _ => 0) [0] [.move .next]
        [.move .seekToLast]
    exact agrees (Or.inr (Or.inr (by decide +kernel)))

/-- After `seekToLast` the search for `[0, 5]` shows the key `[1, 1]`: the
second entry with the first byte of the second group. -/
theorem seek_remembers_history :
    TotalPreorder defaultCompare ∧
      NonDecreasing defaultCompare twoGroupPairs ∧
      offsetAt twoGroupPairs twoGroupPairs.length < 2 ^ 28 ∧
    ¬∀ before other later : List Operation,
      observeSearch
          (Memory.among (fun _ => some 0)
            (dataPage .dataPage defaultPageSize 0 twoGroupPairs))
          (dataPage .dataPage defaultPageSize 0 twoGroupPairs) defaultCompare
          before [0, 5] later =
        observeSearch
          (Memory.among (fun _ => some 0)
            (dataPage .dataPage defaultPageSize 0 twoGroupPairs))
          (dataPage .dataPage defaultPageSize 0 twoGroupPairs) defaultCompare
          other [0, 5] later := by
  refine ⟨totalPreorder_default, by decide +kernel, by decide +kernel,
    fun forgets => ?_⟩
  have same := congrArg (outcome · fun _ => 0)
    (forgets [] [.move .seekToLast] [])
  have fresh : outcome (observeSearch
      (Memory.among (fun _ => some 0)
        (dataPage .dataPage defaultPageSize 0 twoGroupPairs))
      (dataPage .dataPage defaultPageSize 0 twoGroupPairs) defaultCompare
      [] [0, 5] []) (fun _ => 0) = .ok [some ([0, 5], [])] := by
    decide +kernel
  have used : outcome (observeSearch
      (Memory.among (fun _ => some 0)
        (dataPage .dataPage defaultPageSize 0 twoGroupPairs))
      (dataPage .dataPage defaultPageSize 0 twoGroupPairs) defaultCompare
      [.move .seekToLast] [0, 5] []) (fun _ => 0) =
        .ok [some ([1, 1], [])] := by
    decide +kernel
  simp only [fresh, used] at same
  exact absurd same (by decide)

end DataPageReader

end LiteLsm
