import LiteLsm.Storage.SeekLowerBound

/-!
# Reads within the page

In an `enclosed` memory only the page can be read, and copying more from a
restart key than its length is a fault.  Which entries an iterator can show
under which restart index is determined exactly here, and with it the pages on
which no sequence of calls faults.
-/

namespace LiteLsm

open Checked Layout DataPageIterator DataPageBuilder

/-- What a user can call.  `key` and `value` are called at valid positions
only. -/
inductive Call where
  | operate (operation : Operation)
  | key
  | value
  deriving DecidableEq, Repr

def Call.apply : Call → DataPageIterator → Program DataPageIterator
  | .operate operation, iterator => operation.apply iterator
  | .key, iterator =>
      if iterator.valid then do
        let _ ← iterator.key
        pure iterator
      else pure iterator
  | .value, iterator =>
      if iterator.valid then do
        let _ ← iterator.value
        pure iterator
      else pure iterator

/-- Make the calls one after another. -/
def DataPageIterator.perform :
    List Call → DataPageIterator → Program DataPageIterator
  | [], iterator => pure iterator
  | call :: later, iterator => do
      let moved ← call.apply iterator
      moved.perform later

namespace Layout

/-- An iterator can stand at the entry and believe to be in the group: it went
forward from the group's start, or a search scanned over the entry under a
restart index left over from before. -/
def Believable (comparator : Compare) (pairs : List Pair)
    (index group : Nat) : Prop :=
  restartPointInterval * group ≤ index ∨
    restartPointInterval < pairs.length ∧ ∃ target,
      0 < groupsBelow comparator pairs target ∧
        restartPointInterval * (groupsBelow comparator pairs target - 1) ≤
          index

/-- Every key that can be shown copies at most a whole restart key. -/
def KeysFit (comparator : Compare) (pairs : List Pair) : Prop :=
  ∀ index group, index < pairs.length →
    restartPointInterval * group < pairs.length →
    Believable comparator pairs index group →
      sharedLength pairs index ≤
        (keyAt pairs (restartPointInterval * group)).length

theorem Believable.later {comparator : Compare} {pairs : List Pair}
    {index later group : Nat}
    (believable : Believable comparator pairs index group)
    (forward : index ≤ later) : Believable comparator pairs later group := by
  rcases believable with ordered | ⟨several, target, positive, scanned⟩
  · exact Or.inl (Nat.le_trans ordered forward)
  · exact Or.inr ⟨several, target, positive, Nat.le_trans scanned forward⟩

end Layout

namespace Place

variable {comparator : Compare} {pairs : List Pair}

theorem believable_onPlace {place : Place pairs.length}
    (believable : Believable comparator pairs place.index place.group)
    (move : Move) :
    Believable comparator pairs (move.onPlace place).index
      (move.onPlace place).group := by
  cases move with
  | seekToFirst => exact Or.inl (Nat.le_refl _)
  | seekToLast => exact Or.inl (Nat.mul_div_le _ _)
  | next =>
      rcases Nat.lt_or_eq_of_le place.within with below | behind
      · rw [Move.onPlace, next_of_lt below]
        exact believable.later (Nat.le_succ _)
      · rw [Move.onPlace, next_of_eq behind]
        exact believable
  | prev =>
      rcases Nat.lt_or_eq_of_le place.within with below | behind
      · -- a scan backward ends in or behind the group it starts from
        by_cases first : place.index = 0
        · apply Or.inl
          rw [Move.onPlace, prev_index_of_zero first,
            prev_group_of_zero first]
          exact Nat.le_trans (Nat.mul_div_le _ _) (Nat.sub_le _ _)
        · apply Or.inl
          rw [Move.onPlace, prev_index_of_ne_zero below first,
            prev_group_of_ne_zero below first]
          exact Nat.le_max_left _ _
      · rw [Move.onPlace, prev_of_eq behind]
        exact believable

end Place

namespace OpenPage

variable {pairs : List Pair} (page : OpenPage pairs)

section Fitting

variable (order : TotalPreorder page.comparator)
  (sorted : NonDecreasing page.comparator pairs)
  (fit : KeysFit page.comparator pairs)

/-- The key shown at an entry whose restart key is long enough. -/
def copiedKey (pairs : List Pair) (group index : Nat) : Bytes :=
  (keyAt pairs (restartPointInterval * group)).take
    (sharedLength pairs index) ++ suffixAt pairs index

include fit in
theorem key_cursor_believable {index group : Nat}
    (within : index ≤ pairs.length)
    (inside : restartPointInterval * group < pairs.length)
    (believable : Believable page.comparator pairs index group) :
    (page.cursor index group).key = pure (copiedKey pairs group index) := by
  apply page.key_cursor_of_le within ((lt_groupCount_iff pairs).mpr inside)
  rcases Nat.lt_or_eq_of_le within with below | behind
  · exact fit index group below inside believable
  · rw [behind, sharedLength_end]
    exact Nat.zero_le _

include order sorted in
/-- Where a search starts its scan, every restart index is believable. -/
theorem believable_of_startGroup {target : Bytes} {start : Nat}
    (found : page.startGroup target = some start) (group : Nat) :
    Believable page.comparator pairs (restartPointInterval * start) group := by
  have starts := page.startsAt_of_startGroup target found
  have count := page.groupsBelow_of_startsAt order sorted starts
  have several := (one_lt_groupCount_iff pairs).mp starts.several
  exact Or.inr ⟨several, target, by omega, by
    rw [count, Nat.add_sub_cancel]⟩

include order sorted fit in
theorem seek_believable (target : Bytes) {place : Place pairs.length}
    (believable : Believable page.comparator pairs place.index place.group) :
    ∃ reached : Place pairs.length,
      (page.standing place).seek target = pure (page.standing reached) ∧
        Believable page.comparator pairs reached.index reached.group := by
  cases found : page.startGroup target with
  | none =>
      rw [page.seek_standing, found]
      exact ⟨place.seekToFirst, rfl,
        Place.believable_onPlace believable .seekToFirst⟩
  | some group =>
      obtain ⟨inside, sought⟩ := page.seek_of_startGroup place found
      have begins := page.believable_of_startGroup order sorted found
        place.group
      have shows (index : Nat) (reaches : LinearScan.Reaches
          (page.shownBelow target (copiedKey pairs place.group)) pairs.length
            (place.toGroup inside).index index) :
          (page.cursor index place.group).key =
            pure (copiedKey pairs place.group index) :=
        page.key_cursor_believable fit reaches.within place.inside
          (begins.later reaches.forward)
      have stops := page.stops_scanStop target (copiedKey pairs place.group)
        (place.toGroup inside).within
      rw [sought]
      exact ⟨_, page.scanToTarget_standing shows,
        begins.later stops.forward⟩

include order sorted fit in
theorem call_believable (call : Call) {place : Place pairs.length}
    (believable : Believable page.comparator pairs place.index place.group) :
    ∃ reached : Place pairs.length,
      call.apply (page.standing place) = pure (page.standing reached) ∧
        Believable page.comparator pairs reached.index reached.group := by
  cases call with
  | operate operation =>
      cases operation with
      | move step =>
          exact ⟨step.onPlace place, page.apply_standing step place,
            Place.believable_onPlace believable step⟩
      | seek target =>
          exact page.seek_believable order sorted fit target believable
  | key =>
      have shown : (page.standing place).key =
          pure (copiedKey pairs place.group place.index) :=
        page.key_cursor_believable fit place.within place.inside believable
      refine ⟨place, ?_, believable⟩
      simp [Call.apply, shown]
  | value =>
      have stored : (page.standing place).value =
          pure (valueAt pairs place.index) :=
        page.value_cursor (nonempty_of_place place) place.within place.group
      refine ⟨place, ?_, believable⟩
      simp [Call.apply, stored]

include order sorted fit in
theorem perform_believable (calls : List Call) {place : Place pairs.length}
    (believable : Believable page.comparator pairs place.index place.group) :
    ∃ reached : Place pairs.length,
      (page.standing place).perform calls =
        pure (page.standing reached) := by
  induction calls generalizing place with
  | nil => exact ⟨place, rfl⟩
  | cons call later induction =>
      obtain ⟨moved, step, remains⟩ :=
        page.call_believable order sorted fit call believable
      obtain ⟨reached, rest⟩ := induction remains
      exact ⟨reached, by rw [perform, step, pure_bind, rest]⟩

end Fitting

end OpenPage

namespace DataPageIterator

theorem perform_append (iterator : DataPageIterator)
    (first later : List Call) :
    iterator.perform (first ++ later) =
      iterator.perform first >>= fun moved => moved.perform later := by
  induction first generalizing iterator with
  | nil => rw [List.nil_append, perform, pure_bind]
  | cons call first induction =>
      simp only [List.cons_append, perform, bind_assoc, induction]

end DataPageIterator

namespace OpenPage

variable {pairs : List Pair} (page : OpenPage pairs)

/-- Moves as calls. -/
def moveCalls (moves : List Move) : List Call :=
  moves.map fun move => .operate (.move move)

theorem perform_moveCalls (moves : List Move) (place : Place pairs.length) :
    (page.standing place).perform (moveCalls moves) =
      pure (page.standing (place.moves moves)) := by
  induction moves generalizing place with
  | nil => rfl
  | cons move later induction =>
      have step : (Call.operate (.move move)).apply (page.standing place) =
          pure (page.standing (move.onPlace place)) :=
        page.apply_standing move place
      rw [moveCalls, List.map_cons, perform, step, pure_bind]
      exact induction (move.onPlace place)

section Safe

variable {page} {start : Place pairs.length}
  (safe : ∀ calls, Safe ((page.standing start).perform calls))

include safe in
theorem not_fault_after {calls : List Call} {iterator : DataPageIterator}
    (run : (page.standing start).perform calls = pure iterator) (call : Call)
    (reason : Fault) : call.apply iterator ≠ fault reason := by
  intro faults
  have whole := safe (calls ++ [call])
  rw [perform_append, run, pure_bind, perform, faults, fault_bind] at whole
  exact not_safe_fault reason whole

include safe in
/-- From a place that is reached, `next` leads to every later entry, whose key
must then fit. -/
theorem fits_after (guarded : page.memory.guarded = true)
    {calls : List Call} {place : Place pairs.length}
    (run : (page.standing start).perform calls = pure (page.standing place))
    {index : Nat} (forward : place.index ≤ index)
    (below : index < pairs.length) :
    sharedLength pairs index ≤
      (keyAt pairs (restartPointInterval * place.group)).length := by
  apply Nat.le_of_not_lt
  intro tooShort
  obtain ⟨steps, rfl⟩ := Nat.exists_eq_add_of_le forward
  obtain ⟨reachedIndex, reachedGroup⟩ := place.moves_replicate_next steps
  rw [min_eq_left (Nat.le_of_lt below)] at reachedIndex
  have advanced : (page.standing start).perform
      (calls ++ moveCalls (List.replicate steps .next)) =
        pure (page.standing (place.moves (List.replicate steps .next))) := by
    rw [perform_append, run, pure_bind, page.perform_moveCalls]
  have standing : page.standing (place.moves (List.replicate steps .next)) =
      page.cursor (place.index + steps) place.group := by
    rw [OpenPage.standing, reachedIndex, reachedGroup]
  have faults := page.key_cursor_of_lt guarded (Nat.le_of_lt below)
    (group_lt place) tooShort
  have valid := page.valid_cursor (place.index + steps) place.group
  rw [decide_eq_true below] at valid
  rw [standing] at advanced
  apply not_fault_after safe advanced .key
  rw [Call.apply, if_pos valid, faults, fault_bind]

theorem reaches_groupStart (page : OpenPage pairs)
    (start : Place pairs.length) {group : Nat}
    (inside : restartPointInterval * group < pairs.length) :
    ∃ calls, ∃ place : Place pairs.length,
      (page.standing start).perform calls = pure (page.standing place) ∧
        place.index = restartPointInterval * group ∧ place.group = group := by
  have last : pairs.length - 1 < pairs.length :=
    Nat.sub_one_lt_of_lt start.positive
  have back := Place.moves_replicate_prev last
    (pairs.length - 1 - restartPointInterval * group) (Nat.sub_le _ _)
  have ends : Move.seekToLast.onPlace start = Place.own last := rfl
  refine ⟨moveCalls (.seekToLast :: List.replicate
    (pairs.length - 1 - restartPointInterval * group) .prev), _,
    page.perform_moveCalls _ _, ?_, ?_⟩
  · rw [Place.moves_cons, ends, back]
    simp only [Place.own]
    omega
  · rw [Place.moves_cons, ends, back]
    simp only [Place.own, restartPointInterval] at inside ⊢
    omega

include safe in
/-- If a search scans from some entry on, all keys from there on must fit
under any restart index: the scan either compares them or stops before. -/
theorem fits_scan (guarded : page.memory.guarded = true) {target : Bytes}
    {first group index : Nat} (found : page.startGroup target = some first)
    (inside : restartPointInterval * group < pairs.length)
    (scanned : restartPointInterval * first ≤ index)
    (below : index < pairs.length) :
    sharedLength pairs index ≤
      (keyAt pairs (restartPointInterval * group)).length := by
  obtain ⟨calls, place, run, -, rfl⟩ := page.reaches_groupStart start inside
  obtain ⟨within, sought⟩ := page.seek_of_startGroup place found
  let scan := place.toGroup within
  have stops := page.stops_scanStop target (copiedKey pairs place.group)
    scan.within
  -- by induction, the entries scanned before this one fit
  induction index using Nat.strong_induction_on with
  | h index induction =>
      have shows (entry : Nat) (forward : scan.index ≤ entry)
          (before : entry < index) :
          (page.cursor entry scan.group).key =
            pure (copiedKey pairs place.group entry) :=
        page.key_cursor_of_le (by omega) (group_lt place)
          (induction entry before forward (by omega))
      rcases Nat.lt_or_ge (page.scanStop target
        (copiedKey pairs place.group) scan.index) index with stopped | passed
      · -- the scan stops before; `next` goes on from there
        have ended := page.scanToTarget_standing (fun entry reaches =>
          shows entry reaches.forward
            (Nat.lt_of_le_of_lt (stops.reaches_le reaches) stopped))
        have landedRun : (page.standing start).perform
            (calls ++ [.operate (.seek target)]) =
              pure (page.standing (page.landing target
                (copiedKey pairs place.group) scan)) := by
          rw [perform_append, run, pure_bind, perform, Call.apply,
            Operation.apply, sought, ended, pure_bind]
          rfl
        exact fits_after safe guarded landedRun (Nat.le_of_lt stopped) below
      · -- the scan gets here and shows the key itself
        apply Nat.le_of_not_lt
        intro tooShort
        have faults := page.key_cursor_of_lt guarded (Nat.le_of_lt below)
          (group_lt place) tooShort
        have reaches : LinearScan.Reaches
            (page.shownBelow target (copiedKey pairs place.group))
            pairs.length scan.index index :=
          { forward := scanned
            within := Nat.le_of_lt below
            passed := fun entry forward before =>
              stops.passed entry forward (Nat.lt_of_lt_of_le before passed) }
        have scanFaults := page.scanToTarget_faults reaches shows faults
        apply not_fault_after safe run (.operate (.seek target))
        rw [Call.apply, Operation.apply, sought, scanFaults]

include safe in
/-- If no run faults, every key that can be shown fits. -/
theorem keysFit_of_safe (guarded : page.memory.guarded = true)
    (order : TotalPreorder page.comparator)
    (sorted : NonDecreasing page.comparator pairs) :
    KeysFit page.comparator pairs := by
  intro index group below inside believable
  rcases believable with ordered | ⟨several, target, someBelow, scanned⟩
  · obtain ⟨calls, place, run, entry, own⟩ :=
      page.reaches_groupStart start inside
    rw [← own]
    exact fits_after safe guarded run
      (Nat.le_trans (Nat.le_of_eq entry) ordered) below
  · cases found : page.startGroup target with
    | none =>
        -- no group starts below the target, so nothing is scanned
        have groups := (one_lt_groupCount_iff pairs).mpr several
        have above := (page.not_below_of_startGroup target found).resolve_left
          (by omega)
        have noneBelow := (page.groupsBelow_eq_zero_iff order sorted
          (nonempty_of_place start) target).mpr above
        omega
    | some first =>
        have count := page.groupsBelow_of_startsAt order sorted
          (page.startsAt_of_startGroup target found)
        rw [count, Nat.add_sub_cancel] at scanned
        exact fits_scan safe guarded found inside scanned below

end Safe

end OpenPage

namespace DataPageReader

/-- Make some calls on a fresh iterator. -/
def performed (memory : Memory) (page : Bytes) (comparator : Compare)
    (calls : List Call) : Program DataPageIterator := do
  let fresh ← newIterator memory page comparator
  fresh.perform calls

/-- On an empty page `seekToLast` reads four bytes before the page. -/
theorem seekToLast_empty (type : PageType) (pageSize address : Nat)
    (comparator : Compare) :
    performed (Memory.enclosed (dataPage type pageSize address []))
        (dataPage type pageSize address []) comparator
        [.operate (.move .seekToLast)] =
      fault (.unreadable (2 ^ 64 - 4)) := by
  have small : offsetAt [] ([] : List Pair).length < 2 ^ 28 := by decide
  have loaded : (Memory.enclosed (dataPage type pageSize address [])).bytes =
      dataPage type pageSize address [] := rfl
  obtain ⟨length, -⟩ := length_dataPage type pageSize address small
  have short : (dataPage type pageSize address []).length ≤
      (2 ^ 64 - 4) % 2 ^ 64 := by
    rw [length]
    decide
  have before : decodeFixed32LeAt
      (Memory.enclosed (dataPage type pageSize address [])) (2 ^ 64 - 4) =
        fault (.unreadable (2 ^ 64 - 4)) := by
    rw [decodeFixed32LeAt, Memory.read_enclosed_past short, fault_bind,
      Nat.mod_eq_of_lt (by decide)]
  have slot : toSize (((offsetAt ([] : List Pair) 0 : Nat) : Int) +
      toInt (UInt32.ofNat 0 - 1) * restartPointTypeSize) = 2 ^ 64 - 4 := by
    decide +kernel
  have opened := newIterator_eq small loaded comparator
  generalize cursor : (openPage small loaded comparator).cursor 0 0 = fresh
    at opened
  have wrapped : fresh.getRestartPointOffset
      (toInt (fresh.restartPointNum - 1)) = 2 ^ 64 - 4 := by
    rw [← cursor]
    exact slot
  have same : fresh.memory =
      Memory.enclosed (dataPage type pageSize address []) := by
    rw [← cursor]
    rfl
  have faults : fresh.seekToLast = fault (.unreadable (2 ^ 64 - 4)) := by
    rw [seekToLast, wrapped, same, before, fault_bind]
  rw [performed, opened, pure_bind, perform, Call.apply, Operation.apply,
    Move.apply, faults, fault_bind]

/-- Two pairs of one group whose keys share a byte. -/
def sharingPairs : List Pair :=
  [([1, 2], [3]), ([1, 4], [])]

end DataPageReader

end LiteLsm
