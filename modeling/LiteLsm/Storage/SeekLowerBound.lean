import LiteLsm.Storage.RoundTrip
import LiteLsm.Storage.SeekMotion

/-!
# `seek` as a lower bound

On sorted pages a search should end at the first pair whose key is not less
than the target.  A fresh iterator never leaves the first group, so what it
finds is the first such pair in a list where the keys are rebuilt from the
page's first key.  Entry by entry, this is harmless as long as keys below the
target stay below it and the key sought is restored.  On pages of one group
the iterator does not search at all.
-/

namespace LiteLsm

open Checked Layout DataPageIterator DataPageBuilder

namespace Layout

variable (comparator : Compare) (pairs : List Pair) (target : Bytes)

def NonDecreasing : Prop :=
  pairs.Pairwise fun earlier later => comparator earlier.1 later.1 ≤ 0

instance : Decidable (NonDecreasing comparator pairs) :=
  inferInstanceAs (Decidable (pairs.Pairwise fun earlier later =>
    comparator earlier.1 later.1 ≤ 0))

/-- The keys at restart points are in order. -/
def RestartsNonDecreasing : Prop :=
  ∀ later, later < groupCount pairs → ∀ earlier, earlier < later →
    comparator (keyAt pairs (restartPointInterval * earlier))
      (keyAt pairs (restartPointInterval * later)) ≤ 0

/-- Is the pair's key not less than the target? -/
def notBelow (pair : Pair) : Bool :=
  !decide (comparator pair.1 target < 0)

/-- The pairs an iterator shows which believes to be in the first group. -/
def rebuiltPairs : List Pair :=
  (List.range pairs.length).map fun index =>
    (rebuiltKey pairs index, valueAt pairs index)

/-- How many groups have a first key less than the target. -/
def groupsBelow : Nat :=
  (List.range (groupCount pairs)).countP fun group =>
    decide (comparator (keyAt pairs (restartPointInterval * group))
      target < 0)

/-- The first entry whose key is not less than the target. -/
structure FirstNotBelow (index : Nat) : Prop where
  inside : index < pairs.length
  notBelow : ¬comparator (keyAt pairs index) target < 0
  before : ∀ earlier, earlier < index →
    comparator (keyAt pairs earlier) target < 0

/-- From `start` on, rebuilding keys from the page's first key takes no key
below the target up to it, and the bytes left out of the first key that is not
below stand there. -/
structure ScanReads (start : Nat) : Prop where
  below : ∀ index, start ≤ index → index < pairs.length →
    comparator (keyAt pairs index) target < 0 →
      comparator (rebuiltKey pairs index) target < 0
  sought : ∀ index, FirstNotBelow comparator pairs target index →
    (keyAt pairs index).take (sharedLength pairs index) <+:
      firstKeyBytes pairs

/-- No other entry is rebuilt to the pair that is sought. -/
def NoneMistaken : Prop :=
  ∀ wanted, FirstNotBelow comparator pairs target wanted →
    ∀ other, other < pairs.length →
      rebuiltKey pairs other = keyAt pairs wanted →
        valueAt pairs other = valueAt pairs wanted → other = wanted

theorem rebuiltPairs_getElem? {index : Nat} (below : index < pairs.length) :
    (rebuiltPairs pairs)[index]? =
      some (rebuiltKey pairs index, valueAt pairs index) := by
  simp [rebuiltPairs, below]

@[simp] theorem length_rebuiltPairs :
    (rebuiltPairs pairs).length = pairs.length := by
  simp [rebuiltPairs]

/-- Where a linear search from the entry ends. -/
def StopsAt (shown : Nat → Bytes) (start stop : Nat) : Prop :=
  LinearScan.Stops (fun index => decide (comparator (shown index) target < 0))
    pairs.length start stop

theorem exists_stopsAt (comparator : Compare) (pairs : List Pair)
    (target : Bytes) (shown : Nat → Bytes) {start : Nat}
    (inside : start ≤ pairs.length) :
    ∃ stop, StopsAt comparator pairs target shown start stop :=
  ⟨_, LinearScan.stops_stop inside (Nat.le_refl _)⟩

theorem find?_pairs_of_stops {comparator : Compare} {pairs : List Pair}
    {target : Bytes} {start stop : Nat}
    (stops : StopsAt comparator pairs target (keyAt pairs) start stop) :
    (pairs.drop start).find? (notBelow comparator target) = pairs[stop]? := by
  apply LinearScan.find?_drop rfl ?_ stops
  intro index pair found
  simp [notBelow, keyAt, found]

theorem find?_rebuilt_of_stops {comparator : Compare} {pairs : List Pair}
    {target : Bytes} {start stop : Nat}
    (stops : StopsAt comparator pairs target (rebuiltKey pairs) start stop) :
    ((rebuiltPairs pairs).drop start).find? (notBelow comparator target) =
      (rebuiltPairs pairs)[stop]? := by
  apply LinearScan.find?_drop (length_rebuiltPairs pairs) ?_ stops
  intro index pair found
  have inside : index < pairs.length := by
    simpa using (List.getElem?_eq_some_iff.mp found).1
  rw [rebuiltPairs_getElem? pairs inside] at found
  rw [← Option.some.inj found, notBelow, Bool.not_not]

theorem rebuiltKey_zero : rebuiltKey pairs 0 = keyAt pairs 0 := by
  rfl

private theorem find?_eq_first {list : List Pair} {wanted : Pair → Bool}
    {first : Pair} (head : list[0]? = some first)
    (accepted : wanted first = true) : list.find? wanted = some first := by
  cases list with
  | nil => simp at head
  | cons pair rest =>
      have same : pair = first := by simpa using head
      rw [same, List.find?_cons_of_pos accepted]

private theorem countP_range_of_cut {probe : Nat → Bool} {count cut : Nat}
    (within : cut ≤ count)
    (before : ∀ index, index < cut → probe index = true)
    (after : ∀ index, cut ≤ index → index < count → probe index = false) :
    (List.range count).countP probe = cut := by
  obtain ⟨rest, rfl⟩ := Nat.exists_eq_add_of_le within
  have all : (List.range cut).countP probe = cut := by
    have length : (List.range cut).length = cut := List.length_range
    rw [← length] at before
    rw [List.countP_eq_length.mpr, length]
    intro index member
    exact before index (by simpa using member)
  have none_later : ((List.range rest).map (cut + ·)).countP probe = 0 := by
    rw [List.countP_eq_zero]
    intro index member
    obtain ⟨offset, inside, rfl⟩ := List.mem_map.mp member
    have bound := List.mem_range.mp inside
    simp [after (cut + offset) (by omega) (by omega)]
  rw [List.range_add, List.countP_append, all, none_later, Nat.add_zero]

section Sorted

variable {comparator pairs} (order : TotalPreorder comparator)
  (sorted : NonDecreasing comparator pairs)

include order in
theorem not_comparator_self (key : Bytes) : ¬comparator key key < 0 := by
  intro below
  have above := (order.opposite key key).mp below
  omega

include order sorted in
theorem keyAt_monotone {earlier later : Nat} (ordered : earlier ≤ later)
    (inside : later < pairs.length) :
    comparator (keyAt pairs earlier) (keyAt pairs later) ≤ 0 := by
  rcases Nat.lt_or_eq_of_le ordered with strict | rfl
  · have related := List.pairwise_iff_getElem.mp sorted earlier later
      (Nat.lt_trans strict inside) inside strict
    simpa [keyAt, List.getElem?_eq_getElem inside,
      List.getElem?_eq_getElem (Nat.lt_trans strict inside)] using related
  · have reflexive := not_comparator_self order (keyAt pairs earlier)
    rw [order.opposite] at reflexive
    exact Int.not_lt.mp reflexive

include order sorted in
theorem NonDecreasing.restarts : RestartsNonDecreasing comparator pairs := by
  intro later within earlier before
  exact keyAt_monotone order sorted
    (Nat.mul_le_mul_left _ (Nat.le_of_lt before))
    ((lt_groupCount_iff pairs).mp within)

include order sorted in
theorem keyAt_below {target : Bytes} {earlier later : Nat}
    (ordered : earlier ≤ later) (inside : later < pairs.length)
    (below : comparator (keyAt pairs later) target < 0) :
    comparator (keyAt pairs earlier) target < 0 :=
  order.lt_of_le_of_lt (keyAt_monotone order sorted ordered inside) below

include order sorted in
/-- The pairs before the last group that starts below the target do not matter
for the search. -/
theorem find?_drop_of_below {target : Bytes} {start : Nat}
    (inside : start < pairs.length)
    (below : comparator (keyAt pairs start) target < 0) :
    (pairs.drop start).find? (notBelow comparator target) =
      pairs.find? (notBelow comparator target) := by
  have skipped : (pairs.take start).find? (notBelow comparator target) =
      none := by
    rw [List.find?_eq_none]
    intro pair member
    obtain ⟨index, bound, found⟩ := List.mem_take_iff_getElem.mp member
    have before : index < start := by omega
    have earlier := keyAt_below order sorted (Nat.le_of_lt before) inside below
    have key : keyAt pairs index = pair.1 := by
      simp [keyAt, List.getElem?_eq_getElem (Nat.lt_trans before inside), found]
    rw [key] at earlier
    simp [notBelow, earlier]
  calc
    (pairs.drop start).find? (notBelow comparator target) =
        (pairs.take start ++ pairs.drop start).find?
          (notBelow comparator target) := by
      rw [List.find?_append, skipped, Option.none_or]
    _ = pairs.find? (notBelow comparator target) := by
      rw [List.take_append_drop]

section Scan

variable {target : Bytes} {start : Nat} (inside : start < pairs.length)
  (startBelow : comparator (keyAt pairs start) target < 0)

include order sorted inside startBelow in
theorem firstNotBelow_of_stops {stop : Nat} (found : stop < pairs.length)
    (stops : StopsAt comparator pairs target (keyAt pairs) start stop) :
    FirstNotBelow comparator pairs target stop := by
  refine ⟨found, of_decide_eq_false (stops.halted found), ?_⟩
  intro earlier before
  rcases Nat.lt_or_ge earlier start with skipped | reached
  · exact keyAt_below order sorted (Nat.le_of_lt skipped) inside startBelow
  · exact of_decide_eq_true (stops.passed earlier reached before)

theorem FirstNotBelow.le {first index : Nat}
    (found : FirstNotBelow comparator pairs target first)
    (above : ¬comparator (keyAt pairs index) target < 0) : first ≤ index :=
  Nat.not_lt.mp fun before => above (found.before index before)

theorem FirstNotBelow.unique {left right : Nat}
    (leftFound : FirstNotBelow comparator pairs target left)
    (rightFound : FirstNotBelow comparator pairs target right) :
    left = right :=
  Nat.le_antisymm (leftFound.le rightFound.notBelow)
    (rightFound.le leftFound.notBelow)

include order sorted in
theorem FirstNotBelow.lt {first index : Nat}
    (found : FirstNotBelow comparator pairs target first)
    (within : index < pairs.length)
    (below : comparator (keyAt pairs index) target < 0) : index < first :=
  Nat.not_le.mp fun behind =>
    found.notBelow (keyAt_below order sorted behind within below)

include order sorted inside startBelow in
/-- Entries that read so lead the search among the rebuilt keys to the first
candidate, and its key is restored. -/
theorem find?_of_scanReads
    (reads : ScanReads comparator pairs target start) :
    ((rebuiltPairs pairs).drop start).find? (notBelow comparator target) =
      (pairs.drop start).find? (notBelow comparator target) := by
  obtain ⟨stop, stops⟩ := exists_stopsAt comparator pairs target
    (keyAt pairs) (Nat.le_of_lt inside)
  have restored (found : stop < pairs.length) :
      rebuiltKey pairs stop = keyAt pairs stop :=
    (rebuiltKey_eq_iff pairs stop).mpr (reads.sought stop
      (firstNotBelow_of_stops order sorted inside startBelow found stops))
  have rebuilt :
      StopsAt comparator pairs target (rebuiltKey pairs) start stop := by
    refine ⟨⟨stops.forward, stops.within, ?_⟩, ?_⟩
    · intro index reached before
      have below := of_decide_eq_true (stops.passed index reached before)
      have within := Nat.lt_of_lt_of_le before stops.within
      exact decide_eq_true (reads.below index reached within below)
    · intro found
      rw [restored found]
      exact stops.halted found
  rw [find?_rebuilt_of_stops rebuilt, find?_pairs_of_stops stops]
  rcases Nat.lt_or_eq_of_le stops.within with found | behind
  · rw [rebuiltPairs_getElem? pairs found, restored found,
      getElem?_eq_pairAt found]
  · simp [behind]

include order sorted inside startBelow in
/-- If no entry can be mistaken for the one sought, there is no other way to
find it. -/
theorem scanReads_of_find? (distinct : NoneMistaken comparator pairs target)
    (same :
      ((rebuiltPairs pairs).drop start).find? (notBelow comparator target) =
        (pairs.drop start).find? (notBelow comparator target)) :
    ScanReads comparator pairs target start := by
  obtain ⟨stop, stops⟩ := exists_stopsAt comparator pairs target
    (keyAt pairs) (Nat.le_of_lt inside)
  obtain ⟨shown, rebuilt⟩ := exists_stopsAt comparator pairs target
    (rebuiltKey pairs) (Nat.le_of_lt inside)
  rw [find?_rebuilt_of_stops rebuilt, find?_pairs_of_stops stops] at same
  have passes (index : Nat) (reached : start ≤ index) (before : index < shown) :
      comparator (rebuiltKey pairs index) target < 0 :=
    of_decide_eq_true (rebuilt.passed index reached before)
  rcases Nat.lt_or_eq_of_le stops.within with found | behind
  · -- the entry shown is the first candidate
    have first :=
      firstNotBelow_of_stops order sorted inside startBelow found stops
    have within : shown < pairs.length := by
      rw [getElem?_eq_pairAt found] at same
      simpa using (List.getElem?_eq_some_iff.mp same).1
    rw [rebuiltPairs_getElem? pairs within, getElem?_eq_pairAt found] at same
    obtain ⟨key, value⟩ := Prod.mk.inj (Option.some.inj same)
    obtain rfl := distinct stop first shown within key value
    refine ⟨fun index reached within below => ?_, fun index sought => ?_⟩
    · exact passes index reached (first.lt order sorted within below)
    · rw [sought.unique first]
      exact (rebuiltKey_eq_iff pairs shown).mp key
  · -- there is no candidate, and none is shown
    have none_shown : shown = pairs.length := by
      rw [behind, List.getElem?_eq_none (Nat.le_refl _),
        List.getElem?_eq_none_iff, length_rebuiltPairs] at same
      exact Nat.le_antisymm rebuilt.within same
    refine ⟨fun index reached within _ => ?_, fun index sought => ?_⟩
    · exact passes index reached (none_shown ▸ within)
    · have reached : start ≤ index := Nat.not_lt.mp fun before =>
        sought.notBelow
          (keyAt_below order sorted (Nat.le_of_lt before) inside startBelow)
      have before : index < stop := behind ▸ sought.inside
      exact absurd (of_decide_eq_true (stops.passed index reached before))
        sought.notBelow

end Scan

end Sorted

theorem one_lt_groupCount_iff :
    1 < groupCount pairs ↔ restartPointInterval < pairs.length := by
  rw [lt_groupCount_iff, Nat.mul_one]

end Layout

namespace OpenPage

variable {pairs : List Pair} (page : OpenPage pairs)
  (order : TotalPreorder page.comparator)
  (sorted : NonDecreasing page.comparator pairs) {target : Bytes}

include order in
theorem restartBelow_antitone
    (restarts : RestartsNonDecreasing page.comparator pairs)
    {earlier later : Nat} (ordered : earlier ≤ later)
    (inside : later < groupCount pairs)
    (below : page.restartBelow target later = true) :
    page.restartBelow target earlier = true := by
  rcases Nat.lt_or_eq_of_le ordered with before | rfl
  · exact decide_eq_true (order.lt_of_le_of_lt
      (restarts later inside earlier before) (of_decide_eq_true below))
  · exact below

include order sorted in
/-- If a scan starts, it starts in the last group whose first key is less than
the target. -/
theorem groupsBelow_of_startsAt {group : Nat}
    (starts : page.StartsAt target group) :
    groupsBelow page.comparator pairs target = group + 1 := by
  have inside := starts.inside
  apply countP_range_of_cut (by omega)
  · intro earlier before
    exact page.restartBelow_antitone order (sorted.restarts order)
      (Nat.le_of_lt_succ before) inside starts.below
  · intro later after within
    rcases starts.last with atEnd | above
    · omega
    · have notBelow : ¬page.restartBelow target later = true := by
        intro below
        have earlier := page.restartBelow_antitone order
          (sorted.restarts order) after within below
        rw [above] at earlier
        cases earlier
      exact eq_false_of_ne_true notBelow

include order sorted in
theorem groupsBelow_eq_zero_iff (nonempty : pairs ≠ [])
    (target : Bytes) :
    groupsBelow page.comparator pairs target = 0 ↔
      page.restartBelow target 0 = false := by
  have positive := groupCount_pos pairs nonempty
  constructor
  · intro none_below
    have first := List.countP_eq_zero.mp none_below 0
      (List.mem_range.mpr positive)
    exact eq_false_of_ne_true first
  · intro above
    apply countP_range_of_cut (Nat.zero_le _)
    · intro index below
      omega
    · intro later _ within
      have notBelow : ¬page.restartBelow target later = true := by
        intro below
        have earlier := page.restartBelow_antitone order
          (sorted.restarts order) (Nat.zero_le later) within below
        rw [above] at earlier
        cases earlier
      exact eq_false_of_ne_true notBelow

end OpenPage

namespace DataPageReader

/-- Search with a fresh iterator and look at where it ends up. -/
def observeSeek (memory : Memory) (page : Bytes) (comparator : Compare)
    (target : Bytes) : Program (Option Pair) := do
  let iterator ← newIterator memory page comparator
  let found ← iterator.seek target
  found.observe

end DataPageReader

namespace OpenPage

variable {pairs : List Pair} (page : OpenPage pairs)
  (unguarded : page.memory.guarded = false)

include unguarded in
theorem observe_rebuilt {place : Place pairs.length}
    (first : place.group = 0) :
    (page.standing place).observe =
      pure (rebuiltPairs pairs)[place.index]? := by
  rcases Nat.lt_or_eq_of_le place.within with below | behind
  · rw [page.observe_firstGroup unguarded first below,
      rebuiltPairs_getElem? pairs below]
  · rw [page.observe_standing_end behind, List.getElem?_eq_none]
    simp [behind]

include unguarded in
/-- The scan of a fresh iterator is a linear search among the rebuilt pairs. -/
theorem observe_scan (target : Bytes) {group : Nat}
    (inside : group < groupCount pairs) :
    ((page.cursor (restartPointInterval * group) 0).scanToTarget target >>=
        fun found => found.observe) =
      pure (((rebuiltPairs pairs).drop
        (restartPointInterval * group)).find?
          (notBelow page.comparator target)) := by
  have within := (lt_groupCount_iff pairs).mp inside
  have positive := Nat.lt_of_le_of_lt (Nat.zero_le _) within
  let place := (Place.first positive).toGroup within
  have shows (index : Nat) (reaches : LinearScan.Reaches
      (page.shownBelow target (rebuiltKey pairs)) pairs.length place.index
        index) :
      (page.cursor index place.group).key = pure (rebuiltKey pairs index) :=
    page.key_cursor_firstGroup unguarded (nonempty_of_place place)
      reaches.within
  have scan := page.scanToTarget_standing shows
  have stops := page.stops_scanStop target (rebuiltKey pairs) place.within
  let landed := page.landing target (rebuiltKey pairs) place
  have shown : (page.standing landed).observe =
      pure (rebuiltPairs pairs)[landed.index]? :=
    page.observe_rebuilt unguarded rfl
  have search := find?_rebuilt_of_stops stops
  calc
    ((page.standing place).scanToTarget target >>=
        fun found => found.observe) = (page.standing landed).observe := by
      rw [scan, pure_bind]
    _ = pure (rebuiltPairs pairs)[landed.index]? := shown
    _ = _ := congrArg pure search.symm

include unguarded in
theorem observe_seek (target : Bytes) (positive : 0 < pairs.length) :
    ((page.standing (Place.first positive)).seek target >>=
        fun found => found.observe) =
      pure (match page.startGroup target with
        | none => some (keyAt pairs 0, valueAt pairs 0)
        | some group => ((rebuiltPairs pairs).drop
            (restartPointInterval * group)).find?
              (notBelow page.comparator target)) := by
  rw [page.seek_standing]
  cases found : page.startGroup target with
  | none =>
      have first : (Place.first positive).seekToFirst.index = 0 := rfl
      have shown : (page.standing (Place.first positive).seekToFirst).observe =
          pure (rebuiltPairs pairs)[0]? :=
        page.observe_rebuilt unguarded rfl
      rw [rebuiltPairs_getElem? pairs positive, rebuiltKey_zero] at shown
      exact shown
  | some group =>
      exact page.observe_scan unguarded target
        (page.startsAt_of_startGroup target found).inside

/-- A search shows the pair sought if the first one already is, or if its scan
cannot tell rebuilt keys from the keys themselves. -/
theorem found_iff (order : TotalPreorder page.comparator)
    (sorted : NonDecreasing page.comparator pairs) (target : Bytes)
    (positive : 0 < pairs.length) :
    (match page.startGroup target with
      | none => some (keyAt pairs 0, valueAt pairs 0)
      | some group => ((rebuiltPairs pairs).drop
          (restartPointInterval * group)).find?
            (notBelow page.comparator target)) =
        pairs.find? (notBelow page.comparator target) ↔
      page.restartBelow target 0 = false ∨
        ∃ group, page.StartsAt target group ∧
          ((rebuiltPairs pairs).drop (restartPointInterval * group)).find?
              (notBelow page.comparator target) =
            (pairs.drop (restartPointInterval * group)).find?
              (notBelow page.comparator target) := by
  have first := getElem?_eq_pairAt positive
  cases found : page.startGroup target with
  | none =>
      simp only
      have alone := page.not_below_of_startGroup target found
      cases below : page.restartBelow target 0 with
      | false =>
          -- the first pair is the one sought
          have wanted : notBelow page.comparator target
              (keyAt pairs 0, valueAt pairs 0) = true := by
            rw [notBelow, Bool.not_eq_true']
            exact below
          rw [find?_eq_first first wanted]
          exact iff_of_true rfl (Or.inl rfl)
      | true =>
          -- a page of one group is not searched at all
          have unwanted : ¬notBelow page.comparator target
              (keyAt pairs 0, valueAt pairs 0) = true := by
            rw [notBelow, Bool.not_eq_true', Bool.not_eq_false]
            exact below
          rw [below] at alone
          apply iff_of_false
          · intro same
            exact unwanted (List.find?_some same.symm)
          · rintro (absurdity | ⟨group, starts, -⟩)
            · cases absurdity
            · have several := starts.several
              rcases alone with few | absurdity
              · omega
              · cases absurdity
  | some group =>
      have starts := page.startsAt_of_startGroup target found
      have inside := (lt_groupCount_iff pairs).mp starts.inside
      have skipped := find?_drop_of_below order sorted inside
        (of_decide_eq_true starts.below)
      simp only
      rw [← skipped]
      constructor
      · intro same
        exact Or.inr ⟨group, starts, same⟩
      · rintro (above | ⟨other, otherStarts, same⟩)
        · have below := page.restartBelow_antitone order
            (sorted.restarts order) (Nat.zero_le group) starts.inside
            starts.below
          rw [above] at below
          cases below
        · have count := page.groupsBelow_of_startsAt order sorted starts
          rw [page.groupsBelow_of_startsAt order sorted otherStarts] at count
          rw [← Nat.succ.inj count]
          exact same

theorem exists_startsAt {target : Bytes}
    (several : restartPointInterval < pairs.length)
    (below : page.restartBelow target 0 = true) :
    ∃ group, page.StartsAt target group := by
  cases found : page.startGroup target with
  | none =>
      have groups := (one_lt_groupCount_iff pairs).mpr several
      rcases page.not_below_of_startGroup target found with alone | above
      · omega
      · rw [above] at below
        cases below
  | some group => exact ⟨group, page.startsAt_of_startGroup target found⟩

end OpenPage

namespace DataPageReader

/-- A search shows the first pair whose key is not less than the target if the
first key is not, or if there are several groups and the entries from the last
one that starts below the target on read as if their keys were whole.  There is
no other way unless another entry is rebuilt to the pair that is sought. -/
theorem seek_lowerBound_of_scanReads (pairs : List Pair) (nonempty : pairs ≠ [])
    (comparator : Compare) (order : TotalPreorder comparator)
    (sorted : NonDecreasing comparator pairs)
    (small : offsetAt pairs pairs.length < 2 ^ 28) (type : PageType)
    (pageSize address : Nat) (outside : Nat → Option UInt8)
    (target : Bytes) :
    let start := restartPointInterval *
      (groupsBelow comparator pairs target - 1)
    let found :=
      observeSeek (Memory.among outside (dataPage type pageSize address pairs))
          (dataPage type pageSize address pairs) comparator target =
        pure (pairs.find? (notBelow comparator target))
    let reads := ScanReads comparator pairs target start
    (¬comparator (keyAt pairs 0) target < 0 ∨
        restartPointInterval < pairs.length ∧ reads → found) ∧
      (found → ¬comparator (keyAt pairs 0) target < 0 ∨
        restartPointInterval < pairs.length ∧
          (NoneMistaken comparator pairs target → reads)) := by
  intro start found reads
  have positive := List.length_pos_iff.mpr nonempty
  let page : OpenPage pairs := openPage small
    (show (Memory.among outside (dataPage type pageSize address pairs)).bytes =
      dataPage type pageSize address pairs from rfl) comparator
  have shown := page.observe_seek rfl target positive
  have exactly : found ↔ _ := Iff.trans
    (by
      simp only [found]
      rw [observeSeek, newIterator_eq small rfl comparator, pure_bind]
      exact ⟨fun sought => pure_injective (shown.symm.trans sought),
        fun same => shown.trans (congrArg pure same)⟩)
    (page.found_iff order sorted target positive)
  have begins {group : Nat} (starts : page.StartsAt target group) :
      start = restartPointInterval * group := by
    have count := page.groupsBelow_of_startsAt order sorted starts
    simp only [start]
    rw [show groupsBelow comparator pairs target = group + 1 from count,
      Nat.add_sub_cancel]
  rw [exactly]
  constructor
  · rintro (above | ⟨several, readsWell⟩)
    · exact Or.inl (decide_eq_false above)
    · cases below : page.restartBelow target 0 with
      | false => exact Or.inl rfl
      | true =>
          obtain ⟨group, starts⟩ := page.exists_startsAt several below
          exact Or.inr ⟨group, starts, find?_of_scanReads order sorted
            ((lt_groupCount_iff pairs).mp starts.inside)
            (of_decide_eq_true starts.below) (begins starts ▸ readsWell)⟩
  · rintro (above | ⟨group, starts, same⟩)
    · exact Or.inl (of_decide_eq_false above)
    · refine Or.inr ⟨(one_lt_groupCount_iff pairs).mp starts.several,
        fun distinct => ?_⟩
      simp only [reads, begins starts]
      exact scanReads_of_find? order sorted
        ((lt_groupCount_iff pairs).mp starts.inside)
        (of_decide_eq_true starts.below) distinct same

/-- A full group of empty keys, and another one with two keys that share a
byte.  The value of the first pair follows its key in the page. -/
def sharedByte (value : Bytes) : List Pair :=
  List.replicate 16 ([], value) ++ [([1, 5], []), ([1, 7], [])]

/-- The byte that the two keys share also follows the page's first key in one
page, where the last pair is found, but not in the other one. -/
theorem seek_lowerBound_sharedByte :
    observeSeek
        (Memory.among (fun _ => none)
          (dataPage .dataPage defaultPageSize 0 (sharedByte [1])))
        (dataPage .dataPage defaultPageSize 0 (sharedByte [1]))
        defaultCompare [1, 6] = pure (some ([1, 7], [])) ∧
      observeSeek
        (Memory.among (fun _ => none)
          (dataPage .dataPage defaultPageSize 0 (sharedByte [])))
        (dataPage .dataPage defaultPageSize 0 (sharedByte []))
        defaultCompare [1, 6] ≠ pure (some ([1, 7], [])) := by
  constructor
  · have first : FirstNotBelow defaultCompare (sharedByte [1]) [1, 6] 17 :=
      ⟨by decide, by decide +kernel, by decide +kernel⟩
    have reads : ScanReads defaultCompare (sharedByte [1]) [1, 6] 16 := by
      refine ⟨by decide +kernel, fun index found => ?_⟩
      rw [found.unique first]
      decide +kernel
    have sought := (seek_lowerBound_of_scanReads (sharedByte [1]) (by decide)
      defaultCompare totalPreorder_default (by decide +kernel)
      (by decide +kernel) .dataPage defaultPageSize 0 (fun _ => none)
      [1, 6]).1 (Or.inr ⟨by decide, reads⟩)
    exact sought.trans (congrArg pure (by decide +kernel))
  · have first : FirstNotBelow defaultCompare (sharedByte []) [1, 6] 17 :=
      ⟨by decide, by decide +kernel, by decide +kernel⟩
    have distinct : NoneMistaken defaultCompare (sharedByte []) [1, 6] := by
      intro wanted found
      rw [found.unique first]
      decide +kernel
    intro sought
    have expected : (sharedByte []).find? (notBelow defaultCompare [1, 6]) =
        some ([1, 7], []) := by
      decide +kernel
    rcases (seek_lowerBound_of_scanReads (sharedByte []) (by decide)
      defaultCompare totalPreorder_default (by decide +kernel)
      (by decide +kernel) .dataPage defaultPageSize 0 (fun _ => none)
      [1, 6]).2 (sought.trans (congrArg pure expected.symm))
      with above | ⟨-, reads⟩
    · exact absurd above (by decide +kernel)
    · exact absurd ((reads distinct).sought 17 first) (by decide +kernel)

/-- Two pairs in the order of the default comparator. -/
def twoPairs : List Pair :=
  [([0], []), ([1], [])]

/-- On a page of one group the second pair is not found: the search stays at
the first one. -/
theorem seek_lowerBound_oneGroup :
    TotalPreorder defaultCompare ∧ NonDecreasing defaultCompare twoPairs ∧
      offsetAt twoPairs twoPairs.length < 2 ^ 28 ∧
    observeSeek
        (Memory.among (fun _ => none)
          (dataPage .dataPage defaultPageSize 0 twoPairs))
        (dataPage .dataPage defaultPageSize 0 twoPairs) defaultCompare [1] ≠
      pure (twoPairs.find? (notBelow defaultCompare [1])) := by
  refine ⟨totalPreorder_default, by decide +kernel, by decide +kernel,
    fun sought => ?_⟩
  have expected := congrArg (outcome · fun _ => 0) sought
  have shown : outcome (observeSeek
      (Memory.among (fun _ => none)
        (dataPage .dataPage defaultPageSize 0 twoPairs))
      (dataPage .dataPage defaultPageSize 0 twoPairs) defaultCompare [1])
        (fun _ => 0) = .ok (some ([0], [])) := by
    decide +kernel
  rw [shown, outcome_pure] at expected
  exact absurd expected (by decide +kernel)

end DataPageReader

end LiteLsm
