import LiteLsm.Storage.CursorMotion

/-!
# Corrupted pages do not hang the iterator

Nothing is assumed of the entry bytes and the restart offsets.  What bounds
the scans is that no parsed entry is shorter than three bytes, even where a
length could not be decoded and is whatever the variable held before; and that
it is short enough for no sum to wrap around.  What bounds the binary search
is the restart count, which the size of the page keeps small.
-/

namespace LiteLsm

open Checked

section Parsing

variable {memory : Memory} (total : memory.Total)

include total in
theorem ensures_read (address count : Nat) :
    Ensures (memory.read address count) Anything := by
  have copied := Memory.read_of_holdsAt
    (Memory.holdsAt_peek total address count)
  rw [Memory.length_peek] at copied
  rw [copied]
  exact Ensures.pure trivial

include total in
theorem ensures_readThrough (unguarded : memory.guarded = false)
    (slice : Slice) (count : Nat) :
    Ensures (memory.readThrough slice count) Anything := by
  rw [Memory.readThrough, unguarded]
  exact ensures_read total slice.data count

include total in
theorem ensures_decodeFixed32LeAt (buf : Nat) :
    Ensures (decodeFixed32LeAt memory buf) Anything := by
  apply (ensures_read total buf 4).bind
  intro bytes _
  exact Ensures.pure trivial

end Parsing

/-- An iterator at any position and with any restart index, where everything
can be read.  There is a restart point, and no more of them and no more entry
bytes than fit into a page below `2^31` bytes. -/
structure DataPageIterator.OnPage (iterator : DataPageIterator) : Prop where
  total : iterator.memory.Total
  unguarded : iterator.memory.guarded = false
  counted : 1 ≤ iterator.restartPointNum.toNat
  few : iterator.restartPointNum.toNat < 2 ^ 29
  small : iterator.restartPointStart < 2 ^ 31

namespace DataPageIterator

/-- What a call leaves: an iterator on the same page. -/
structure SamePage (iterator moved : DataPageIterator) : Prop where
  onPage : moved.OnPage
  start : moved.restartPointStart = iterator.restartPointStart

/-- The bounds of what `getEntrySize` can return. -/
def EntrySize (size : Nat) : Prop :=
  3 ≤ size ∧ size < 2 ^ 34

namespace OnPage

variable {iterator : DataPageIterator}

theorem ensures_readLength (onPage : iterator.OnPage) (cur : Nat) :
    Ensures (iterator.readLength cur) Anything := by
  have decoded := getVarint32_eq
    (Memory.holdsAt_peek onPage.total cur innerLengthTypeSize)
  rw [Memory.length_peek] at decoded
  rw [readLength, decoded]
  exact Ensures.pure trivial

theorem ensures_readUnset (onPage : iterator.OnPage) (cur : Nat) {α : Type}
    {next : UInt32 → Program α} {post : α → Prop}
    (continues : ∀ length, Ensures (next length) post) :
    Ensures (do
      let length ← (← iterator.readLength cur).getDM unset
      next length) post := by
  apply (onPage.ensures_readLength cur).bind
  intro read _
  apply Ensures.getDM.bind
  intro length _
  exact continues length

private theorem varintLength_bounds (length : UInt32) :
    1 ≤ varintLength length.toUInt64 ∧ varintLength length.toUInt64 ≤ 5 := by
  rw [varintLength_toUInt64]
  exact ⟨length_encodeVarint32_pos length, length_encodeVarint32_le length⟩

/-- Every entry has three length fields, whatever they contain. -/
theorem ensures_getEntrySize (onPage : iterator.OnPage)
    (entryOffset : Nat) :
    Ensures (iterator.getEntrySize entryOffset) EntrySize := by
  apply onPage.ensures_readUnset
  intro prefixLength
  apply (onPage.ensures_readLength _).bind
  intro suffixRead _
  apply (onPage.ensures_readLength _).bind
  intro valueRead _
  apply Ensures.pure
  have prefixBounds := varintLength_bounds prefixLength
  have suffixBounds := varintLength_bounds (suffixRead.getD prefixLength)
  have valueBounds := varintLength_bounds
    (valueRead.getD (suffixRead.getD prefixLength))
  have suffixSmall := (suffixRead.getD prefixLength).toNat_lt
  have valueSmall :=
    (valueRead.getD (suffixRead.getD prefixLength)).toNat_lt
  constructor <;> omega

theorem ensures_getRestartPointEntry (onPage : iterator.OnPage)
    (restartPoint : Int) :
    Ensures (iterator.getRestartPointEntry restartPoint) (· < 2 ^ 32) := by
  apply (ensures_decodeFixed32LeAt onPage.total _).bind
  intro entry _
  exact Ensures.pure entry.toNat_lt

theorem ensures_getRestartPointKey (onPage : iterator.OnPage)
    (restartPoint : Int) :
    Ensures (iterator.getRestartPointKey restartPoint) Anything := by
  apply (onPage.ensures_getRestartPointEntry restartPoint).bind
  intro entry _
  apply onPage.ensures_readUnset
  intro prefixLength
  apply onPage.ensures_readUnset
  intro keyLength
  apply (onPage.ensures_readLength _).bind
  intro valueRead _
  exact Ensures.pure trivial

theorem ensures_key (onPage : iterator.OnPage) :
    Ensures iterator.key Anything := by
  apply onPage.ensures_readUnset
  intro prefixLength
  apply onPage.ensures_readUnset
  intro suffixLength
  apply onPage.ensures_readUnset
  intro valueLength
  apply (onPage.ensures_getRestartPointKey _).bind
  intro restartKey _
  apply (ensures_readThrough onPage.total onPage.unguarded _ _).bind
  intro leading _
  apply (ensures_read onPage.total _ _).bind
  intro suffix _
  exact Ensures.pure trivial

/-- A pass of the scan moves on by at least three bytes and stays below the
bound, so a third of the bound is enough for all of them. -/
theorem ensures_scanBelow (onPage : iterator.OnPage) {bound curEntry : Nat}
    (within : bound ≤ iterator.restartPointStart)
    (entry : curEntry < 2 ^ 32) :
    Ensures (iterator.scanBelow bound curEntry) Anything := by
  have small := onPage.small
  apply Ensures.whileLoop fun passes curEntry =>
    curEntry < 2 ^ 35 ∧ bound ≤ curEntry + 3 * passes
  · rintro passes curEntry ⟨near, enough⟩
    apply (onPage.ensures_getEntrySize curEntry).bind
    rintro size ⟨least, most⟩
    apply Ensures.pure
    have unwrapped : (curEntry + size) % 2 ^ 64 = curEntry + size :=
      Nat.mod_eq_of_lt (by omega)
    rw [unwrapped]
    split
    · rename_i continues
      have below : curEntry + size < bound := of_decide_eq_true continues
      refine ⟨passes - 1, by omega, ?_⟩
      -- the second call may find other lengths than the first
      apply (onPage.ensures_getEntrySize curEntry).bind
      rintro again ⟨least, most⟩
      apply Ensures.pure
      rw [Nat.mod_eq_of_lt (by omega)]
      omega
    · trivial
  · omega

theorem ensures_next (onPage : iterator.OnPage) :
    Ensures iterator.next fun moved =>
      moved.OnPage ∧ moved.restartPointStart = iterator.restartPointStart ∧
        (iterator.valid = true → iterator.cur + 3 ≤ moved.cur) := by
  rw [next]
  split
  · rename_i valid
    have inside : iterator.cur < iterator.restartPointStart :=
      of_decide_eq_true valid
    have small := onPage.small
    apply (onPage.ensures_getEntrySize iterator.cur).bind
    rintro size ⟨least, most⟩
    have unwrapped : (iterator.cur + size) % 2 ^ 64 = iterator.cur + size :=
      Nat.mod_eq_of_lt (by omega)
    simp only [unwrapped]
    split
    · apply Ensures.pure
      exact ⟨{ onPage with }, rfl,
        fun _ => Nat.add_le_add_left least iterator.cur⟩
    · apply Ensures.pure
      exact ⟨{ onPage with }, rfl,
        fun _ => Nat.add_le_add_left least iterator.cur⟩
  · rename_i invalid
    apply Ensures.pure
    exact ⟨onPage, rfl, fun valid => absurd valid invalid⟩

theorem ensures_scanToTarget (onPage : iterator.OnPage) (target : Bytes) :
    Ensures (iterator.scanToTarget target) (SamePage iterator) := by
  apply onPage.ensures_key.bind
  intro key _
  refine (Ensures.whileLoop (fun passes state =>
      state.1.OnPage ∧
        state.1.restartPointStart = iterator.restartPointStart ∧
        iterator.restartPointStart < state.1.cur + 3 * passes)
    ?_ ?_ : Ensures _ fun state => SamePage iterator state.1).bind
      fun final kept => Ensures.pure kept
  · rintro passes ⟨current, shown⟩ ⟨currentOnPage, sameStart, enough⟩
    apply Ensures.pure
    split
    · rename_i continues
      have valid : current.valid = true := by
        simp only [Bool.and_eq_true] at continues
        exact continues.1
      have inside : current.cur < current.restartPointStart :=
        of_decide_eq_true valid
      dsimp only at sameStart enough
      refine ⟨passes - 1, by omega, ?_⟩
      apply currentOnPage.ensures_next.bind
      rintro moved ⟨movedOnPage, movedStart, forward⟩
      apply movedOnPage.ensures_key.bind
      intro key _
      apply Ensures.pure
      have further : current.cur + 3 ≤ moved.cur := forward valid
      exact ⟨movedOnPage, movedStart.trans sameStart, by
        dsimp only
        omega⟩
    · exact ⟨currentOnPage, sameStart⟩
  · exact ⟨onPage, rfl, by
      dsimp only
      omega⟩

theorem ensures_restartPointBelow (onPage : iterator.OnPage)
    (target : Bytes) (index : Int) :
    Ensures (iterator.restartPointBelow target index) Anything := by
  apply (onPage.ensures_getRestartPointKey index).bind
  intro slice _
  apply (ensures_readThrough onPage.total onPage.unguarded _ _).bind
  intro key _
  exact Ensures.pure trivial

/-- The number of restart points before the last one. -/
private theorem last_eq (onPage : iterator.OnPage) :
    toInt (iterator.restartPointNum - 1) =
      (iterator.restartPointNum.toNat - 1 : Nat) := by
  have counted := onPage.counted
  have few := onPage.few
  have last : (iterator.restartPointNum - 1).toNat =
      iterator.restartPointNum.toNat - 1 := by
    rw [UInt32.toNat_sub, UInt32.toNat_one]
    omega
  rw [OpenPage.toInt_of_lt (by omega), last]

/-- The search interval is halved in each pass and ends in a single restart
point. -/
theorem ensures_searchRestartPoint (onPage : iterator.OnPage)
    (target : Bytes) :
    Ensures (iterator.searchRestartPoint target) Anything := by
  rw [searchRestartPoint, onPage.last_eq]
  refine (Ensures.whileLoop (fun passes bounds =>
      bounds.1 ≤ bounds.2 ∧ bounds.2 - bounds.1 < 2 ^ passes)
    ?_ ?_ : Ensures _ fun bounds => bounds.1 = bounds.2).bind ?_
  · rintro passes ⟨left, right⟩ ⟨ordered, narrow⟩
    apply Ensures.pure
    dsimp only at ordered narrow ⊢
    split
    · rename_i continues
      have apart : left < right := of_decide_eq_true continues
      cases passes with
      | zero =>
          rw [Int.pow_zero] at narrow
          omega
      | succ passes =>
          rw [Int.pow_succ] at narrow
          refine ⟨passes, rfl, ?_⟩
          apply (onPage.ensures_restartPointBelow target _).bind
          intro below _
          cases below with
          | true =>
              apply Ensures.pure
              dsimp only
              omega
          | false =>
              apply Ensures.pure
              dsimp only
              omega
    · rename_i stops
      have met : ¬left < right :=
        fun apart => stops (decide_eq_true apart)
      omega
  · have few := onPage.few
    dsimp only
    omega
  · rintro ⟨left, right⟩ same
    rw [if_pos same]
    exact Ensures.pure trivial

theorem ensures_startRestartPoint (onPage : iterator.OnPage)
    (target : Bytes) (left : Int) :
    Ensures (iterator.startRestartPoint target left) Anything := by
  rw [startRestartPoint]
  split
  · apply (onPage.ensures_restartPointBelow target left).bind
    intro below _
    cases below <;> exact Ensures.pure trivial
  · exact Ensures.pure trivial

theorem ensures_seekToLast (onPage : iterator.OnPage) :
    Ensures iterator.seekToLast (SamePage iterator) := by
  apply (ensures_decodeFixed32LeAt onPage.total _).bind
  intro entry _
  apply (onPage.ensures_scanBelow (Nat.le_refl _) entry.toNat_lt).bind
  intro curEntry _
  exact Ensures.pure ⟨{ onPage with }, rfl⟩

theorem ensures_prev (onPage : iterator.OnPage) :
    Ensures iterator.prev (SamePage iterator) := by
  rw [prev]
  split
  · rename_i valid
    have inside : iterator.cur < iterator.restartPointStart :=
      of_decide_eq_true valid
    split
    · exact Ensures.pure ⟨{ onPage with }, rfl⟩
    · apply (onPage.ensures_getRestartPointEntry _).bind
      intro entry _
      apply (onPage.ensures_getRestartPointEntry _).bind
      intro curEntry near
      apply (onPage.ensures_scanBelow (Nat.le_of_lt inside) near).bind
      intro curEntry _
      exact Ensures.pure ⟨{ onPage with }, rfl⟩
  · exact Ensures.pure ⟨onPage, rfl⟩

theorem ensures_seek (onPage : iterator.OnPage) (target : Bytes) :
    Ensures (iterator.seek target) (SamePage iterator) := by
  rw [seek]
  split
  · exact Ensures.pure ⟨onPage, rfl⟩
  · apply (onPage.ensures_searchRestartPoint target).bind
    intro left _
    split
    · exact Ensures.pure ⟨{ onPage with }, rfl⟩
    · apply (onPage.ensures_startRestartPoint target left).bind
      intro start _
      apply (ensures_decodeFixed32LeAt onPage.total _).bind
      intro cur _
      have moved : OnPage { iterator with cur := cur.toNat } :=
        { onPage with }
      exact (moved.ensures_scanToTarget target).mono fun _ same =>
        ⟨same.onPage, same.start⟩

end OnPage

/-- The restart count that a page stores in front of its footer. -/
def storedRestartPointNum (page : Bytes) : UInt32 :=
  decodeFixed32Le (page.drop (page.length - 9))

theorem construct_among {page : Bytes} (header : 9 ≤ page.length)
    (short : page.length < 2 ^ 31)
    (fits : 4 * (storedRestartPointNum page).toNat + 9 ≤ page.length)
    (outside : Nat → Option UInt8) (comparator : Compare) :
    construct (Memory.among outside page) page.length comparator =
      pure
        { memory := Memory.among outside page
          dataSize := page.length - 5
          comparator
          cur := 0
          restartPointNum := storedRestartPointNum page
          restartPointStart :=
            page.length - 9 - 4 * (storedRestartPointNum page).toNat
          curRestartPoint := 0 } := by
  have held : (Memory.among outside page).HoldsAt 0 page :=
    Memory.holdsAt_bytes (by
      have length : (Memory.among outside page).bytes.length = page.length :=
        rfl
      omega)
  have size : toSize ((page.length : Int) - pageFooterSize) =
      page.length - 5 := by
    rw [toSize_of_lt] <;> simp only [pageFooterSize] <;> omega
  have address : toSize (((page.length - 5 : Nat) : Int) -
      innerCountTypeSize) = 0 + (page.length - 9) := by
    rw [toSize_of_lt] <;> simp only [innerCountTypeSize] <;> omega
  have count : decodeFixed32LeAt (Memory.among outside page)
      (0 + (page.length - 9)) = pure (storedRestartPointNum page) := by
    rw [decodeFixed32LeAt, Memory.read_within held (by omega), pure_bind,
      storedRestartPointNum, decodeFixed32Le, decodeFixed32Le,
      List.take_take, Nat.min_self]
  have product : (storedRestartPointNum page).toNat * restartPointTypeSize %
      2 ^ 32 = 4 * (storedRestartPointNum page).toNat := by
    rw [restartPointTypeSize, Nat.mul_comm]
    exact Nat.mod_eq_of_lt (by omega)
  have start : toSize (((page.length - 5 : Nat) : Int) - innerCountTypeSize -
      (4 * (storedRestartPointNum page).toNat : Nat)) =
        page.length - 9 - 4 * (storedRestartPointNum page).toNat := by
    rw [toSize_of_lt] <;> simp only [innerCountTypeSize] <;> omega
  simp only [construct, size, address, count, pure_bind, product, start]

/-- On a page whose restart array fits, with any entry bytes, any restart
offsets and anything around it, every call on an iterator in any state ends
within the bounds of its loops, and the assertion of `seek` holds. -/
theorem corruptedPage_safe {page : Bytes} (header : 9 ≤ page.length)
    (short : page.length < 2 ^ 31)
    (counted : 1 ≤ (storedRestartPointNum page).toNat)
    (fits : 4 * (storedRestartPointNum page).toNat + 9 ≤ page.length)
    (neighbour : Nat → UInt8) (comparator : Compare) :
    ∃ opened,
      construct (Memory.among (fun address => some (neighbour address)) page)
        page.length comparator = pure opened ∧
      opened.restartPointStart =
        page.length - 9 - 4 * (storedRestartPointNum page).toNat ∧
      ∀ (cur : Nat) (curRestartPoint : Int),
        Safe (seekToLast { opened with cur, curRestartPoint }) ∧
          Safe (next { opened with cur, curRestartPoint }) ∧
          Safe (prev { opened with cur, curRestartPoint }) ∧
          ∀ target,
            Safe (seek { opened with cur, curRestartPoint } target) := by
  refine ⟨_, construct_among header short fits _ comparator, rfl, ?_⟩
  intro cur curRestartPoint
  have onPage : OnPage
      { memory :=
          Memory.among (fun address => some (neighbour address)) page
        dataSize := page.length - 5
        comparator
        cur
        restartPointNum := storedRestartPointNum page
        restartPointStart :=
          page.length - 9 - 4 * (storedRestartPointNum page).toNat
        curRestartPoint } := {
    total := Memory.total_among page neighbour
    unguarded := rfl
    counted
    few := by
      dsimp only
      omega
    small := by
      dsimp only
      omega
  }
  exact ⟨onPage.ensures_seekToLast.safe, onPage.ensures_next.safe,
    onPage.ensures_prev.safe, fun target => (onPage.ensures_seek target).safe⟩

/-- A page on which no length of the first entry can be decoded. -/
theorem corruptedPage_safe_undecodable :
    ∃ opened,
      construct (Memory.among (fun _ => some 0xff)
          [0x80, 0x80, 0x80, 0x80, 0, 0, 0, 0, 1, 0, 0, 0, 0, 0, 0, 0, 0])
        17 defaultCompare = pure opened ∧
      opened.restartPointStart = 4 ∧
      ∀ (cur : Nat) (curRestartPoint : Int),
        Safe (seekToLast { opened with cur, curRestartPoint }) ∧
          Safe (next { opened with cur, curRestartPoint }) ∧
          Safe (prev { opened with cur, curRestartPoint }) ∧
          ∀ target,
            Safe (seek { opened with cur, curRestartPoint } target) :=
  corruptedPage_safe
    (show 9 ≤ List.length [0x80, 0x80, 0x80, 0x80, 0, 0, 0, 0, 1, 0, 0, 0,
      0, 0, 0, 0, 0] by decide)
    (by decide) (by decide) (by decide) (fun _ => 0xff) defaultCompare

end DataPageIterator

end LiteLsm
