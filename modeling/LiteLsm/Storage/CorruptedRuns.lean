import LiteLsm.Storage.CorruptedPages
import LiteLsm.Storage.InBounds

/-!
# Runs over corrupted pages

Every call leaves a corrupted page open, so the bounds of single calls hold of
whole runs.  A scan to the end calls `next` once for each entry it shows, and
every entry takes at least three bytes, whatever its lengths are.
-/

namespace LiteLsm

open Checked

namespace DataPageIterator

/-- The loop a user reads a page with, from where the iterator stands: show the
pair and go on, as long as the iterator is valid. -/
def readForward (iterator : DataPageIterator) :
    Program (DataPageIterator × List Pair) :=
  whileLoop
    (fun (state : DataPageIterator × List Pair) => pure state.1.valid)
    (fun (state : DataPageIterator × List Pair) => do
      let key ← state.1.key
      let value ← state.1.value
      let moved ← state.1.next
      pure (moved, state.2 ++ [(key, value)]))
    (iterator.restartPointStart / 3 + 1) (iterator, [])

namespace OnPage

variable {iterator : DataPageIterator} (onPage : iterator.OnPage)

include onPage

theorem ensures_value : Ensures iterator.value Anything := by
  apply onPage.ensures_readUnset
  intro prefixLength
  apply onPage.ensures_readUnset
  intro suffixLength
  apply onPage.ensures_readUnset
  intro valueLength
  exact ensures_read onPage.total _ _

theorem ensures_operation (operation : Operation) :
    Ensures (operation.apply iterator) (SamePage iterator) := by
  cases operation with
  | seek target => exact onPage.ensures_seek target
  | move step =>
      cases step with
      | seekToFirst => exact Ensures.pure ⟨{ onPage with }, rfl⟩
      | seekToLast => exact onPage.ensures_seekToLast
      | next =>
          exact onPage.ensures_next.mono fun _ moved => ⟨moved.1, moved.2.1⟩
      | prev => exact onPage.ensures_prev

theorem ensures_call (call : Call) :
    Ensures (call.apply iterator) (SamePage iterator) := by
  have unmoved : SamePage iterator iterator := ⟨onPage, rfl⟩
  cases call with
  | operate operation => exact onPage.ensures_operation operation
  | key =>
      rw [Call.apply]
      split
      · exact onPage.ensures_key.bind fun _ _ => Ensures.pure unmoved
      · exact Ensures.pure unmoved
  | value =>
      rw [Call.apply]
      split
      · exact onPage.ensures_value.bind fun _ _ => Ensures.pure unmoved
      · exact Ensures.pure unmoved

theorem ensures_perform (calls : List Call) :
    Ensures (iterator.perform calls) (SamePage iterator) := by
  induction calls generalizing iterator with
  | nil => exact Ensures.pure ⟨onPage, rfl⟩
  | cons call later induction =>
      apply (onPage.ensures_call call).bind
      intro moved same
      exact (induction same.onPage).mono fun _ last =>
        ⟨last.onPage, last.start.trans same.start⟩

/-- A scan reaches the end within its bound.  It shows no more pairs than
entries of three bytes fit before the restart array. -/
theorem ensures_readForward :
    Ensures iterator.readForward fun final =>
      final.1.valid = false ∧
        3 * final.2.length < iterator.restartPointStart + 3 := by
  have small := onPage.small
  apply Ensures.whileLoop fun passes (state : _ × List Pair) =>
    state.1.OnPage ∧
      state.1.restartPointStart = iterator.restartPointStart ∧
      iterator.restartPointStart < state.1.cur + 3 * passes ∧
      3 * state.2.length ≤ state.1.cur ∧
      3 * state.2.length < iterator.restartPointStart + 3
  · rintro passes ⟨current, shown⟩
      ⟨currentOnPage, sameStart, enough, long, few⟩
    apply Ensures.pure
    dsimp only at sameStart enough long few ⊢
    split
    · rename_i valid
      have inside : current.cur < current.restartPointStart :=
        of_decide_eq_true valid
      refine ⟨passes - 1, by omega, ?_⟩
      apply currentOnPage.ensures_key.bind
      intro key _
      apply currentOnPage.ensures_value.bind
      intro value _
      apply currentOnPage.ensures_next.bind
      rintro moved ⟨movedOnPage, movedStart, forward⟩
      apply Ensures.pure
      have further : current.cur + 3 ≤ moved.cur := forward valid
      refine ⟨movedOnPage, movedStart.trans sameStart, ?_⟩
      rw [List.length_append, List.length_singleton]
      dsimp only
      omega
    · rename_i invalid
      exact ⟨Bool.eq_false_iff.mpr invalid, few⟩
  · refine ⟨onPage, rfl, ?_, Nat.zero_le _, Nat.succ_pos _⟩
    show iterator.restartPointStart <
      iterator.cur + 3 * (iterator.restartPointStart / 3 + 1)
    omega

end OnPage

/-- On a page that has restart points and whose restart array fits, with any
entry bytes, any restart offsets and anything around it, every sequence of
calls returns, and so does a scan from wherever it ends, which shows at most
one pair for every three bytes in front of the restart array. -/
theorem corruptedPage_runs {page : Bytes} (header : 9 ≤ page.length)
    (short : page.length < 2 ^ 31)
    (counted : 1 ≤ (storedRestartPointNum page).toNat)
    (fits : 4 * (storedRestartPointNum page).toNat + 9 ≤ page.length)
    (neighbour : Nat → UInt8) (comparator : Compare) (calls : List Call) :
    let memory := Memory.among (fun address => some (neighbour address)) page
    Safe (DataPageReader.performed memory page comparator calls) ∧
      Ensures (do
        let moved ← DataPageReader.performed memory page comparator calls
        moved.readForward) fun final =>
          final.1.valid = false ∧ 3 * final.2.length <
            page.length - 9 - 4 * (storedRestartPointNum page).toNat + 3 := by
  intro memory
  have opened : DataPageReader.newIterator memory page comparator = _ :=
    construct_among header short fits
      (fun address => some (neighbour address)) comparator
  have onPage : OnPage
      { memory
        dataSize := page.length - 5
        comparator
        cur := 0
        restartPointNum := storedRestartPointNum page
        restartPointStart :=
          page.length - 9 - 4 * (storedRestartPointNum page).toNat
        curRestartPoint := 0 } := {
    total := Memory.total_among page neighbour
    unguarded := rfl
    counted
    few := by
      dsimp only
      omega
    small := by
      dsimp only
      omega
  }
  have ran := onPage.ensures_perform calls
  rw [DataPageReader.performed, opened, pure_bind]
  refine ⟨ran.safe, ran.bind fun moved same => ?_⟩
  have start : moved.restartPointStart =
      page.length - 9 - 4 * (storedRestartPointNum page).toNat := same.start
  rw [← start]
  exact same.onPage.ensures_readForward

/-- A page on which no length of the first entry can be decoded, read after a
search. -/
theorem corruptedPage_runs_undecodable :
    let page := [0x80, 0x80, 0x80, 0x80, 0, 0, 0, 0, 1, 0, 0, 0, 0, 0, 0, 0, 0]
    Ensures (do
      let moved ← DataPageReader.performed
        (Memory.among (fun _ => some 0xff) page) page defaultCompare
        [.operate (.seek [1]), .key]
      moved.readForward) fun final =>
        final.1.valid = false ∧ 3 * final.2.length < 7 := by
  intro page
  exact (corruptedPage_runs
    (show 9 ≤ page.length by decide) (by decide) (by decide) (by decide)
    (fun _ => 0xff) defaultCompare [.operate (.seek [1]), .key]).2

end DataPageIterator

end LiteLsm
