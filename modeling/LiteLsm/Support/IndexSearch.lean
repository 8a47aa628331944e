import Mathlib.Data.Nat.Size
import LiteLsm.Support.Program

/-!
# Searching an interval of indices

Bisection halves an interval with a boolean probe until it is a point.  What
the point satisfies does not depend on any monotonicity of the probe: it is
`true` just before the point and `false` at it, where these are not the ends of
the interval.  For a probe that switches once from `true` to `false`, this
determines the point.

A linear scan advances while the probe is `true` and the end is not reached.
Over a list it finds what `List.find?` finds.
-/

open Checked

namespace Bisection

variable {below : Nat → Bool}

/-- One halving of the interval from `bounds.1` to `bounds.2`. -/
def halve (below : Nat → Bool) (bounds : Nat × Nat) : Nat × Nat :=
  let mid := (bounds.1 + bounds.2) / 2
  if below mid then (mid + 1, bounds.2) else (bounds.1, mid)

def wide (bounds : Nat × Nat) : Bool :=
  decide (bounds.1 < bounds.2)

/-- The number of halvings an interval can take. -/
def halvings (bounds : Nat × Nat) : Nat :=
  Nat.size (bounds.2 - bounds.1)

/-- The point which the interval from `0` to `last` shrinks to. -/
def point (below : Nat → Bool) (passes last : Nat) : Nat :=
  (repeatWhile wide (halve below) passes (0, last)).1

/-- What every interval of a bisection up to `last` satisfies. -/
structure Brackets (below : Nat → Bool) (last : Nat) (bounds : Nat × Nat) :
    Prop where
  ordered : bounds.1 ≤ bounds.2
  within : bounds.2 ≤ last
  lower : bounds.1 = 0 ∨ below (bounds.1 - 1) = true
  upper : bounds.2 = last ∨ below bounds.2 = false

theorem brackets_halve {last : Nat} {bounds : Nat × Nat}
    (brackets : Brackets below last bounds) (continues : wide bounds = true) :
    Brackets below last (halve below bounds) := by
  have strict : bounds.1 < bounds.2 := of_decide_eq_true continues
  have within := brackets.within
  unfold halve
  simp only
  cases probe : below ((bounds.1 + bounds.2) / 2) with
  | false =>
      rw [if_neg (by simp)]
      refine ⟨?_, ?_, brackets.lower, Or.inr probe⟩ <;> simp only <;> omega
  | true =>
      rw [if_pos rfl]
      refine ⟨?_, within, Or.inr ?_, brackets.upper⟩
      · simp only
        omega
      · rw [Nat.add_sub_cancel]
        exact probe

theorem halvings_halve {bounds : Nat × Nat} (continues : wide bounds = true) :
    halvings (halve below bounds) < halvings bounds := by
  have strict : bounds.1 < bounds.2 := of_decide_eq_true continues
  have half : (halve below bounds).2 - (halve below bounds).1 ≤
      (bounds.2 - bounds.1) / 2 := by
    unfold halve
    simp only
    split <;> simp only <;> omega
  have positive : 0 < Nat.size (bounds.2 - bounds.1) :=
    Nat.size_pos.mpr (Nat.sub_pos_of_lt strict)
  obtain ⟨size, count⟩ := Nat.exists_eq_add_one.mpr positive
  have bound : bounds.2 - bounds.1 < 2 ^ (size + 1) := by
    exact Nat.size_le.mp (Nat.le_of_eq count)
  rw [halvings, halvings, count, Nat.lt_succ_iff, Nat.size_le]
  rw [Nat.pow_succ] at bound
  omega

section Point

variable {passes last : Nat} (enough : last < 2 ^ passes)

include enough in
theorem repeatWhile_eq_point :
    repeatWhile wide (halve below) passes (0, last) =
      (point below passes last, point below passes last) := by
  have start : Brackets below last (0, last) :=
    ⟨Nat.zero_le _, Nat.le_refl _, Or.inl rfl, Or.inl rfl⟩
  have brackets := repeatWhile_preserves (fun bounds => brackets_halve) passes
    start
  have exits : wide (repeatWhile wide (halve below) passes (0, last)) =
      false :=
    repeatWhile_exits halvings (fun bounds => halvings_halve)
      (Nat.size_le.mpr enough)
  have narrow := of_decide_eq_false exits
  have ordered := brackets.ordered
  exact Prod.ext rfl (by rw [point]; omega)

include enough in
theorem brackets_point :
    Brackets below last (point below passes last, point below passes last) := by
  have start : Brackets below last (0, last) :=
    ⟨Nat.zero_le _, Nat.le_refl _, Or.inl rfl, Or.inl rfl⟩
  rw [← repeatWhile_eq_point enough]
  exact repeatWhile_preserves (fun bounds => brackets_halve) passes start

end Point

/-- The loop over signed indices, as programs write it: bisection with a probe
that is pure on the interval. -/
theorem whileLoop_eq_point {probe : Int → Program Bool} {passes last : Nat}
    (probes : ∀ index, index ≤ last → probe index = pure (below index))
    (enough : last < 2 ^ passes) :
    whileLoop
        (fun (bounds : Int × Int) => pure (decide (bounds.1 < bounds.2)))
        (fun (bounds : Int × Int) => do
          let mid := (bounds.1 + bounds.2) / 2
          if ← probe mid then pure (mid + 1, bounds.2)
          else pure (bounds.1, mid))
        passes (0, last) =
      pure ((point below passes last : Int),
        (point below passes last : Int)) := by
  have start : Brackets below last (0, last) :=
    ⟨Nat.zero_le _, Nat.le_refl _, Or.inl rfl, Or.inl rfl⟩
  let embed : Nat × Nat → Int × Int := fun bounds => (bounds.1, bounds.2)
  have ends : embed (repeatWhile wide (halve below) passes (0, last)) =
      ((point below passes last : Int), (point below passes last : Int)) := by
    rw [repeatWhile_eq_point enough]
  rw [← ends]
  refine whileLoop_refines embed (Brackets below last) halvings ?_ ?_
    (fun bounds => brackets_halve) (fun bounds => halvings_halve) start
    (Nat.size_le.mpr enough)
  · intro bounds brackets
    simp only [embed, wide, Int.ofNat_lt]
  · intro bounds brackets continues
    have strict : bounds.1 < bounds.2 := of_decide_eq_true continues
    have within := brackets.within
    have middle : ((bounds.1 : Int) + bounds.2) / 2 =
        ((bounds.1 + bounds.2) / 2 : Nat) := by
      omega
    have probed := probes ((bounds.1 + bounds.2) / 2) (by omega)
    simp only [embed, middle, probed, pure_bind, halve]
    cases below ((bounds.1 + bounds.2) / 2) with
    | false => rfl
    | true => rfl

end Bisection

namespace LinearScan

variable {below : Nat → Bool}

def continues (below : Nat → Bool) (last index : Nat) : Bool :=
  decide (index < last) && below index

/-- Where a scan from `start` towards `last` ends. -/
def stop (below : Nat → Bool) (last passes start : Nat) : Nat :=
  repeatWhile (continues below last) (· + 1) passes start

/-- An index which a scan from `start` can reach. -/
structure Reaches (below : Nat → Bool) (last start index : Nat) : Prop where
  forward : start ≤ index
  within : index ≤ last
  passed : ∀ earlier, start ≤ earlier → earlier < index →
    below earlier = true

/-- The scan passes over every index where the probe holds, and over no
other. -/
structure Stops (below : Nat → Bool) (last start stop : Nat) : Prop
    extends Reaches below last start stop where
  halted : stop < last → below stop = false

theorem reaches_step {last start index : Nat}
    (reaches : Reaches below last start index)
    (going : continues below last index = true) :
    Reaches below last start (index + 1) := by
  have forward := reaches.forward
  simp only [continues, Bool.and_eq_true, decide_eq_true_eq] at going
  refine ⟨by omega, going.1, fun earlier later before => ?_⟩
  rcases Nat.lt_succ_iff_lt_or_eq.mp before with passed | rfl
  · exact reaches.passed earlier later passed
  · exact going.2

theorem remaining_step {last index : Nat}
    (going : continues below last index = true) :
    last - (index + 1) < last - index := by
  simp only [continues, Bool.and_eq_true, decide_eq_true_eq] at going
  omega

theorem reaches_start {last start : Nat} (inside : start ≤ last) :
    Reaches below last start start :=
  ⟨Nat.le_refl _, inside, fun earlier _ _ => by omega⟩

theorem stops_stop {last passes start : Nat} (inside : start ≤ last)
    (enough : last - start ≤ passes) :
    Stops below last start (stop below last passes start) := by
  have reaches : Reaches below last start (stop below last passes start) :=
    repeatWhile_preserves (fun index => reaches_step) passes
      (reaches_start inside)
  have exits : continues below last (stop below last passes start) = false :=
    repeatWhile_exits (fun index => last - index)
      (fun index => remaining_step) enough
  refine ⟨reaches, fun below_last => ?_⟩
  simpa [continues, below_last] using exits

theorem Stops.reaches_le {last start stop index : Nat}
    (stops : Stops below last start stop)
    (reaches : Reaches below last start index) : index ≤ stop := by
  apply Nat.le_of_not_lt
  intro behind
  have passed := reaches.passed stop stops.forward behind
  have halted := stops.halted (Nat.lt_of_lt_of_le behind reaches.within)
  rw [halted] at passed
  cases passed

theorem find?_drop {α : Type} {list : List α} {wanted : α → Bool}
    {last start stop : Nat} (whole : list.length = last)
    (probe : ∀ index element,
      list[index]? = some element → below index = !wanted element)
    (scan : Stops below last start stop) :
    (list.drop start).find? wanted = list[stop]? := by
  subst whole
  obtain ⟨distance, rfl⟩ := Nat.exists_eq_add_of_le scan.forward
  induction distance generalizing start with
  | zero =>
      rw [Nat.add_zero] at scan ⊢
      rcases Nat.lt_or_eq_of_le scan.within with inside | behind
      · have element := List.getElem?_eq_getElem inside
        have found := probe start _ element
        rw [scan.halted inside] at found
        rw [List.drop_eq_getElem_cons inside, element,
          List.find?_cons_of_pos (by simpa using found.symm)]
      · rw [behind, List.drop_length, List.getElem?_eq_none (Nat.le_refl _)]
        rfl
  | succ distance induction =>
      have inside : start < list.length := by
        have within := scan.within
        omega
      have element := List.getElem?_eq_getElem inside
      have skipped := probe start _ element
      rw [scan.passed start (Nat.le_refl _) (by omega)] at skipped
      have shifted : start + (distance + 1) = start + 1 + distance := by
        omega
      rw [List.drop_eq_getElem_cons inside,
        List.find?_cons_of_neg (by simpa using skipped.symm)]
      rw [shifted] at scan ⊢
      exact induction
        { forward := Nat.le_add_right _ _
          within := scan.within
          passed := fun index later earlier =>
            scan.passed index (Nat.le_of_succ_le later) earlier
          halted := scan.halted }

end LinearScan
