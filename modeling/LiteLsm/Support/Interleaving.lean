import Mathlib.Algebra.BigOperators.Group.Finset.Piecewise

/-!
# Interleaved lists

Any number of sources extend one list, each by pieces of its own.  Whatever
the turns they take, the list holds the pieces of every source in its order,
and nothing else.
-/

/-- A list made of pieces, with what every source has put into it. -/
inductive Interleaves {ι α : Type} [DecidableEq ι] :
    (ι → List α) → List α → Prop where
  | nil : Interleaves (fun _ => []) []
  | extend {parts : ι → List α} {whole : List α}
      (interleaved : Interleaves parts whole) (source : ι) (piece : List α) :
      Interleaves
        (Function.update parts source (parts source ++ piece))
        (whole ++ piece)

namespace Interleaves

variable {ι α : Type} [DecidableEq ι] {parts : ι → List α} {whole : List α}

theorem sum_length_le (interleaved : Interleaves parts whole)
    (sources : Finset ι) :
    ∑ source ∈ sources, (parts source).length ≤ whole.length := by
  induction interleaved with
  | nil => simp
  | @extend parts whole _ source piece induction =>
      have lengths (other : ι) :
          (Function.update parts source (parts source ++ piece) other).length =
            (parts other).length +
              if other = source then piece.length else 0 := by
        by_cases same : other = source
        · rw [same, Function.update_self, List.length_append, if_pos rfl]
        · rw [Function.update_of_ne same, if_neg same, Nat.add_zero]
      have added : (∑ other ∈ sources,
          if other = source then piece.length else 0) ≤ piece.length := by
        rw [Finset.sum_ite_eq']
        split
        · exact Nat.le_refl _
        · exact Nat.zero_le _
      calc
        _ = ∑ other ∈ sources, ((parts other).length +
              if other = source then piece.length else 0) :=
          Finset.sum_congr rfl fun other _ => lengths other
        _ = (∑ other ∈ sources, (parts other).length) +
              ∑ other ∈ sources, if other = source then piece.length else 0 :=
          Finset.sum_add_distrib
        _ ≤ whole.length + piece.length := Nat.add_le_add induction added
        _ = _ := (List.length_append ..).symm

end Interleaves
