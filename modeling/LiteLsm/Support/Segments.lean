import Mathlib.Data.List.GetD

/-!
# Segments written one behind the other

A list of segments is flattened into one string, and the position where each
segment starts is remembered.  A segment is what stands between its own start
and the next one; the next start of the last segment is the end of the string.
-/

namespace Segments

variable {α : Type}

/-- Where the segment `index` starts; from the number of segments on, the end
of the string. -/
def start (segments : List (List α)) (index : Nat) : Nat :=
  (segments.take index).flatten.length

def starts (segments : List (List α)) : List Nat :=
  (List.range segments.length).map (start segments)

@[simp] theorem length_starts (segments : List (List α)) :
    (starts segments).length = segments.length := by
  simp [starts]

theorem start_length (segments : List (List α)) :
    start segments segments.length = segments.flatten.length := by
  rw [start, List.take_length]

theorem start_append {segments : List (List α)} (more : List (List α))
    {index : Nat} (within : index ≤ segments.length) :
    start (segments ++ more) index = start segments index := by
  rw [start, List.take_append_of_le_length within, start]

theorem starts_concat (segments : List (List α)) (segment : List α) :
    starts (segments ++ [segment]) =
      starts segments ++ [segments.flatten.length] := by
  have earlier : (List.range segments.length).map
      (start (segments ++ [segment])) = starts segments := by
    apply List.map_congr_left
    intro index member
    exact start_append [segment]
      (Nat.le_of_lt (List.mem_range.mp member))
  rw [starts, List.length_append, List.length_singleton,
    List.range_succ, List.map_append, earlier, List.map_singleton,
    start_append [segment] (Nat.le_refl _), start_length]

theorem start_mono (segments : List (List α)) {index later : Nat}
    (forward : index ≤ later) :
    start segments index ≤ start segments later := by
  obtain ⟨distance, rfl⟩ := Nat.exists_eq_add_of_le forward
  rw [start, start, List.take_add, List.flatten_append, List.length_append]
  exact Nat.le_add_right _ _

theorem start_le (segments : List (List α)) (index : Nat) :
    start segments index ≤ segments.flatten.length := by
  rcases Nat.le_total index segments.length with within | past
  · rw [← start_length]
    exact start_mono segments within
  · exact Nat.le_of_eq (by rw [start, List.take_of_length_le past])

theorem flatten_split {segments : List (List α)} {index : Nat}
    (inside : index < segments.length) :
    ∃ before after, before.length = start segments index ∧
      segments.flatten = before ++ segments[index] ++ after := by
  refine ⟨(segments.take index).flatten,
    (segments.drop (index + 1)).flatten, rfl, ?_⟩
  calc
    segments.flatten =
        (segments.take index ++ segments.drop index).flatten := by
      rw [List.take_append_drop]
    _ = (segments.take index ++
        (segments[index] :: segments.drop (index + 1))).flatten := by
      rw [← List.drop_eq_getElem_cons inside]
    _ = _ := by
      rw [List.flatten_append, List.flatten_cons, List.append_assoc]

theorem start_succ {segments : List (List α)} {index : Nat}
    (inside : index < segments.length) :
    start segments (index + 1) =
      start segments index + segments[index].length := by
  rw [start, List.take_succ_eq_append_getElem inside, List.flatten_append,
    List.length_append, List.flatten_singleton, start]

theorem slice_eq {segments : List (List α)} {index : Nat}
    (inside : index < segments.length) :
    (segments.flatten.drop (start segments index)).take
        (start segments (index + 1) - start segments index) =
      segments[index] := by
  obtain ⟨before, after, length, split⟩ := flatten_split inside
  rw [start_succ inside, Nat.add_sub_cancel_left, split, ← length,
    List.append_assoc, List.drop_left, List.take_left]

theorem slices_eq (segments : List (List α)) :
    ((List.range segments.length).map fun index =>
      (segments.flatten.drop (start segments index)).take
        (start segments (index + 1) - start segments index)) = segments := by
  apply List.ext_getElem
  · simp
  · intro index _ inside
    rw [List.getElem_map, List.getElem_range, slice_eq inside]

end Segments
