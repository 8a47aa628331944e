import Mathlib.Data.List.GetD

/-!
# Bit arrays in byte strings

Bit `position` of a byte string is bit `position % 8` of its byte
`position / 8`.  Setting bits only ever adds bits, which is what makes a set of
positions readable after any number of further positions were set.
-/

namespace BitArray

def mask (position : Nat) : UInt8 :=
  (1 : UInt8) <<< UInt8.ofNat (position % 8)

def set (array : List UInt8) (position : Nat) : List UInt8 :=
  array.modify (position / 8) (· ||| mask position)

/-- Positions behind the array are not set. -/
def test (array : List UInt8) (position : Nat) : Bool :=
  array.getD (position / 8) 0 &&& mask position != 0

/-- Every bit of the one array is a bit of the other. -/
def Subset (smaller larger : List UInt8) : Prop :=
  ∀ position, test smaller position = true → test larger position = true

theorem Subset.trans {first second third : List UInt8}
    (left : Subset first second) (right : Subset second third) :
    Subset first third :=
  fun position held => right position (left position held)

theorem subset_refl (array : List UInt8) : Subset array array :=
  fun _ held => held

@[simp] theorem length_set (array : List UInt8) (position : Nat) :
    (set array position).length = array.length := by
  simp [set]

theorem mask_ne_zero (position : Nat) : mask position ≠ 0 := by
  have every : ∀ remainder : Fin 8,
      (1 : UInt8) <<< UInt8.ofNat remainder.val ≠ 0 := by
    decide
  exact every ⟨position % 8, Nat.mod_lt _ (by decide)⟩

private theorem or_and_self (byte other : UInt8) :
    (byte ||| other) &&& other = other := by
  apply UInt8.toBitVec_inj.mp
  rw [UInt8.toBitVec_and, UInt8.toBitVec_or]
  ext index inside
  simp only [BitVec.getElem_and, BitVec.getElem_or]
  cases byte.toBitVec[index] <;> cases other.toBitVec[index] <;> rfl

private theorem getD_set (array : List UInt8) (position index : Nat) :
    (set array position).getD index 0 =
      if position / 8 = index ∧ index < array.length then
        array.getD index 0 ||| mask position
      else array.getD index 0 := by
  rw [set, List.getD_eq_getElem?_getD, List.getD_eq_getElem?_getD,
    List.getElem?_modify]
  by_cases same : position / 8 = index
  · by_cases inside : index < array.length
    · simp [same, inside]
    · simp [same, inside]
  · simp [same]

theorem test_set_self {array : List UInt8} {position : Nat}
    (inside : position / 8 < array.length) :
    test (set array position) position = true := by
  rw [test, getD_set, if_pos ⟨rfl, inside⟩, or_and_self, bne_iff_ne]
  exact mask_ne_zero position

theorem subset_set (array : List UInt8) (position : Nat) :
    Subset array (set array position) := by
  intro other held
  rw [test, getD_set]
  split
  · rw [test, bne_iff_ne] at held
    rw [bne_iff_ne]
    intro cleared
    apply held
    -- the byte is contained in the byte with more bits
    calc
      array.getD (other / 8) 0 &&& mask other =
          (array.getD (other / 8) 0 &&&
            (mask position ||| array.getD (other / 8) 0)) &&&
            mask other := by
        rw [UInt8.and_comm (array.getD (other / 8) 0) (_ ||| _), or_and_self]
      _ = array.getD (other / 8) 0 &&&
          ((array.getD (other / 8) 0 ||| mask position) &&&
            mask other) := by
        rw [UInt8.and_assoc, UInt8.or_comm]
      _ = 0 := by rw [cleared, UInt8.and_zero]
  · exact held

theorem subset_append (array rest : List UInt8) :
    Subset array (array ++ rest) := by
  intro position held
  rcases Nat.lt_or_ge (position / 8) array.length with inside | behind
  · rw [test, List.getD_append _ _ _ _ inside]
    exact held
  · rw [test, List.getD_eq_default _ _ behind, UInt8.zero_and] at held
    exact absurd held (by decide)

private theorem modify_append {α : Type} (change : α → α)
    (front back : List α) (index : Nat) :
    (front ++ back).modify (front.length + index) change =
      front ++ back.modify index change := by
  induction front with
  | nil => simp
  | cons head front induction =>
      rw [List.length_cons, Nat.add_right_comm, List.cons_append,
        List.modify_succ_cons, induction, List.cons_append]

private theorem modify_append_left {α : Type} (change : α → α)
    {front : List α} (back : List α) {index : Nat}
    (inside : index < front.length) :
    (front ++ back).modify index change =
      front.modify index change ++ back := by
  induction front generalizing index with
  | nil => exact absurd inside (Nat.not_lt_zero _)
  | cons head front induction =>
      cases index with
      | zero => simp
      | succ index =>
          have later := induction (Nat.lt_of_succ_lt_succ inside)
          rw [List.cons_append, List.modify_succ_cons, List.modify_succ_cons,
            later, List.cons_append]

theorem set_append (front array : List UInt8) (position : Nat) :
    (front ++ array).modify (front.length + position / 8)
        (· ||| mask position) = front ++ set array position :=
  modify_append _ front array (position / 8)

theorem set_append_left {array : List UInt8} (rest : List UInt8)
    {position : Nat} (inside : position / 8 < array.length) :
    set (array ++ rest) position = set array position ++ rest :=
  modify_append_left _ rest inside

private theorem and_mask (first second : Nat) :
    mask first &&& mask second ≠ 0 ↔ first % 8 = second % 8 := by
  have every : ∀ left right : Fin 8,
      ((1 : UInt8) <<< UInt8.ofNat left.val) &&&
          ((1 : UInt8) <<< UInt8.ofNat right.val) ≠ 0 ↔
        left.val = right.val := by
    decide
  exact every ⟨first % 8, Nat.mod_lt _ (by decide)⟩
    ⟨second % 8, Nat.mod_lt _ (by decide)⟩

private theorem or_and_ne_zero (byte other wanted : UInt8) :
    (byte ||| other) &&& wanted ≠ 0 ↔
      byte &&& wanted ≠ 0 ∨ other &&& wanted ≠ 0 := by
  have distributed : (byte ||| other) &&& wanted =
      (byte &&& wanted) ||| (other &&& wanted) := by
    apply UInt8.toBitVec_inj.mp
    rw [UInt8.toBitVec_and, UInt8.toBitVec_or, BitVec.and_or_distrib_right]
    rfl
  rw [distributed, ne_eq, UInt8.or_eq_zero_iff, not_and_or]

/-- Setting a bit sets this bit and no other. -/
theorem test_set {array : List UInt8} {position : Nat}
    (inside : position / 8 < array.length) (other : Nat) :
    test (set array position) other = true ↔
      test array other = true ∨ other = position := by
  simp only [test, getD_set, bne_iff_ne]
  by_cases sameByte : position / 8 = other / 8
  · rw [if_pos ⟨sameByte, sameByte ▸ inside⟩, or_and_ne_zero, and_mask]
    apply or_congr_right
    omega
  · rw [if_neg (fun same => sameByte same.1)]
    constructor
    · exact Or.inl
    · rintro (held | rfl)
      · exact held
      · exact absurd rfl sameByte

/-- Set all bits of a list of positions. -/
def setAll (positions : List Nat) (array : List UInt8) : List UInt8 :=
  positions.foldl set array

theorem setAll_append (first second : List Nat) (array : List UInt8) :
    setAll (first ++ second) array = setAll second (setAll first array) :=
  List.foldl_append

theorem test_setAll {positions : List Nat} {array : List UInt8}
    (inside : ∀ position, position ∈ positions →
      position / 8 < array.length) (other : Nat) :
    test (setAll positions array) other = true ↔
      test array other = true ∨ other ∈ positions := by
  induction positions generalizing array with
  | nil => simp [setAll]
  | cons position positions induction =>
      have first := test_set (inside position (List.mem_cons_self ..)) other
      have inside' : ∀ next, next ∈ positions →
          next / 8 < (set array position).length := by
        intro next member
        rw [length_set]
        exact inside next (List.mem_cons_of_mem _ member)
      have later := induction inside'
      rw [setAll, List.foldl_cons, ← setAll, later, first, List.mem_cons,
        or_assoc]

theorem test_append_left {array : List UInt8} (rest : List UInt8)
    {position : Nat} (inside : position / 8 < array.length) :
    test (array ++ rest) position = test array position := by
  rw [test, List.getD_append _ _ _ _ inside]
  rfl

theorem test_replicate_zero (count position : Nat) :
    test (List.replicate count 0) position = false := by
  have zero : (List.replicate count (0 : UInt8)).getD (position / 8) 0 =
      0 := by
    rw [List.getD_eq_getElem?_getD, List.getElem?_replicate]
    split <;> rfl
  rw [test, zero, UInt8.zero_and]
  rfl

private theorem eq_of_masks {left right : UInt8}
    (same : ∀ position,
      (left &&& mask position != 0) = (right &&& mask position != 0)) :
    left = right := by
  apply UInt8.toBitVec_inj.mp
  apply BitVec.eq_of_getLsbD_eq
  intro index inside
  have power : (mask index).toBitVec = BitVec.twoPow 8 index := by
    have every : ∀ bit : Fin 8,
        ((1 : UInt8) <<< UInt8.ofNat (bit.val % 8)).toBitVec =
          BitVec.twoPow 8 bit.val := by
      decide
    exact every ⟨index, inside⟩
  have bit (byte : UInt8) :
      byte &&& mask index ≠ 0 ↔ byte.toBitVec.getLsbD index = true := by
    rw [ne_eq, ← UInt8.toBitVec_inj, UInt8.toBitVec_and, power,
      BitVec.and_twoPow]
    split
    · rename_i held
      rw [held]
      refine iff_of_true ?_ rfl
      rw [← power]
      intro zero
      exact mask_ne_zero index (UInt8.toBitVec_inj.mp zero)
    · rename_i cleared
      exact iff_of_false (fun nonzero => nonzero rfl) cleared
  rw [Bool.eq_iff_iff, ← bit left, ← bit right, ← bne_iff_ne, ← bne_iff_ne,
    same]

theorem ext {left right : List UInt8} (length : left.length = right.length)
    (same : ∀ position, test left position = test right position) :
    left = right := by
  apply List.ext_getElem length
  intro index inLeft inRight
  apply eq_of_masks
  intro bit
  have here := same (8 * index + bit % 8)
  have byte : (8 * index + bit % 8) / 8 = index := by omega
  have masked : mask (8 * index + bit % 8) = mask bit := by
    rw [mask, mask, Nat.mul_add_mod, Nat.mod_mod]
  simpa [test, byte, masked, List.getD_eq_getElem?_getD,
    List.getElem?_eq_getElem inLeft, List.getElem?_eq_getElem inRight]
    using here

end BitArray
