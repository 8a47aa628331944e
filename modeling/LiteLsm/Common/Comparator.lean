import LiteLsm.Common.Coding

/-!
# Comparators

A comparator is a three-way comparison of keys.  Searching relies on its sign
only, and on that sign being a total preorder; the default comparator orders
keys by their unsigned bytes, a shorter key before its extensions.
-/

namespace LiteLsm

/-- A three-way comparison: negative, zero or positive. -/
abbrev Compare := Bytes → Bytes → Int

/-- `a` is not after `b` if their comparison is not positive. -/
structure TotalPreorder (comparator : Compare) : Prop where
  opposite : ∀ a b, comparator a b < 0 ↔ 0 < comparator b a
  trans : ∀ a b c, comparator a b ≤ 0 → comparator b c ≤ 0 →
    comparator a c ≤ 0

namespace TotalPreorder

variable {comparator : Compare}

theorem not_lt_iff (order : TotalPreorder comparator) (a b : Bytes) :
    ¬comparator a b < 0 ↔ comparator b a ≤ 0 := by
  rw [order.opposite, Int.not_lt]

theorem lt_of_le_of_lt (order : TotalPreorder comparator) {a b c : Bytes}
    (notAfter : comparator a b ≤ 0) (before : comparator b c < 0) :
    comparator a c < 0 := by
  apply Decidable.byContradiction
  intro notBefore
  have back := (order.not_lt_iff a c).mp notBefore
  have around := order.trans c a b back notAfter
  exact (order.not_lt_iff b c).mpr around before

end TotalPreorder

/-- The difference of the first bytes that differ among the first `count`. -/
def memcmp : Nat → Bytes → Bytes → Int
  | count + 1, left :: lefts, right :: rights =>
      if left = right then memcmp count lefts rights
      else left.toNat - right.toNat
  | _, _, _ => 0

/-- `Slice::compare` -/
def sliceCompare (a b : Bytes) : Int :=
  let ret := memcmp (min a.length b.length) a b
  if ret = 0 then
    if a.length = b.length then 0
    else if a.length < b.length then -1
    else 1
  else ret

/-- `LiteLsmDefaultComparator::compare` -/
def defaultCompare : Compare :=
  sliceCompare

private theorem difference_ne_zero {left right : UInt8}
    (differ : left ≠ right) : (left.toNat : Int) - right.toNat ≠ 0 := by
  intro zero
  apply differ
  apply UInt8.toNat_inj.mp
  omega

theorem defaultCompare_nil : defaultCompare [] [] = 0 :=
  rfl

theorem defaultCompare_nil_cons (byte : UInt8) (bytes : Bytes) :
    defaultCompare [] (byte :: bytes) = -1 := by
  simp [defaultCompare, sliceCompare, memcmp]

theorem defaultCompare_cons_nil (byte : UInt8) (bytes : Bytes) :
    defaultCompare (byte :: bytes) [] = 1 := by
  simp [defaultCompare, sliceCompare, memcmp]

theorem defaultCompare_cons_cons (left right : UInt8)
    (lefts rights : Bytes) :
    defaultCompare (left :: lefts) (right :: rights) =
      if left = right then defaultCompare lefts rights
      else (left.toNat : Int) - right.toNat := by
  simp only [defaultCompare, sliceCompare, List.length_cons,
    Nat.add_min_add_right, memcmp]
  by_cases same : left = right
  · simp [same]
  · have differ := difference_ne_zero same
    simp [same, differ]

private theorem defaultCompare_opposite (a b : Bytes) :
    defaultCompare a b < 0 ↔ 0 < defaultCompare b a := by
  induction a generalizing b with
  | nil =>
      cases b with
      | nil => simp [defaultCompare_nil]
      | cons right rights =>
          simp [defaultCompare_nil_cons, defaultCompare_cons_nil]
  | cons left lefts induction =>
      cases b with
      | nil => simp [defaultCompare_nil_cons, defaultCompare_cons_nil]
      | cons right rights =>
          rw [defaultCompare_cons_cons, defaultCompare_cons_cons]
          by_cases same : left = right
          · rw [if_pos same, if_pos same.symm]
            exact induction rights
          · rw [if_neg same, if_neg (Ne.symm same)]
            omega

private theorem defaultCompare_trans {a b c : Bytes}
    (first : defaultCompare a b ≤ 0) (second : defaultCompare b c ≤ 0) :
    defaultCompare a c ≤ 0 := by
  induction a generalizing b c with
  | nil =>
      cases c with
      | nil => simp [defaultCompare_nil]
      | cons last lasts => simp [defaultCompare_nil_cons]
  | cons left lefts induction =>
      cases b with
      | nil => simp [defaultCompare_cons_nil] at first
      | cons middle middles =>
          cases c with
          | nil => simp [defaultCompare_cons_nil] at second
          | cons last lasts =>
              rw [defaultCompare_cons_cons] at first second ⊢
              by_cases leftSame : left = middle
              · rw [if_pos leftSame] at first
                by_cases rightSame : middle = last
                · rw [if_pos rightSame] at second
                  rw [if_pos (leftSame.trans rightSame)]
                  exact induction first second
                · rw [if_neg rightSame] at second
                  rw [leftSame, if_neg rightSame]
                  exact second
              · rw [if_neg leftSame] at first
                have distinct : left.toNat ≠ middle.toNat := by
                  intro equal
                  exact leftSame (UInt8.toNat_inj.mp equal)
                have ascending : middle.toNat ≤ last.toNat := by
                  by_cases rightSame : middle = last
                  · exact Nat.le_of_eq (by rw [rightSame])
                  · rw [if_neg rightSame] at second
                    omega
                rw [if_neg (by rintro rfl; omega)]
                omega

theorem totalPreorder_default : TotalPreorder defaultCompare where
  opposite := defaultCompare_opposite
  trans _ _ _ := defaultCompare_trans

/-- `operator ==` of slices -/
def sliceEq (a b : Bytes) : Bool :=
  let ret := sliceCompare a b
  if ret = 0 then true else false

theorem defaultCompare_eq_zero_iff (a b : Bytes) :
    defaultCompare a b = 0 ↔ a = b := by
  induction a generalizing b with
  | nil =>
      cases b with
      | nil => simp [defaultCompare_nil]
      | cons right rights => simp [defaultCompare_nil_cons]
  | cons left lefts induction =>
      cases b with
      | nil => simp [defaultCompare_cons_nil]
      | cons right rights =>
          rw [defaultCompare_cons_cons, List.cons.injEq]
          by_cases same : left = right
          · rw [if_pos same, induction rights]
            simp [same]
          · rw [if_neg same]
            simp [same, difference_ne_zero same]

theorem sliceEq_iff (a b : Bytes) : sliceEq a b = true ↔ a = b := by
  rw [← defaultCompare_eq_zero_iff]
  simp [sliceEq, defaultCompare]

/-- Negative comparisons are the lexicographic order of unsigned bytes. -/
theorem defaultCompare_neg_iff (a b : Bytes) :
    defaultCompare a b < 0 ↔ a < b := by
  induction a generalizing b with
  | nil =>
      cases b with
      | nil => simp [defaultCompare_nil]
      | cons right rights => simp [defaultCompare_nil_cons]
  | cons left lefts induction =>
      cases b with
      | nil => simp [defaultCompare_cons_nil]
      | cons right rights =>
          rw [defaultCompare_cons_cons, List.cons_lt_cons_iff]
          by_cases same : left = right
          · rw [if_pos same, induction rights]
            simp [same, UInt8.lt_irrefl]
          · rw [if_neg same, UInt8.lt_iff_toNat_lt]
            simp only [same, false_and, or_false]
            omega

private theorem defaultCompare_sign_opposite (a b : Bytes) :
    (defaultCompare a b).sign = -(defaultCompare b a).sign := by
  have forward := defaultCompare_opposite a b
  have backward := defaultCompare_opposite b a
  rcases Int.lt_trichotomy (defaultCompare a b) 0 with before | same | after
  · rw [Int.sign_eq_neg_one_of_neg before,
      Int.sign_eq_one_of_pos (forward.mp before)]
  · have mirrored : defaultCompare b a = 0 := by omega
    rw [same, mirrored]
    rfl
  · rw [Int.sign_eq_one_of_pos after,
      Int.sign_eq_neg_one_of_neg (backward.mpr after)]
    rfl

private theorem defaultCompare_lt_trans {a b c : Bytes}
    (first : defaultCompare a b < 0) (second : defaultCompare b c < 0) :
    defaultCompare a c < 0 :=
  totalPreorder_default.lt_of_le_of_lt (Int.le_of_lt first) second

theorem defaultCompare_append (common a b : Bytes) :
    defaultCompare (common ++ a) (common ++ b) = defaultCompare a b := by
  induction common with
  | nil => rfl
  | cons byte bytes induction =>
      rw [List.cons_append, List.cons_append, defaultCompare_cons_cons,
        if_pos rfl, induction]

/-- The default comparator is a total order that identifies only equal byte
strings and looks past a common prefix. -/
theorem defaultCompare_total_order :
    (∀ a b, (defaultCompare a b = 0 ↔ a = b) ∧
      (sliceEq a b = true ↔ defaultCompare a b = 0)) ∧
    (∀ a b, (defaultCompare a b).sign = -(defaultCompare b a).sign) ∧
    (∀ a b c, defaultCompare a b < 0 → defaultCompare b c < 0 →
      defaultCompare a c < 0) ∧
    (∀ common x y, (defaultCompare (common ++ x) (common ++ y)).sign =
      (defaultCompare x y).sign) := by
  constructor
  · intro a b
    constructor
    · exact defaultCompare_eq_zero_iff a b
    · rw [sliceEq_iff, defaultCompare_eq_zero_iff]
  constructor
  · exact defaultCompare_sign_opposite
  constructor
  · intro a b c
    exact defaultCompare_lt_trans
  · intro common x y
    rw [defaultCompare_append]

end LiteLsm
