import LiteLsm.Common.VarintStream

/-!
# Which streams are read back

A byte string that is too long for its prefix is announced with its length
modulo `2^32`, so that a reader takes a shorter one.  This is the only way in
which a stream is not read back.  All others are prefix codes: no two of them
with the same kinds of items have the same bytes, whatever follows.
-/

namespace LiteLsm

open Checked

namespace StreamItem

variable {memory : Memory} {address : Nat}

/-- The first bytes of a string, as many as its prefix announces. -/
def announced (value : Bytes) : Bytes :=
  value.take (value.length % 2 ^ 32)

theorem length_announced (value : Bytes) :
    (announced value).length = value.length % 2 ^ 32 := by
  rw [announced, List.length_take]
  exact Nat.min_eq_left (Nat.mod_le _ _)

theorem get_lengthPrefixed {value rest : Bytes}
    (held : memory.HoldsAt address
      ((lengthPrefixedSlice value).put [] ++ rest)) :
    ∃ left, get memory
        { data := address
          size := ((lengthPrefixedSlice value).put [] ++ rest).length }
        .lengthPrefixedSlice =
      pure (some (lengthPrefixedSlice (announced value), left)) := by
  have number : (UInt32.ofNat value.length).toNat = value.length % 2 ^ 32 := by
    rw [UInt32.toNat_ofNat']
  simp only [put, putLengthPrefixedSlice, putVarint32, List.nil_append,
    List.append_assoc] at held ⊢
  have behind := (Memory.holdsAt_append.mp held).2
  have front := Memory.holdsAt_take (Memory.holdsAt_append.mp behind).1
    (value.length % 2 ^ 32)
  have inside : (announced value).length ≤ (value ++ rest).length := by
    rw [length_announced, List.length_append]
    exact Nat.le_trans (Nat.mod_le _ _) (Nat.le_add_right _ _)
  have copied : memory.readThrough
      { data := _, size := (value ++ rest).length } (announced value).length =
        pure (announced value) :=
    Memory.readThrough_of_holdsAt (fun _ => inside) front
  rw [length_announced] at copied
  rw [get, getVarint32Slice_encode held, pure_bind]
  simp only [number, copied, pure_bind]
  exact ⟨_, rfl⟩

theorem get_inadmissible {item : StreamItem} (tooLong : ¬item.Admissible)
    {rest : Bytes} (held : memory.HoldsAt address (item.put [] ++ rest)) :
    ∃ other left, other ≠ item ∧
      get memory { data := address, size := (item.put [] ++ rest).length }
          item.kind =
        pure (some (other, left)) := by
  cases item with
  | lengthPrefixedSlice value =>
      obtain ⟨left, read⟩ := get_lengthPrefixed held
      refine ⟨_, left, fun same => ?_, read⟩
      have lengths := congrArg List.length
        (StreamItem.lengthPrefixedSlice.inj same)
      rw [length_announced] at lengths
      have small : value.length < 2 ^ 32 := by omega
      exact tooLong small
  | varint32 v => exact absurd trivial tooLong
  | varint64 v => exact absurd trivial tooLong
  | varint64Varint32 v1 v2 => exact absurd trivial tooLong

/-- A stream is read back if and only if its first item and then the others
are. -/
theorem getAll_cons_iff {input left final : Slice} {kind : StreamKind}
    {kinds : List StreamKind} {head item : StreamItem}
    {items : List StreamItem}
    (first : get memory input kind = pure (some (head, left))) :
    getAll memory input (kind :: kinds) =
        pure (some (item :: items, final)) ↔
      head = item ∧ getAll memory left kinds = pure (some (items, final)) := by
  rw [getAll, first, pure_bind]
  constructor
  · intro read
    have atStream (stream : Nat → UInt32) : head = item ∧
        getAll memory left kinds stream =
          .ok (some (items, final), stream) := by
      have result := congrFun read stream
      change (getAll memory left kinds stream >>= _) = _ at result
      cases rest : getAll memory left kinds stream with
      | error reason =>
          rw [rest] at result
          cases result
      | ok pair =>
          obtain ⟨others, after⟩ := pair
          rw [rest] at result
          cases others with
          | none => cases result
          | some others =>
              obtain ⟨list, input⟩ := others
              cases result
              exact ⟨rfl, rfl⟩
    exact ⟨(atStream fun _ => 0).1, funext fun stream => (atStream stream).2⟩
  · rintro ⟨rfl, read⟩
    simp only [read, pure_bind]

/-- A stream is read back, item by item and up to its end, exactly if every
string in it is shorter than `2^32`. -/
theorem getAll_putAll_iff {items : List StreamItem} {rest : Bytes}
    (held : memory.HoldsAt address (putAll [] items ++ rest)) :
    getAll memory
          { data := address, size := (putAll [] items ++ rest).length }
          (items.map kind) =
        pure (some (items, { data := address + (putAll [] items).length
                             size := rest.length })) ↔
      ∀ item, item ∈ items → item.Admissible := by
  induction items generalizing address with
  | nil => exact iff_of_true rfl (by simp)
  | cons item items induction =>
      rw [putAll_cons, List.append_assoc] at held ⊢
      have ends : address + (item.put [] ++ putAll [] items).length =
          address + (item.put []).length + (putAll [] items).length := by
        rw [List.length_append, Nat.add_assoc]
      rw [List.map_cons, List.forall_mem_cons, ends]
      have others := induction (Memory.holdsAt_append.mp held).2
      by_cases admissible : item.Admissible
      · rw [getAll_cons_iff (get_put admissible held), others,
          and_iff_right rfl, and_iff_right admissible]
      · obtain ⟨other, left, differs, read⟩ :=
          get_inadmissible admissible held
        rw [getAll_cons_iff read]
        exact iff_of_false (fun both => differs both.1)
          (fun both => admissible both.1)

/-- A string and a number behind it. -/
theorem getAll_putAll_iff_sample :
    getAll (Memory.enclosed [0x02, 0x61, 0x62, 0xac, 0x02, 0xff])
        { data := 0, size := 6 } [.lengthPrefixedSlice, .varint32] =
      pure (some ([lengthPrefixedSlice [0x61, 0x62], varint32 300],
        { data := 5, size := 1 })) := by
  have held : (Memory.enclosed
      [0x02, 0x61, 0x62, 0xac, 0x02, 0xff]).HoldsAt 0
        (putAll [] [lengthPrefixedSlice [0x61, 0x62], varint32 300] ++
          [0xff]) :=
    Memory.holdsAt_bytes (by decide)
  exact (getAll_putAll_iff held).mpr (by simp [Admissible])

theorem encodeVarint32_prefixFree {v w : UInt32} {rest rest' : Bytes}
    (same : encodeVarint32 v ++ rest = encodeVarint32 w ++ rest') :
    v = w ∧ rest = rest' := by
  have front := congrArg (Base128.leading 5) same
  rw [leading_encodeVarint32, leading_encodeVarint32] at front
  have codes := Option.some.inj front
  have values := congrArg Base128.value codes
  rw [value_encodeVarint32, value_encodeVarint32] at values
  rw [codes] at same
  exact ⟨UInt32.toNat_inj.mp values, List.append_cancel_left same⟩

theorem encodeVarint64_prefixFree {v w : UInt64} {rest rest' : Bytes}
    (same : encodeVarint64 v ++ rest = encodeVarint64 w ++ rest') :
    v = w ∧ rest = rest' := by
  have front := congrArg (Base128.leading 10) same
  rw [leading_encodeVarint64, leading_encodeVarint64] at front
  have codes := Option.some.inj front
  have values := congrArg Base128.value codes
  rw [encodeVarint64_eq, encodeVarint64_eq, Base128.value_encode,
    Base128.value_encode] at values
  rw [codes] at same
  exact ⟨UInt64.toNat_inj.mp values, List.append_cancel_left same⟩

theorem put_prefixFree {item other : StreamItem}
    (kinds : item.kind = other.kind) (admissible : item.Admissible)
    (admissible' : other.Admissible) {rest rest' : Bytes}
    (same : item.put [] ++ rest = other.put [] ++ rest') :
    item = other ∧ rest = rest' := by
  cases item with
  | varint32 v =>
      cases other with
      | varint32 w =>
          obtain ⟨rfl, behind⟩ := encodeVarint32_prefixFree same
          exact ⟨rfl, behind⟩
      | _ => cases kinds
  | varint64 v =>
      cases other with
      | varint64 w =>
          obtain ⟨rfl, behind⟩ := encodeVarint64_prefixFree same
          exact ⟨rfl, behind⟩
      | _ => cases kinds
  | varint64Varint32 v1 v2 =>
      cases other with
      | varint64Varint32 w1 w2 =>
          simp only [put, putVarint64Varint32, List.nil_append,
            List.append_assoc] at same
          obtain ⟨rfl, second⟩ := encodeVarint64_prefixFree same
          obtain ⟨rfl, behind⟩ := encodeVarint32_prefixFree second
          exact ⟨rfl, behind⟩
      | _ => cases kinds
  | lengthPrefixedSlice value =>
      cases other with
      | lengthPrefixedSlice value' =>
          simp only [put, putLengthPrefixedSlice, putVarint32,
            List.nil_append, List.append_assoc] at same
          obtain ⟨lengths, behind⟩ := encodeVarint32_prefixFree same
          have numbers := congrArg UInt32.toNat lengths
          have small : value.length < 2 ^ 32 := admissible
          have small' : value'.length < 2 ^ 32 := admissible'
          simp only [UInt32.toNat_ofNat'] at numbers
          obtain ⟨rfl, after⟩ := List.append_inj behind (by omega)
          exact ⟨rfl, after⟩
      | _ => cases kinds

/-- Streams with the same kinds of items are told apart by their bytes, even
if other bytes follow. -/
theorem putAll_prefixFree {items others : List StreamItem}
    (kinds : items.map kind = others.map kind)
    (admissible : ∀ item, item ∈ items → item.Admissible)
    (admissible' : ∀ item, item ∈ others → item.Admissible)
    {rest rest' : Bytes}
    (same : putAll [] items ++ rest = putAll [] others ++ rest') :
    items = others ∧ rest = rest' := by
  induction items generalizing others with
  | nil =>
      cases others with
      | nil => exact ⟨rfl, same⟩
      | cons other others => cases kinds
  | cons item items induction =>
      cases others with
      | nil => cases kinds
      | cons other others =>
          simp only [List.map_cons, List.cons.injEq] at kinds
          rw [List.forall_mem_cons] at admissible admissible'
          rw [putAll_cons, putAll_cons, List.append_assoc,
            List.append_assoc] at same
          obtain ⟨rfl, behind⟩ :=
            put_prefixFree kinds.1 admissible.1 admissible'.1 same
          obtain ⟨rfl, after⟩ :=
            induction kinds.2 admissible.2 admissible'.2 behind
          exact ⟨rfl, after⟩

/-- A key and a version, with different bytes behind. -/
theorem putAll_prefixFree_versions :
    [lengthPrefixedSlice [0x6b], varint64 7] ≠
        [lengthPrefixedSlice [0x6b], varint64 8] ∧
      ∀ rest rest',
        putAll [] [lengthPrefixedSlice [0x6b], varint64 7] ++ rest ≠
          putAll [] [lengthPrefixedSlice [0x6b], varint64 8] ++ rest' := by
  have differ : [lengthPrefixedSlice [0x6b], varint64 7] ≠
      [lengthPrefixedSlice [0x6b], varint64 8] := by decide
  have short (version : UInt64) : ∀ item,
      item ∈ [lengthPrefixedSlice [0x6b], varint64 version] →
        item.Admissible := by
    simp [Admissible]
  have kinds : [lengthPrefixedSlice [0x6b], varint64 7].map kind =
      [lengthPrefixedSlice [0x6b], varint64 8].map kind := rfl
  refine ⟨differ, fun rest rest' same => differ ?_⟩
  exact (putAll_prefixFree kinds (short 7) (short 8) same).1

end StreamItem

end LiteLsm
