import LiteLsm.Common.Coding

/-!
# Streams of varints

Writers append to a string without any framing between the items; a reader
has to know their kinds.  Each item is read back exactly and the slice is left
at the next one, so a whole stream can be read in the order it was written.
-/

namespace LiteLsm

open Checked

/-- The writer functions. -/
inductive StreamKind where
  | varint32
  | varint64
  | varint64Varint32
  | lengthPrefixedSlice
  deriving DecidableEq, Repr

/-- A writer function with its arguments. -/
inductive StreamItem where
  | varint32 (v : UInt32)
  | varint64 (v : UInt64)
  | varint64Varint32 (v1 : UInt64) (v2 : UInt32)
  | lengthPrefixedSlice (value : Bytes)
  deriving DecidableEq, Repr

namespace StreamItem

def kind : StreamItem → StreamKind
  | varint32 _ => .varint32
  | varint64 _ => .varint64
  | varint64Varint32 _ _ => .varint64Varint32
  | lengthPrefixedSlice _ => .lengthPrefixedSlice

def put (dst : Bytes) : StreamItem → Bytes
  | varint32 v => putVarint32 dst v
  | varint64 v => putVarint64 dst v
  | varint64Varint32 v1 v2 => putVarint64Varint32 dst v1 v2
  | lengthPrefixedSlice value => putLengthPrefixedSlice dst value

/-- A byte string has to be shorter than its prefix can say. -/
def Admissible : StreamItem → Prop
  | lengthPrefixedSlice value => value.length < 2 ^ 32
  | _ => True

/-- Read an item of the given kind and advance the slice past it.  Behind a
length prefix the announced number of bytes is taken. -/
def get (memory : Memory) (input : Slice) :
    StreamKind → Program (Option (StreamItem × Slice))
  | .varint32 => do
      let some (v, input) ← getVarint32Slice memory input | pure none
      pure (some (varint32 v, input))
  | .varint64 => do
      let some (v, input) ← getVarint64 memory input | pure none
      pure (some (varint64 v, input))
  | .varint64Varint32 => do
      let some (v1, input) ← getVarint64 memory input | pure none
      let some (v2, input) ← getVarint32Slice memory input | pure none
      pure (some (varint64Varint32 v1 v2, input))
  | .lengthPrefixedSlice => do
      let some (length, input) ← getVarint32Slice memory input | pure none
      let value ← memory.readThrough input length.toNat
      pure (some (lengthPrefixedSlice value,
        { data := input.data + length.toNat
          size := input.size - length.toNat }))

def putAll (dst : Bytes) (items : List StreamItem) : Bytes :=
  items.foldl put dst

def getAll (memory : Memory) (input : Slice) :
    List StreamKind → Program (Option (List StreamItem × Slice))
  | [] => pure (some ([], input))
  | kind :: kinds => do
      let some (item, input) ← get memory input kind | pure none
      let some (items, input) ← getAll memory input kinds | pure none
      pure (some (item :: items, input))

theorem put_eq (dst : Bytes) (item : StreamItem) :
    item.put dst = dst ++ item.put [] := by
  cases item with
  | varint32 v => rfl
  | varint64 v => rfl
  | varint64Varint32 v1 v2 => rfl
  | lengthPrefixedSlice value => exact List.append_assoc _ _ _

theorem putAll_cons (item : StreamItem) (items : List StreamItem) :
    putAll [] (item :: items) = item.put [] ++ putAll [] items := by
  have general (dst : Bytes) :
      putAll dst items = dst ++ putAll [] items := by
    induction items generalizing dst with
    | nil => exact (List.append_nil dst).symm
    | cons next items induction =>
        calc
          putAll dst (next :: items) = putAll (next.put dst) items := rfl
          _ = next.put dst ++ putAll [] items := induction _
          _ = dst ++ (next.put [] ++ putAll [] items) := by
            rw [put_eq, List.append_assoc]
          _ = dst ++ putAll [] (next :: items) :=
            congrArg (dst ++ ·) (induction (next.put [])).symm
  exact general (item.put [])

section Reading

variable {memory : Memory} {address : Nat}

theorem getVarint32Slice_encode {v : UInt32} {rest : Bytes}
    (held : memory.HoldsAt address (encodeVarint32 v ++ rest)) :
    getVarint32Slice memory
        { data := address, size := (encodeVarint32 v ++ rest).length } =
      pure (some (v, { data := address + (encodeVarint32 v).length
                       size := rest.length })) := by
  rw [getVarint32Slice_eq held, leading_encodeVarint32, Option.map_some,
    value_encodeVarint32, UInt32.ofNat_toNat, List.length_append,
    Nat.add_sub_cancel_left]

theorem getVarint64_encode {v : UInt64} {rest : Bytes}
    (held : memory.HoldsAt address (encodeVarint64 v ++ rest)) :
    getVarint64 memory
        { data := address, size := (encodeVarint64 v ++ rest).length } =
      pure (some (v, { data := address + (encodeVarint64 v).length
                       size := rest.length })) := by
  have value : Base128.value (encodeVarint64 v) = v.toNat := by
    rw [encodeVarint64_eq, Base128.value_encode]
  rw [getVarint64_eq held, leading_encodeVarint64, Option.map_some,
    value, UInt64.ofNat_toNat, List.length_append, Nat.add_sub_cancel_left]

theorem get_put {item : StreamItem} (admissible : item.Admissible)
    {rest : Bytes} (held : memory.HoldsAt address (item.put [] ++ rest)) :
    get memory { data := address, size := (item.put [] ++ rest).length }
        item.kind =
      pure (some (item, { data := address + (item.put []).length
                          size := rest.length })) := by
  cases item with
  | varint32 v =>
      simp only [kind, get, put, putVarint32, List.nil_append] at held ⊢
      rw [getVarint32Slice_encode held, pure_bind]
  | varint64 v =>
      simp only [kind, get, put, putVarint64, List.nil_append] at held ⊢
      rw [getVarint64_encode held, pure_bind]
  | varint64Varint32 v1 v2 =>
      simp only [kind, get, put, putVarint64Varint32, List.nil_append,
        List.append_assoc] at held ⊢
      have second := (Memory.holdsAt_append.mp held).2
      rw [getVarint64_encode held, pure_bind]
      simp only [getVarint32Slice_encode second, pure_bind]
      rw [List.length_append, Nat.add_assoc]
  | lengthPrefixedSlice value =>
      have announced : (UInt32.ofNat value.length).toNat = value.length := by
        rw [UInt32.toNat_ofNat']
        exact Nat.mod_eq_of_lt admissible
      simp only [kind, get, put, putLengthPrefixedSlice, putVarint32,
        List.nil_append, List.append_assoc] at held ⊢
      have behind := Memory.holdsAt_append.mp held
      have inside : value.length ≤ (value ++ rest).length := by
        rw [List.length_append]
        exact Nat.le_add_right _ _
      have copied : memory.readThrough
          { data := _, size := (value ++ rest).length } value.length =
            pure value :=
        Memory.readThrough_of_holdsAt (fun _ => inside)
          (Memory.holdsAt_append.mp behind.2).1
      rw [getVarint32Slice_encode held, pure_bind]
      simp only [announced, copied, pure_bind]
      simp only [List.length_append, Nat.add_sub_cancel_left, Nat.add_assoc]

/-- Reading a stream back in the order it was written returns every item and
leaves the slice at the bytes behind the stream. -/
theorem getAll_putAll {items : List StreamItem}
    (admissible : ∀ item, item ∈ items → item.Admissible) {rest : Bytes}
    (held : memory.HoldsAt address (putAll [] items ++ rest)) :
    getAll memory
          { data := address, size := (putAll [] items ++ rest).length }
          (items.map kind) =
        pure (some (items, { data := address + (putAll [] items).length
                             size := rest.length })) ∧
      memory.HoldsAt (address + (putAll [] items).length) rest := by
  refine ⟨?_, (Memory.holdsAt_append.mp held).2⟩
  induction items generalizing address with
  | nil => rfl
  | cons item items induction =>
      rw [putAll_cons, List.append_assoc] at held ⊢
      have first := get_put (admissible item (List.mem_cons_self ..)) held
      have others := induction
        (fun other member => admissible other (List.mem_cons_of_mem _ member))
        (Memory.holdsAt_append.mp held).2
      simp only [List.map_cons, getAll, first, pure_bind, others]
      rw [List.length_append, Nat.add_assoc]

/-- One item of each kind, with a byte behind them. -/
theorem getAll_putAll_oneOfEach :
    getAll
        (Memory.enclosed
          [0xac, 0x02, 0xac, 0x02, 0x05, 0x07, 0x02, 0x61, 0x62, 0xff])
        { data := 0, size := 10 }
        [.varint32, .varint64, .varint64Varint32, .lengthPrefixedSlice] =
      pure (some
        ([varint32 300, varint64 300, varint64Varint32 5 7,
          lengthPrefixedSlice [0x61, 0x62]], { data := 9, size := 1 })) := by
  have two : encodeVarint64 300 = [0xac, 0x02] := by
    rw [encodeVarint64, if_pos (by decide), encodeVarint64,
      if_neg (by decide)]
    decide
  have one : encodeVarint64 5 = [0x05] := by
    rw [encodeVarint64, if_neg (by decide)]
    decide
  have written : putAll [] [varint32 300, varint64 300, varint64Varint32 5 7,
      lengthPrefixedSlice [0x61, 0x62]] =
        [0xac, 0x02, 0xac, 0x02, 0x05, 0x07, 0x02, 0x61, 0x62] := by
    simp only [putAll, List.foldl, put, putVarint64, putVarint64Varint32, two,
      one]
    decide
  have admissible : ∀ item, item ∈ [varint32 300, varint64 300,
      varint64Varint32 5 7, lengthPrefixedSlice [0x61, 0x62]] →
        item.Admissible := by
    simp [Admissible]
  have held : (Memory.enclosed
      [0xac, 0x02, 0xac, 0x02, 0x05, 0x07, 0x02, 0x61, 0x62, 0xff]).HoldsAt 0
        (putAll [] [varint32 300, varint64 300, varint64Varint32 5 7,
          lengthPrefixedSlice [0x61, 0x62]] ++ [0xff]) := by
    rw [written]
    exact Memory.holdsAt_bytes (by decide)
  have run := (getAll_putAll admissible held).1
  rw [written] at run
  exact run

end Reading

end StreamItem

end LiteLsm
