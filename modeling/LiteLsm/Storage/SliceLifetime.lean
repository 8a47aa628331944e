import LiteLsm.Storage.EntryEncoding

/-!
# Slices that outlive their bytes

`add` remembers the first key of a group as a slice, and fifteen later calls
compare their keys with whatever that slice denotes by then.  Here the slices
refer to the caller's memory, which may be different in every call.  The page
is the page of the pairs as they were added as long as those comparisons come
out the same.
-/

namespace LiteLsm

open Checked Layout

/-- `Slice()` -/
instance : Inhabited Slice :=
  ⟨{ data := 0, size := 0 }⟩

/-- A byte at every address. -/
abbrev CallerMemory := Nat → UInt8

/-- The bytes a slice denotes. -/
def CallerMemory.bytes (memory : CallerMemory) (slice : Slice) : Bytes :=
  (List.range slice.size).map fun index => memory (slice.data + index)

/-- A call of `add`, with the caller's memory at that time. -/
structure AddCall where
  memory : CallerMemory
  key : Slice
  value : Slice
  deriving Inhabited

/-- What is added, as bytes. -/
def AddCall.pair (call : AddCall) : Pair :=
  (call.memory.bytes call.key, call.memory.bytes call.value)

namespace DataPageBuilder

section Runs

variable {α SliceType : Type} (view : α → SliceType → Bytes)
  (key value : α → SliceType)

/-- One call of `add` after the other, each with its own view of slices. -/
def addAll (builder : DataPageBuilder SliceType) (calls : List α) :
    DataPageBuilder SliceType :=
  calls.foldl
    (fun builder call => builder.add (view call) (key call) (value call))
    builder

variable (builder : DataPageBuilder SliceType)

theorem addAll_concat (calls : List α) (call : α) :
    addAll view key value builder (calls ++ [call]) =
      (addAll view key value builder calls).add (view call) (key call)
        (value call) := by
  simp [addAll]

theorem buffer_isPrefix_addAll (calls : List α) :
    builder.buffer <+: (addAll view key value builder calls).buffer := by
  induction calls using List.reverseRecOn with
  | nil => exact List.prefix_refl _
  | append_singleton calls call induction =>
      rw [addAll_concat, buffer_add]
      exact induction.trans (List.prefix_append _ _)

theorem addAll_take_succ {calls : List α} {index : Nat} {call : α}
    (here : calls[index]? = some call) :
    addAll view key value builder (calls.take (index + 1)) =
      (addAll view key value builder (calls.take index)).add
        (view call) (key call) (value call) := by
  rw [List.take_add_one, here, Option.toList_some, addAll_concat]

theorem buffer_take_isPrefix (calls : List α) (count : Nat) :
    (addAll view key value builder (calls.take count)).buffer <+:
      (addAll view key value builder calls).buffer := by
  have split := List.take_append_drop count calls
  have later := buffer_isPrefix_addAll view key value
    (addAll view key value builder (calls.take count)) (calls.drop count)
  have whole : addAll view key value
      (addAll view key value builder (calls.take count))
        (calls.drop count) = addAll view key value builder calls := by
    rw [addAll, addAll, ← List.foldl_append, split, ← addAll]
  rw [whole] at later
  exact later

variable [Inhabited SliceType] (type : PageType) (pageSize : Nat)

theorem recordNum_addAll (calls : List α) :
    (addAll view key value (ofTypeAndSize type pageSize) calls).recordNum =
      calls.length := by
  induction calls using List.reverseRecOn with
  | nil => rfl
  | append_singleton calls call induction =>
      rw [addAll_concat, recordNum_add, induction, List.length_append]
      rfl

/-- Inside a group the remembered slice is the first key of the group. -/
theorem lastRestartPointKey_addAll {calls : List α}
    (inside : calls.length % restartPointInterval ≠ 0) :
    calls[groupStart calls.length]?.map key =
      some (addAll view key value (ofTypeAndSize type pageSize)
        calls).lastRestartPointKey := by
  induction calls using List.reverseRecOn with
  | nil => exact absurd rfl inside
  | append_singleton calls call induction =>
      rw [List.length_append, List.length_singleton] at inside ⊢
      rw [addAll_concat, lastRestartPointKey_add, recordNum_addAll]
      by_cases restart : calls.length % restartPointInterval = 0
      · have start : groupStart (calls.length + 1) = calls.length := by
          simp only [groupStart, restartPointInterval] at restart inside ⊢
          omega
        rw [if_pos restart, start]
        simp
      · have start : groupStart (calls.length + 1) =
            groupStart calls.length := by
          simp only [groupStart, restartPointInterval] at restart inside ⊢
          omega
        have below : groupStart calls.length < calls.length := by
          simp only [groupStart, restartPointInterval] at restart ⊢
          omega
        rw [if_neg restart, start, List.getElem?_append_left below]
        exact induction restart

/-- The prefix length stored by the call at an index. -/
theorem prefixLength_addAll {calls : List α} {index : Nat} {call first : α}
    (here : calls[index]? = some call)
    (start : calls[groupStart index]? = some first) :
    prefixLength (view call) (key call)
        (addAll view key value (ofTypeAndSize type pageSize)
          (calls.take index)) =
      if index % restartPointInterval = 0 then 0
      else commonPrefix (view call (key call)) (view call (key first)) := by
  obtain ⟨below, -⟩ := List.getElem?_eq_some_iff.mp here
  have length : (calls.take index).length = index :=
    List.length_take_of_le (Nat.le_of_lt below)
  rw [prefixLength, recordNum_addAll, length]
  split
  · rfl
  · rename_i inside
    have before : groupStart index < index := by
      simp only [groupStart, restartPointInterval] at inside ⊢
      omega
    have remembered := lastRestartPointKey_addAll view key value type pageSize
      (show (calls.take index).length % restartPointInterval ≠ 0 by
        rw [length]
        exact inside)
    rw [length, List.getElem?_take_of_lt before, start, Option.map_some]
      at remembered
    rw [← Option.some.inj remembered]

end Runs

section SamePage

variable {LeftSlice RightSlice : Type}

/-- All that `finish` depends on is the same. -/
structure SamePage (left : DataPageBuilder LeftSlice)
    (right : DataPageBuilder RightSlice) : Prop where
  page : left.toPageBuilder = right.toPageBuilder
  recordNum : left.recordNum = right.recordNum
  restartPointOffsets : left.restartPointOffsets = right.restartPointOffsets

variable {left : DataPageBuilder LeftSlice}
  {right : DataPageBuilder RightSlice}

/-- Adding the same bytes with the same prefix length keeps pages the same. -/
theorem SamePage.add (same : SamePage left right)
    {leftView : LeftSlice → Bytes} {rightView : RightSlice → Bytes}
    {leftKey leftValue : LeftSlice} {rightKey rightValue : RightSlice}
    (sameKey : leftView leftKey = rightView rightKey)
    (sameValue : leftView leftValue = rightView rightValue)
    (samePrefix : prefixLength leftView leftKey left =
      prefixLength rightView rightKey right) :
    SamePage (left.add leftView leftKey leftValue)
      (right.add rightView rightKey rightValue) := by
  constructor
  · rw [toPageBuilder_add, toPageBuilder_add, newEntry, newEntry,
      suffixLength, suffixLength, samePrefix, sameKey, sameValue, same.page]
  · rw [recordNum_add, recordNum_add, same.recordNum]
  · rw [restartPointOffsets_add, restartPointOffsets_add, same.recordNum,
      same.restartPointOffsets, same.page]

theorem SamePage.finish (same : SamePage left right)
    (leftAddress rightAddress : Nat) :
    (left.finish leftAddress).buffer = (right.finish rightAddress).buffer := by
  rw [DataPageBuilder.finish, DataPageBuilder.finish, same.page,
    same.restartPointOffsets]
  exact buffer_finish_congr rfl rfl leftAddress rightAddress

theorem buffer_isPrefix_finish (address : Nat)
    (builder : DataPageBuilder LeftSlice) :
    builder.buffer <+: (builder.finish address).buffer := by
  rw [DataPageBuilder.finish]
  obtain ⟨footer, -, appended⟩ := finish_appends address
    { builder.toPageBuilder with
      buffer := builder.restartPointOffsets.foldl
        (fun buffer offset => buffer ++ encodeFixed32Le offset)
          builder.buffer ++
        encodeFixed32Le (UInt32.ofNat builder.restartPointOffsets.length) }
  rw [appended, List.foldl_append_eq_append, List.append_assoc,
    List.append_assoc]
  exact List.prefix_append _ _

end SamePage

/-- A finished page shows the prefix length of each entry behind the entries
before it. -/
theorem prefixLength_isPrefix_finish {α SliceType : Type}
    (view : α → SliceType → Bytes) (key value : α → SliceType)
    (builder : DataPageBuilder SliceType) {calls : List α} {index : Nat}
    {call : α} (here : calls[index]? = some call) (address : Nat) :
    (addAll view key value builder (calls.take index)).buffer ++
        encodeVarint32 (UInt32.ofNat (prefixLength (view call) (key call)
          (addAll view key value builder (calls.take index)))) <+:
      ((addAll view key value builder calls).finish address).buffer := by
  have written := buffer_take_isPrefix view key value builder calls
    (index + 1)
  rw [addAll_take_succ view key value builder here, buffer_add, newEntry,
    header] at written
  simp only [List.append_assoc] at written
  rw [← List.append_assoc] at written
  exact (List.prefix_append _ _).trans
    (written.trans (buffer_isPrefix_finish address _))

/-- The calls of a caller, in order. -/
def addCalls (builder : DataPageBuilder Slice) (calls : List AddCall) :
    DataPageBuilder Slice :=
  addAll (fun call => call.memory.bytes) AddCall.key AddCall.value builder
    calls

def slicePage (type : PageType) (pageSize address : Nat)
    (calls : List AddCall) : Bytes :=
  (((ofTypeAndSize type pageSize).addCalls calls).finish address).buffer

/-- The page is that of the pairs as they were when added, and what an entry
leaves out is common to its key and the first key of its group. -/
structure Faithful (type : PageType) (pageSize address ownAddress : Nat)
    (calls : List AddCall) : Prop where
  page : slicePage type pageSize address calls =
    dataPage type pageSize ownAddress (calls.map AddCall.pair)
  prefixes : ∀ index call first, calls[index]? = some call →
    calls[groupStart index]? = some first →
    let stored := prefixLength call.memory.bytes call.key
      ((ofTypeAndSize type pageSize).addCalls (calls.take index))
    stored ≤ call.pair.1.length ∧ call.pair.1.take stored <+: first.pair.1

/-- In the call at an index, the key shares as many leading bytes with what
the first key's slice denotes now as with the first key when it was added. -/
def KeepsPrefix (calls : List AddCall) (index : Nat) : Prop :=
  ∀ call first, calls[index]? = some call →
    calls[groupStart index]? = some first →
    index % restartPointInterval ≠ 0 →
    commonPrefix call.pair.1 (call.memory.bytes first.key) =
      commonPrefix call.pair.1 first.pair.1

/-- The builder of a caller who keeps every pair in a buffer of its own. -/
private def addCopies (builder : DataPageBuilder Bytes)
    (calls : List AddCall) : DataPageBuilder Bytes :=
  addAll (fun _ => id) (fun call => call.pair.1) (fun call => call.pair.2)
    builder calls

private theorem addCopies_eq (builder : DataPageBuilder Bytes)
    (calls : List AddCall) :
    builder.addCopies calls = builder.addPairs (calls.map AddCall.pair) := by
  rw [addPairs, List.foldl_map]
  rfl

section Calls

variable (type : PageType) (pageSize : Nat) {calls : List AddCall}

private theorem prefixLength_addCalls {index : Nat} {call first : AddCall}
    (here : calls[index]? = some call)
    (start : calls[groupStart index]? = some first) :
    prefixLength call.memory.bytes call.key
        ((ofTypeAndSize type pageSize).addCalls (calls.take index)) =
      if index % restartPointInterval = 0 then 0
      else commonPrefix call.pair.1 (call.memory.bytes first.key) :=
  prefixLength_addAll _ AddCall.key AddCall.value type pageSize here start

private theorem prefixLength_addCopies {index : Nat} {call first : AddCall}
    (here : calls[index]? = some call)
    (start : calls[groupStart index]? = some first) :
    prefixLength id call.pair.1
        ((ofTypeAndSize type pageSize).addCopies (calls.take index)) =
      if index % restartPointInterval = 0 then 0
      else commonPrefix call.pair.1 first.pair.1 := by
  have general := prefixLength_addAll (fun (_ : AddCall) => @id Bytes)
    (fun call => call.pair.1) (fun call => call.pair.2) type pageSize here
    start
  exact general

/-- Every call belongs to a group. -/
private theorem exists_first {index : Nat} {call : AddCall}
    (here : calls[index]? = some call) :
    ∃ first, calls[groupStart index]? = some first := by
  obtain ⟨below, -⟩ := List.getElem?_eq_some_iff.mp here
  have startBelow := Nat.lt_of_le_of_lt (groupStart_le index) below
  exact ⟨_, List.getElem?_eq_getElem startBelow⟩

/-- As long as the comparisons come out the same, so do the pages. -/
private theorem samePage_take {count : Nat}
    (keeps : ∀ index, index < count → KeepsPrefix calls index) :
    SamePage ((ofTypeAndSize type pageSize).addCalls (calls.take count))
      ((ofTypeAndSize type pageSize).addCopies (calls.take count)) := by
  induction count with
  | zero => exact ⟨rfl, rfl, rfl⟩
  | succ count induction =>
      have before := induction fun index below =>
        keeps index (Nat.lt_succ_of_lt below)
      cases here : calls[count]? with
      | none =>
          rw [List.take_add_one, here, Option.toList_none, List.append_nil]
          exact before
      | some call =>
          obtain ⟨first, start⟩ := exists_first here
          have kept := keeps count (Nat.lt_succ_self count) call first here
            start
          rw [addCalls, addCopies, addAll_take_succ _ _ _ _ here,
            addAll_take_succ _ _ _ _ here]
          apply before.add rfl rfl
          rw [prefixLength_addCalls type pageSize here start,
            prefixLength_addCopies type pageSize here start]
          split
          · rfl
          · rename_i inside
            exact kept inside

/-- One direction: the comparisons decide the page. -/
private theorem faithful_of_keeps (address ownAddress : Nat)
    (keeps : ∀ index, KeepsPrefix calls index) :
    Faithful type pageSize address ownAddress calls := by
  constructor
  · have same := samePage_take type pageSize
      (fun index (_ : index < calls.length) => keeps index)
    rw [List.take_length] at same
    rw [slicePage, dataPage, ← addCopies_eq]
    exact same.finish address ownAddress
  · intro index call first here start
    rw [prefixLength_addCalls type pageSize here start]
    split
    · exact ⟨Nat.zero_le _, List.nil_prefix⟩
    · rename_i inside
      have kept := keeps index call first here start inside
      refine ⟨commonPrefix_le_left _ _, ?_⟩
      rw [kept, take_commonPrefix]
      exact List.take_prefix _ _

private theorem encodeVarint32_injective_front {before page : Bytes}
    {left right : UInt32} (leftFront : before ++ encodeVarint32 left <+: page)
    (rightFront : before ++ encodeVarint32 right <+: page) :
    left = right := by
  obtain ⟨leftRest, leftPage⟩ := leftFront
  obtain ⟨rightRest, rightPage⟩ := rightFront
  have whole : before ++ (encodeVarint32 left ++ leftRest) =
      before ++ (encodeVarint32 right ++ rightRest) := by
    rw [← List.append_assoc, ← List.append_assoc, leftPage, rightPage]
  have behind := List.append_cancel_left whole
  have same := (terminated_encodeVarint32 left).eq_of_isPrefix_of_isPrefix
    (terminated_encodeVarint32 right) (List.prefix_append _ leftRest)
    (behind ▸ List.prefix_append _ rightRest)
  apply UInt32.toNat_inj.mp
  rw [← value_encodeVarint32, same, value_encodeVarint32]

/-- The other direction: the page shows each prefix length, up to 32 bits. -/
private theorem keeps_of_samePage (address ownAddress : Nat)
    (fits : ∀ call, call ∈ calls → call.key.size < 2 ^ 32)
    (page : slicePage type pageSize address calls =
      dataPage type pageSize ownAddress (calls.map AddCall.pair))
    (index : Nat) : KeepsPrefix calls index := by
  induction index using Nat.strongRecOn with
  | ind index induction =>
      intro call first here start inside
      have same := samePage_take type pageSize induction
      have left := prefixLength_isPrefix_finish
        (fun (call : AddCall) => call.memory.bytes) AddCall.key AddCall.value
        (ofTypeAndSize type pageSize) here address
      have right := prefixLength_isPrefix_finish
        (fun (_ : AddCall) => @id Bytes) (fun call => call.pair.1)
        (fun call => call.pair.2) (ofTypeAndSize type pageSize) here
        ownAddress
      rw [slicePage, dataPage, ← addCopies_eq, addCalls, addCopies] at page
      rw [addCalls, addCopies] at same
      rw [page, same.page] at left
      have narrow := congrArg UInt32.toNat
        (encodeVarint32_injective_front left right)
      have leftPrefix := prefixLength_addCalls type pageSize here start
      have rightPrefix := prefixLength_addCopies type pageSize here start
      rw [if_neg inside, addCalls] at leftPrefix
      rw [if_neg inside, addCopies] at rightPrefix
      rw [leftPrefix, rightPrefix, UInt32.toNat_ofNat',
        UInt32.toNat_ofNat'] at narrow
      have short : call.pair.1.length < 2 ^ 32 := by
        have length : call.pair.1.length = call.key.size := by
          simp [AddCall.pair, CallerMemory.bytes]
        rw [length]
        exact fits call (List.mem_of_getElem? here)
      have leftShort := commonPrefix_le_left call.pair.1
        (call.memory.bytes first.key)
      have rightShort := commonPrefix_le_left call.pair.1 first.pair.1
      rw [Nat.mod_eq_of_lt (Nat.lt_of_le_of_lt leftShort short),
        Nat.mod_eq_of_lt (Nat.lt_of_le_of_lt rightShort short)] at narrow
      exact narrow

end Calls

/-- A page is faithful to the pairs as they were added if every comparison
with a remembered slice comes out as if the slice still denoted what it did.
For keys whose lengths fit their 32 bits, only then. -/
theorem faithful_iff_keeps (type : PageType)
    (pageSize address ownAddress : Nat) (calls : List AddCall) :
    ((∀ index, KeepsPrefix calls index) →
        Faithful type pageSize address ownAddress calls) ∧
      ((∀ call, call ∈ calls → call.key.size < 2 ^ 32) →
        (Faithful type pageSize address ownAddress calls ↔
          ∀ index, KeepsPrefix calls index)) := by
  have sufficient : (∀ index, KeepsPrefix calls index) →
      Faithful type pageSize address ownAddress calls :=
    faithful_of_keeps type pageSize address ownAddress
  refine ⟨sufficient, fun fits => ⟨?_, sufficient⟩⟩
  intro faithful
  exact keeps_of_samePage type pageSize address ownAddress fits faithful.page

/-- Two keys with a common byte, each in a buffer of its own. -/
theorem faithful_iff_keeps_ownBuffers :
    Faithful .dataPage 0 0 0
      [{ memory := fun address => UInt8.ofNat (address % 2)
         key := { data := 0, size := 2 }
         value := { data := 0, size := 0 } },
       { memory := fun address => UInt8.ofNat (address % 2)
         key := { data := 2, size := 1 }
         value := { data := 3, size := 1 } }] := by
  apply (faithful_iff_keeps .dataPage 0 0 0 _).1
  intro index call first here start inside
  have callMember := List.mem_of_getElem? here
  have firstMember := List.mem_of_getElem? start
  have unchanged : call.memory = first.memory := by
    simp only [List.mem_cons, List.not_mem_nil, or_false] at callMember
    simp only [List.mem_cons, List.not_mem_nil, or_false] at firstMember
    rcases callMember with rfl | rfl <;> rcases firstMember with rfl | rfl <;>
      rfl
  rw [unchanged]
  rfl

/-- The keys "1" and "2" one after the other in the same buffer: the second
entry loses its only byte to a prefix it does not share. -/
theorem faithful_reusedBuffer :
    let calls : List AddCall :=
      [{ memory := fun _ => 0x31
         key := { data := 0, size := 1 }
         value := { data := 1, size := 0 } },
       { memory := fun _ => 0x32
         key := { data := 0, size := 1 }
         value := { data := 1, size := 0 } }]
    slicePage .dataPage 0 0 calls ≠
        dataPage .dataPage 0 0 (calls.map AddCall.pair) ∧
      ¬Faithful .dataPage 0 0 0 calls := by
  intro calls
  have fits : ∀ call, call ∈ calls → call.key.size < 2 ^ 32 := by
    simp [calls]
  have loses : ¬KeepsPrefix calls 1 := by
    intro keeps
    have same := keeps _ _ rfl rfl (by decide)
    exact absurd same (by decide)
  have different : slicePage .dataPage 0 0 calls ≠
      dataPage .dataPage 0 0 (calls.map AddCall.pair) := by
    intro page
    exact loses (keeps_of_samePage .dataPage 0 0 0 fits page 1)
  exact ⟨different, fun faithful => different faithful.page⟩

end DataPageBuilder

end LiteLsm
