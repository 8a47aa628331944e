import LiteLsm.Support.Program

/-!
# Byte memory around one buffer

Addresses count bytes from the start of a buffer, modulo `2^64`: a pointer
that moves below the buffer wraps to the top of the address space.  What lies
beyond the buffer is a parameter.  With nothing readable there, a program is
`Safe` exactly when it stays inside the buffer; with everything readable,
results hold whatever the neighbouring bytes are.
-/

namespace Checked

/-- A buffer, its surroundings, and whether slices are enforced.  In a guarded
memory reading through a slice past its length is a fault even where the next
bytes are readable. -/
structure Memory where
  bytes : List UInt8
  outside : Nat → Option UInt8
  guarded : Bool

/-- A reference to `size` bytes from the address `data` on. -/
structure Slice where
  data : Nat
  size : Nat
  deriving DecidableEq, Repr

namespace Memory

variable {memory : Memory}

/-- Only the buffer itself can be read, and slices are enforced. -/
def enclosed (bytes : List UInt8) : Memory :=
  { bytes, outside := fun _ => none, guarded := true }

/-- The buffer among arbitrary neighbours, as C++ pointers see it. -/
def among (outside : Nat → Option UInt8) (bytes : List UInt8) : Memory :=
  { bytes, outside, guarded := false }

def byteAt (memory : Memory) (address : Nat) : Option UInt8 :=
  match memory.bytes[address % 2 ^ 64]? with
  | some byte => some byte
  | none => memory.outside (address % 2 ^ 64)

def readByte (memory : Memory) (address : Nat) : Program UInt8 :=
  match memory.byteAt address with
  | some byte => pure byte
  | none => fault (.unreadable (address % 2 ^ 64))

def read (memory : Memory) : Nat → Nat → Program (List UInt8)
  | _, 0 => pure []
  | address, count + 1 => do
      let byte ← memory.readByte address
      let rest ← memory.read (address + 1) count
      pure (byte :: rest)

/-- Copy `count` bytes starting where the slice starts. -/
def readThrough (memory : Memory) (slice : Slice) (count : Nat) :
    Program (List UInt8) :=
  if memory.guarded && decide (slice.size < count) then
    fault (.pastSlice slice.size count)
  else
    memory.read slice.data count

/-- The given bytes stand at the given address. -/
def HoldsAt (memory : Memory) (address : Nat) (bytes : List UInt8) : Prop :=
  ∀ index, index < bytes.length →
    memory.byteAt (address + index) = bytes[index]?

theorem holdsAt_nil (address : Nat) : memory.HoldsAt address [] := by
  intro index below
  exact absurd below (Nat.not_lt_zero index)

theorem holdsAt_cons {address : Nat} {byte : UInt8} {rest : List UInt8} :
    memory.HoldsAt address (byte :: rest) ↔
      memory.byteAt address = some byte ∧
        memory.HoldsAt (address + 1) rest := by
  constructor
  · intro holds
    constructor
    · simpa using holds 0 (by simp)
    · intro index below
      have shifted := holds (index + 1) (by simpa using below)
      simpa [Nat.add_assoc, Nat.add_comm 1 index] using shifted
  · rintro ⟨first, holds⟩ index below
    cases index with
    | zero => simpa using first
    | succ index =>
        have shifted := holds index (by simpa using below)
        simpa [Nat.add_assoc, Nat.add_comm 1 index] using shifted

theorem holdsAt_append {address : Nat} {left right : List UInt8} :
    memory.HoldsAt address (left ++ right) ↔
      memory.HoldsAt address left ∧
        memory.HoldsAt (address + left.length) right := by
  induction left generalizing address with
  | nil => simp [holdsAt_nil]
  | cons byte left induction =>
      simp only [List.cons_append, holdsAt_cons, induction, and_assoc,
        List.length_cons, Nat.add_assoc, Nat.add_comm 1]

theorem holdsAt_take {address : Nat} {bytes : List UInt8}
    (holds : memory.HoldsAt address bytes) (count : Nat) :
    memory.HoldsAt address (bytes.take count) := by
  rw [← List.take_append_drop count bytes] at holds
  exact (holdsAt_append.mp holds).1

theorem holdsAt_drop {address : Nat} {bytes : List UInt8}
    (holds : memory.HoldsAt address bytes) {count : Nat}
    (within : count ≤ bytes.length) :
    memory.HoldsAt (address + count) (bytes.drop count) := by
  rw [← List.take_append_drop count bytes] at holds
  have later := (holdsAt_append.mp holds).2
  rwa [List.length_take, Nat.min_eq_left within] at later

theorem holdsAt_bytes (short : memory.bytes.length ≤ 2 ^ 64) :
    memory.HoldsAt 0 memory.bytes := by
  intro index below
  have bound : index < 2 ^ 64 := Nat.lt_of_lt_of_le below short
  simp only [byteAt, Nat.zero_add, Nat.mod_eq_of_lt bound,
    List.getElem?_eq_getElem below]

theorem readByte_of_byteAt {address : Nat} {byte : UInt8}
    (found : memory.byteAt address = some byte) :
    memory.readByte address = pure byte := by
  simp [readByte, found]

theorem read_of_holdsAt {address : Nat} {bytes : List UInt8}
    (holds : memory.HoldsAt address bytes) :
    memory.read address bytes.length = pure bytes := by
  induction bytes generalizing address with
  | nil => rfl
  | cons byte rest induction =>
      obtain ⟨first, later⟩ := holdsAt_cons.mp holds
      simp [read, readByte_of_byteAt first, induction later]

theorem read_within {address : Nat} {bytes : List UInt8}
    (holds : memory.HoldsAt address bytes) {start count : Nat}
    (within : start + count ≤ bytes.length) :
    memory.read (address + start) count =
      pure ((bytes.drop start).take count) := by
  have there := holdsAt_drop holds
    (Nat.le_trans (Nat.le_add_right start count) within)
  have length : ((bytes.drop start).take count).length = count := by
    rw [List.length_take, List.length_drop]
    omega
  have copied := read_of_holdsAt (holdsAt_take there count)
  rwa [length] at copied

theorem readByte_within {address : Nat} {bytes : List UInt8}
    (holds : memory.HoldsAt address bytes) {index : Nat}
    (within : index < bytes.length) :
    memory.readByte (address + index) = pure bytes[index] := by
  apply readByte_of_byteAt
  rw [holds index within, List.getElem?_eq_getElem within]

theorem readByte_cases (memory : Memory) (address : Nat) :
    (∃ byte, memory.readByte address = pure byte ∧
        memory.byteAt address = some byte) ∨
      ∃ reason, memory.readByte address = fault reason := by
  cases found : memory.byteAt address with
  | some byte => exact Or.inl ⟨byte, readByte_of_byteAt found, rfl⟩
  | none => exact Or.inr ⟨_, by rw [readByte, found]⟩

theorem read_cases (memory : Memory) (address count : Nat) :
    (∃ bytes, memory.read address count = pure bytes ∧
        memory.HoldsAt address bytes ∧ bytes.length = count) ∨
      ∃ reason, memory.read address count = fault reason := by
  induction count generalizing address with
  | zero => exact Or.inl ⟨[], rfl, holdsAt_nil address, rfl⟩
  | succ count induction =>
      rcases memory.readByte_cases address with
        ⟨byte, read, found⟩ | ⟨reason, failed⟩
      · rcases induction (address + 1) with
          ⟨rest, readRest, held, length⟩ | ⟨reason, failed⟩
        · refine Or.inl ⟨byte :: rest, ?_, holdsAt_cons.mpr ⟨found, held⟩,
            congrArg Nat.succ length⟩
          simp [Memory.read, read, readRest]
        · exact Or.inr ⟨reason, by
            rw [Memory.read, read, pure_bind, failed, fault_bind]⟩
      · exact Or.inr ⟨reason, by rw [Memory.read, failed, fault_bind]⟩

theorem readByte_enclosed_past {bytes : List UInt8} {address : Nat}
    (past : bytes.length ≤ address % 2 ^ 64) :
    (enclosed bytes).readByte address =
      fault (.unreadable (address % 2 ^ 64)) := by
  have unreadable : (enclosed bytes).byteAt address = none := by
    simp only [byteAt, enclosed, List.getElem?_eq_none past]
  rw [readByte, unreadable]

theorem read_enclosed_past {bytes : List UInt8} {address count : Nat}
    (past : bytes.length ≤ address % 2 ^ 64) :
    (enclosed bytes).read address (count + 1) =
      fault (.unreadable (address % 2 ^ 64)) := by
  rw [read, readByte_enclosed_past past, fault_bind]

/-- Copying within the slice, or through an unenforced one, reads the bytes
that stand there. -/
theorem readThrough_of_holdsAt {slice : Slice} {bytes : List UInt8}
    (allowed : memory.guarded = true → bytes.length ≤ slice.size)
    (holds : memory.HoldsAt slice.data bytes) :
    memory.readThrough slice bytes.length = pure bytes := by
  have permitted :
      (memory.guarded && decide (slice.size < bytes.length)) = false := by
    cases guard : memory.guarded with
    | false => rfl
    | true => simpa using allowed guard
  simp [readThrough, permitted, read_of_holdsAt holds]

theorem readThrough_past {slice : Slice} {count : Nat}
    (guarded : memory.guarded = true) (past : slice.size < count) :
    memory.readThrough slice count = fault (.pastSlice slice.size count) := by
  simp [readThrough, guarded, past]

/-- The bytes standing at an address, where every address is readable. -/
def peek (memory : Memory) (address count : Nat) : List UInt8 :=
  (List.range count).map fun index =>
    (memory.byteAt (address + index)).getD 0

def Total (memory : Memory) : Prop :=
  ∀ address, (memory.byteAt address).isSome = true

theorem total_among (bytes : List UInt8) (neighbour : Nat → UInt8) :
    (among (fun address => some (neighbour address)) bytes).Total := by
  intro address
  unfold byteAt among
  cases bytes[address % 2 ^ 64]? <;> rfl

@[simp] theorem length_peek (address count : Nat) :
    (memory.peek address count).length = count := by
  simp [peek]

theorem holdsAt_peek (total : memory.Total) (address count : Nat) :
    memory.HoldsAt address (memory.peek address count) := by
  intro index below
  have inRange : index < count := by simpa using below
  have readable := total (address + index)
  simp only [peek, List.getElem?_map, List.getElem?_range inRange,
    Option.map_some]
  cases found : memory.byteAt (address + index) with
  | none => simp [found] at readable
  | some byte => rfl

end Memory

end Checked
