import LiteLsm.Support.WordMixing
import LiteLsm.Util.Bloom

/-!
# Keys that do not collide

Each pass of `Hash` over four bytes, and the switch behind the loop, is
injective in the register and in the bytes it takes.  Two keys of one length
which differ only inside one group of four bytes, or only behind the last
group, therefore have different hashes, whatever surrounds the difference.
-/

namespace LiteLsm

namespace Hash

/-- One pass of the loop. -/
def pass (h w : UInt32) : UInt32 :=
  let h := (h + w) * 0xc6a4a793
  h ^^^ (h >>> 16)

/-- What the switch behind the loop adds for the remaining bytes. -/
def rest (b0 b1 b2 : UInt8) (h : UInt32) : UInt32 :=
  h + (b2.toUInt32 <<< 16) + (b1.toUInt32 <<< 8) + b0.toUInt32

section Unfolding

variable (b0 b1 b2 b3 : UInt8) (data : Bytes) (h : UInt32)

theorem hashLoop_four :
    hashLoop (b0 :: b1 :: b2 :: b3 :: data) h =
      hashLoop data (pass h (decodeFixed32Le [b0, b1, b2, b3])) :=
  hashLoop.eq_def _ _

theorem hashLoop_three :
    hashLoop [b0, b1, b2] h = hashLoop.finish (rest b0 b1 b2 h) :=
  hashLoop.eq_def _ _

theorem hashLoop_two :
    hashLoop [b0, b1] h = hashLoop.finish (rest b0 b1 0 h) := by
  have zero : h + ((0 : UInt8).toUInt32 <<< 16) = h := UInt32.add_zero h
  rw [rest, zero]
  exact hashLoop.eq_def _ _

theorem hashLoop_one :
    hashLoop [b0] h = hashLoop.finish (rest b0 0 0 h) := by
  have zero : h + ((0 : UInt8).toUInt32 <<< 16) +
      ((0 : UInt8).toUInt32 <<< 8) = h := by
    exact (UInt32.add_zero _).trans (UInt32.add_zero h)
  rw [rest, zero]
  exact hashLoop.eq_def _ _

theorem hashLoop_nil : hashLoop [] h = h :=
  hashLoop.eq_def _ _

end Unfolding

theorem toBitVec_pass (h w : UInt32) :
    (pass h w).toBitVec =
      WordMixing.mix 0xc6a4a793#32 16 (h + w).toBitVec := by
  simp only [pass, WordMixing.mix, UInt32.toBitVec_xor, UInt32.toBitVec_mul,
    UInt32.toBitVec_shiftRight]
  rfl

theorem toBitVec_finish (h : UInt32) :
    (hashLoop.finish h).toBitVec =
      WordMixing.mix 0xc6a4a793#32 24 h.toBitVec := by
  simp only [hashLoop.finish, WordMixing.mix, UInt32.toBitVec_xor,
    UInt32.toBitVec_mul, UInt32.toBitVec_shiftRight]
  rfl

private theorem factor_odd : (0xc6a4a793#32).toNat % 2 = 1 := by
  decide

theorem pass_inj {h h' w w' : UInt32} (same : pass h w = pass h' w') :
    h + w = h' + w' := by
  have mixed := congrArg UInt32.toBitVec same
  rw [toBitVec_pass, toBitVec_pass] at mixed
  exact UInt32.toBitVec_inj.mp
    (WordMixing.mix_injective factor_odd (by decide) mixed)

theorem finish_injective : Function.Injective hashLoop.finish := by
  intro left right same
  have mixed := congrArg UInt32.toBitVec same
  rw [toBitVec_finish, toBitVec_finish] at mixed
  exact UInt32.toBitVec_inj.mp
    (WordMixing.mix_injective factor_odd (by decide) mixed)

theorem toNat_shifted (byte : UInt8) :
    (byte.toUInt32 <<< 8).toNat = byte.toNat * 2 ^ 8 ∧
      (byte.toUInt32 <<< 16).toNat = byte.toNat * 2 ^ 16 := by
  have small := byte.toNat_lt
  simp only [UInt32.toNat_shiftLeft, UInt8.toNat_toUInt32,
    UInt32.reduceToNat, Nat.reduceMod, Nat.shiftLeft_eq]
  constructor
  · omega
  · omega

theorem toNat_rest (b0 b1 b2 : UInt8) (h : UInt32) :
    (rest b0 b1 b2 h).toNat =
      (h.toNat + (b2.toNat * 2 ^ 16 + b1.toNat * 2 ^ 8 + b0.toNat)) %
        2 ^ 32 := by
  obtain ⟨second, third⟩ := toNat_shifted b1
  obtain ⟨second', third'⟩ := toNat_shifted b2
  rw [rest, UInt32.toNat_add, UInt32.toNat_add, UInt32.toNat_add, second,
    third', UInt8.toNat_toUInt32]
  omega

theorem rest_injective (b0 b1 b2 : UInt8) :
    Function.Injective (rest b0 b1 b2) := by
  intro left right same
  have sums := congrArg UInt32.toNat same
  rw [toNat_rest, toNat_rest] at sums
  have leftBound := left.toNat_lt
  have rightBound := right.toNat_lt
  exact UInt32.toNat_inj.mp (by omega)

theorem rest_inj_bytes {b0 b1 b2 c0 c1 c2 : UInt8} {h : UInt32}
    (same : rest b0 b1 b2 h = rest c0 c1 c2 h) :
    b0 = c0 ∧ b1 = c1 ∧ b2 = c2 := by
  have sums := congrArg UInt32.toNat same
  rw [toNat_rest, toNat_rest] at sums
  have bound := h.toNat_lt
  have bounds := And.intro b0.toNat_lt (And.intro b1.toNat_lt b2.toNat_lt)
  have bounds' := And.intro c0.toNat_lt (And.intro c1.toNat_lt c2.toNat_lt)
  refine ⟨?_, ?_, ?_⟩ <;> apply UInt8.toNat_inj.mp <;> omega

theorem hashLoop_injective : ∀ data, Function.Injective (hashLoop data)
  | b0 :: b1 :: b2 :: b3 :: data => by
      intro left right same
      rw [hashLoop_four, hashLoop_four] at same
      have passed := pass_inj (hashLoop_injective data same)
      exact (UInt32.add_left_inj _).mp passed
  | [b0, b1, b2] => by
      intro left right same
      rw [hashLoop_three, hashLoop_three] at same
      exact rest_injective b0 b1 b2 (finish_injective same)
  | [b0, b1] => by
      intro left right same
      rw [hashLoop_two, hashLoop_two] at same
      exact rest_injective b0 b1 0 (finish_injective same)
  | [b0] => by
      intro left right same
      rw [hashLoop_one, hashLoop_one] at same
      exact rest_injective b0 0 0 (finish_injective same)
  | [] => by
      intro left right same
      rwa [hashLoop_nil, hashLoop_nil] at same

theorem hashLoop_append : ∀ (front : Bytes) (h : UInt32),
    front.length % 4 = 0 →
    ∃ reached, ∀ back, hashLoop (front ++ back) h = hashLoop back reached
  | b0 :: b1 :: b2 :: b3 :: front, h, aligned => by
      have rest : front.length % 4 = 0 := by
        simp only [List.length_cons] at aligned
        omega
      obtain ⟨reached, follows⟩ := hashLoop_append front
        (pass h (decodeFixed32Le [b0, b1, b2, b3])) rest
      refine ⟨reached, fun back => ?_⟩
      rw [← follows]
      exact hashLoop_four b0 b1 b2 b3 (front ++ back) h
  | [_, _, _], _, aligned => by simp at aligned
  | [_, _], _, aligned => by simp at aligned
  | [_], _, aligned => by simp at aligned
  | [], h, _ => ⟨h, fun _ => rfl⟩

theorem hashLoop_group {group other back : Bytes} {h : UInt32}
    (length : other.length = group.length) (whole : group.length = 4)
    (same : hashLoop (group ++ back) h = hashLoop (other ++ back) h) :
    group = other := by
  have passes {bytes : Bytes} (four : bytes.length = 4) :
      hashLoop (bytes ++ back) h =
        hashLoop back (pass h (decodeFixed32Le bytes)) := by
    match bytes, four with
    | [b0, b1, b2, b3], _ => exact hashLoop_four b0 b1 b2 b3 back h
  rw [passes whole, passes (length.trans whole)] at same
  have words := (UInt32.add_right_inj h).mp
    (pass_inj (hashLoop_injective back same))
  have taken (bytes : Bytes) (four : bytes.length = 4) :
      bytes.take 4 = bytes :=
    List.take_of_length_le (Nat.le_of_eq four)
  rw [decodeFixed32Le, decodeFixed32Le, taken group whole,
    taken other (length.trans whole)] at words
  exact LittleEndian.word_injective length.symm
    (Nat.le_of_eq (congrArg (8 * ·) whole)) (congrArg UInt32.toBitVec words)

theorem hashLoop_tail {group other : Bytes} {h : UInt32}
    (length : other.length = group.length) (short : group.length < 4)
    (same : hashLoop group h = hashLoop other h) : group = other := by
  match group, other, length with
  | [], [], _ => rfl
  | [b0], [c0], _ =>
      rw [hashLoop_one, hashLoop_one] at same
      obtain ⟨rfl, -, -⟩ := rest_inj_bytes (finish_injective same)
      rfl
  | [b0, b1], [c0, c1], _ =>
      rw [hashLoop_two, hashLoop_two] at same
      obtain ⟨rfl, rfl, -⟩ := rest_inj_bytes (finish_injective same)
      rfl
  | [b0, b1, b2], [c0, c1, c2], _ =>
      rw [hashLoop_three, hashLoop_three] at same
      obtain ⟨rfl, rfl, rfl⟩ := rest_inj_bytes (finish_injective same)
      rfl
  | _ :: _ :: _ :: _ :: _, _, _ =>
      simp only [List.length_cons] at short
      omega

end Hash

theorem hash_injective (data : Bytes) : Function.Injective (hash data) := by
  intro left right same
  have registers := Hash.hashLoop_injective data same
  exact (UInt32.xor_left_inj _).mp registers

/-- Two keys of one length that differ in one group of four bytes, or behind the
last group, and agree before and after it, have different hashes. -/
theorem hash_ne_of_group (seed : UInt32) {front group other back : Bytes}
    (aligned : front.length % 4 = 0) (length : other.length = group.length)
    (oneGroup : group.length = 4 ∨ group.length < 4 ∧ back = [])
    (different : group ≠ other) :
    hash (front ++ group ++ back) seed ≠
      hash (front ++ other ++ back) seed := by
  intro same
  have sameLength : (front ++ other ++ back).length =
      (front ++ group ++ back).length := by
    simp only [List.length_append, length]
  rw [hash, hash, sameLength, List.append_assoc, List.append_assoc] at same
  obtain ⟨reached, follows⟩ := Hash.hashLoop_append front
    (seed ^^^ UInt32.ofNat ((front ++ (group ++ back)).length * 0xc6a4a793))
    aligned
  rw [follows, follows] at same
  rcases oneGroup with whole | ⟨short, rfl⟩
  · exact different (Hash.hashLoop_group length whole same)
  · rw [List.append_nil, List.append_nil] at same
    exact different (Hash.hashLoop_tail length short same)

/-- Keys of a user number after a common prefix. -/
theorem hash_ne_of_group_numbered :
    bloomHash ([0x75, 0x73, 0x72, 0x3a] ++ [1, 0, 0, 0] ++ [0x2f, 0x61]) ≠
      bloomHash ([0x75, 0x73, 0x72, 0x3a] ++ [0, 1, 0, 0] ++ [0x2f, 0x61]) :=
  hash_ne_of_group 0xbc9f1d34 (by decide) (by decide) (Or.inl (by decide))
    (by decide)

end LiteLsm
