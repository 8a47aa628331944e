import LiteLsm.Common.Coding
import Mathlib.Logic.Relation

/-!
# Escaped strings

`EscapeString` prints bytes that are not printable as `\x` and two digits.  It
does not escape the backslash, so the text of an escape prints like the byte
it stands for.  `unescape` reads a printed string; what it makes of strings
that are not the output of `EscapeString` tells which strings print alike.
-/

namespace LiteLsm

namespace EscapeString

/-- `c >= ' ' && c <= '~'`, for a `char` of either sign. -/
def printable (c : UInt8) : Bool :=
  decide (0x20 ≤ c ∧ c ≤ 0x7e)

/-- A digit of `%02x`. -/
def hexDigit (nibble : UInt8) : UInt8 :=
  if nibble < 10 then 0x30 + nibble else 0x57 + nibble

/-- What `snprintf` makes of a byte. -/
def escaped (c : UInt8) : Bytes :=
  [0x5c, 0x78, hexDigit (c >>> 4), hexDigit (c &&& 0xf)]

theorem escaped_append (c : UInt8) (rest : Bytes) :
    escaped c ++ rest = 0x5c :: 0x78 :: hexDigit (c >>> 4) ::
      hexDigit (c &&& 0xf) :: rest :=
  rfl

def appendEscapedStringTo (str value : Bytes) : Bytes :=
  value.foldl
    (fun str c => if printable c then str ++ [c] else str ++ escaped c) str

end EscapeString

open EscapeString

/-- `EscapeString` -/
def escapeString (value : Bytes) : Bytes :=
  appendEscapedStringTo [] value

example : escapeString [0, 0, 0, 0, 0x0b] =
    "\\x00\\x00\\x00\\x00\\x0b".toUTF8.toList := by
  decide +kernel

namespace EscapeString

/-- How a single byte is printed. -/
def piece (c : UInt8) : Bytes :=
  if printable c then [c] else escaped c

theorem appendEscapedStringTo_eq (str value : Bytes) :
    appendEscapedStringTo str value = str ++ value.flatMap piece := by
  induction value generalizing str with
  | nil => exact (List.append_nil str).symm
  | cons c value induction =>
      have step : (if printable c then str ++ [c] else str ++ escaped c) =
          str ++ piece c := by
        rw [piece, apply_ite (str ++ ·)]
      rw [appendEscapedStringTo, List.foldl_cons, step,
        ← appendEscapedStringTo, induction, List.flatMap_cons,
        List.append_assoc]

theorem escapeString_eq (value : Bytes) :
    escapeString value = value.flatMap piece := by
  rw [escapeString, appendEscapedStringTo_eq, List.nil_append]

theorem escapeString_append (left right : Bytes) :
    escapeString (left ++ right) = escapeString left ++ escapeString right := by
  rw [escapeString_eq, escapeString_eq, escapeString_eq, List.flatMap_append]

theorem escapeString_cons_of_printable {c : UInt8} (shown : printable c = true)
    (value : Bytes) : escapeString (c :: value) = c :: escapeString value := by
  rw [escapeString_eq, escapeString_eq, List.flatMap_cons, piece, if_pos shown]
  rfl

theorem escapeString_cons_of_not {c : UInt8} (hidden : printable c = false)
    (value : Bytes) :
    escapeString (c :: value) = escaped c ++ escapeString value := by
  rw [escapeString_eq, escapeString_eq, List.flatMap_cons, piece,
    if_neg (by simp [hidden])]

/-- The value of a digit. -/
def nibbleOf (digit : UInt8) : UInt8 :=
  if digit < 0x40 then digit - 0x30 else digit - 0x57

/-- The byte that is printed as the given four. -/
def denoted (c0 c1 c2 c3 : UInt8) : Option UInt8 :=
  let byte := (nibbleOf c2 <<< 4) ||| nibbleOf c3
  if printable byte = false ∧ escaped byte = [c0, c1, c2, c3] then some byte
  else none

/-- Replace every escape by the byte it stands for. -/
def unescape : Bytes → Bytes
  | c0 :: c1 :: c2 :: c3 :: rest =>
      match denoted c0 c1 c2 c3 with
      | some byte => byte :: unescape rest
      | none => c0 :: unescape (c1 :: c2 :: c3 :: rest)
  | short => short

/-- The text of an escape at the start of a string. -/
def StartsEscape (value : Bytes) : Prop :=
  ∃ c rest, printable c = false ∧ value = escaped c ++ rest

private theorem nibbles (c : UInt8) :
    (nibbleOf (hexDigit (c >>> 4)) <<< 4) ||| nibbleOf (hexDigit (c &&& 0xf)) =
      c := by
  have every : ∀ n : Fin 256,
      (nibbleOf (hexDigit (UInt8.ofFin n >>> 4)) <<< 4) |||
          nibbleOf (hexDigit (UInt8.ofFin n &&& 0xf)) =
        UInt8.ofFin n := by
    decide +kernel
  exact every c.toFin

/-- The bytes of an escape are printable, and none but the first is a
backslash. -/
private theorem escaped_shown (c : UInt8) :
    printable (hexDigit (c >>> 4)) = true ∧
      printable (hexDigit (c &&& 0xf)) = true ∧
      hexDigit (c >>> 4) ≠ 0x5c ∧ hexDigit (c &&& 0xf) ≠ 0x5c := by
  have every : ∀ n : Fin 256,
      printable (hexDigit (UInt8.ofFin n >>> 4)) = true ∧
        printable (hexDigit (UInt8.ofFin n &&& 0xf)) = true ∧
        hexDigit (UInt8.ofFin n >>> 4) ≠ 0x5c ∧
        hexDigit (UInt8.ofFin n &&& 0xf) ≠ 0x5c := by
    decide +kernel
  exact every c.toFin

theorem denoted_escaped {c : UInt8} (hidden : printable c = false) :
    denoted 0x5c 0x78 (hexDigit (c >>> 4)) (hexDigit (c &&& 0xf)) =
      some c := by
  simp only [denoted, nibbles]
  exact if_pos ⟨hidden, rfl⟩

theorem denoted_eq_some {c0 c1 c2 c3 byte : UInt8}
    (found : denoted c0 c1 c2 c3 = some byte) :
    printable byte = false ∧ escaped byte = [c0, c1, c2, c3] := by
  simp only [denoted] at found
  split at found
  · rename_i holds
    rw [← Option.some.inj found]
    exact holds
  · cases found

theorem unescape_escaped {c : UInt8} (hidden : printable c = false)
    (rest : Bytes) : unescape (escaped c ++ rest) = c :: unescape rest := by
  rw [escaped_append, unescape, denoted_escaped hidden]

theorem unescape_cons {c : UInt8} {value : Bytes}
    (literal : ¬StartsEscape (c :: value)) :
    unescape (c :: value) = c :: unescape value := by
  match value with
  | c1 :: c2 :: c3 :: rest =>
      rw [unescape]
      cases found : denoted c c1 c2 c3 with
      | none => rfl
      | some byte =>
          obtain ⟨hidden, start⟩ := denoted_eq_some found
          refine absurd ⟨byte, rest, hidden, ?_⟩ literal
          rw [start]
          rfl
  | [] => rfl
  | [_] => rfl
  | [_, _] => rfl

theorem length_escaped (c : UInt8) : (escaped c).length = 4 :=
  rfl

theorem escapeString_escaped (c : UInt8) (rest : Bytes) :
    escapeString (escaped c ++ rest) = escaped c ++ escapeString rest := by
  obtain ⟨first, second, -, -⟩ := escaped_shown c
  rw [escaped_append, escaped_append,
    escapeString_cons_of_printable (by decide),
    escapeString_cons_of_printable (by decide),
    escapeString_cons_of_printable first, escapeString_cons_of_printable second]

/-- Only the backslash that starts an escape may stand for another byte. -/
theorem eq_cons_of_escapeString {value tail : Bytes} {d : UInt8}
    (literal : d ≠ 0x5c) (print : escapeString value = d :: tail) :
    ∃ rest, value = d :: rest ∧ escapeString rest = tail := by
  cases value with
  | nil => cases print
  | cons c rest =>
      cases shown : printable c with
      | true =>
          rw [escapeString_cons_of_printable shown] at print
          obtain ⟨same, print⟩ := List.cons.inj print
          exact ⟨rest, by rw [same], print⟩
      | false =>
          rw [escapeString_cons_of_not shown] at print
          exact absurd (List.cons.inj print).1.symm literal

theorem not_startsEscape_print {c : UInt8} {rest : Bytes}
    (literal : ¬StartsEscape (c :: rest)) :
    ¬StartsEscape (c :: escapeString rest) := by
  rintro ⟨b, tail, hidden, same⟩
  obtain ⟨-, -, first, second⟩ := escaped_shown b
  rw [escaped_append] at same
  obtain ⟨head, print₀⟩ := List.cons.inj same
  obtain ⟨rest₁, rfl, print₁⟩ := eq_cons_of_escapeString (by decide) print₀
  obtain ⟨rest₂, rfl, print₂⟩ := eq_cons_of_escapeString first print₁
  obtain ⟨rest₃, rfl, -⟩ := eq_cons_of_escapeString second print₂
  exact literal ⟨b, rest₃, hidden, by rw [head]; rfl⟩

/-- Reading a print gives what reading the string itself gives. -/
theorem unescape_escapeString (value : Bytes) :
    unescape (escapeString value) = unescape value := by
  by_cases escape : StartsEscape value
  · obtain ⟨c, rest, hidden, rfl⟩ := escape
    rw [escapeString_escaped, unescape_escaped hidden, unescape_escaped hidden,
      unescape_escapeString rest]
  · cases value with
    | nil => rfl
    | cons c rest =>
        rw [unescape_cons escape, ← unescape_escapeString rest]
        cases shown : printable c with
        | true =>
            rw [escapeString_cons_of_printable shown,
              unescape_cons (not_startsEscape_print escape)]
        | false => rw [escapeString_cons_of_not shown, unescape_escaped shown]
termination_by value.length
decreasing_by all_goals subst_vars; simp [length_escaped]

/-- The text of an escape in place of its byte, anywhere in a string. -/
inductive Replaces : Bytes → Bytes → Prop
  | escape (left right : Bytes) {c : UInt8} (hidden : printable c = false) :
      Replaces (left ++ c :: right) (left ++ (escaped c ++ right))

/-- One string becomes the other by replacing bytes and escapes. -/
abbrev Joined : Bytes → Bytes → Prop :=
  Relation.EqvGen Replaces

theorem Replaces.cons {value other : Bytes} (c : UInt8)
    (replaced : Replaces value other) : Replaces (c :: value) (c :: other) := by
  cases replaced with
  | escape left right hidden => exact .escape (c :: left) right hidden

theorem Replaces.print {value other : Bytes}
    (replaced : Replaces value other) :
    escapeString value = escapeString other := by
  cases replaced with
  | escape left right hidden =>
      rw [escapeString_append, escapeString_append, escapeString_escaped,
        escapeString_cons_of_not hidden]

theorem Replaces.length {value other : Bytes}
    (replaced : Replaces value other) : other.length = value.length + 3 := by
  cases replaced with
  | escape left right hidden =>
      simp only [List.length_append, List.length_cons, length_escaped]
      omega

theorem Joined.cons {value other : Bytes} (c : UInt8)
    (joined : Joined value other) : Joined (c :: value) (c :: other) := by
  induction joined with
  | rel value other replaced => exact .rel _ _ (replaced.cons c)
  | refl value => exact .refl _
  | symm value other _ induction => exact induction.symm
  | trans value between other _ _ first second => exact first.trans _ _ _ second

theorem Joined.print {value other : Bytes} (joined : Joined value other) :
    escapeString value = escapeString other := by
  induction joined with
  | rel value other replaced => exact replaced.print
  | refl value => rfl
  | symm value other _ induction => exact induction.symm
  | trans value between other _ _ first second => exact first.trans second

theorem joined_unescape (value : Bytes) : Joined (unescape value) value := by
  fun_induction unescape value with
  | case1 c0 c1 c2 c3 rest byte found induction =>
      obtain ⟨hidden, text⟩ := denoted_eq_some found
      have replaced : Replaces (byte :: rest) (escaped byte ++ rest) :=
        .escape [] rest hidden
      rw [text] at replaced
      exact (induction.cons byte).trans _ _ _ (.rel _ _ replaced)
  | case2 c0 c1 c2 c3 rest found induction => exact induction.cons c0
  | case3 short _ => exact .refl _

/-- Strings print alike when replacing bytes and escapes joins them, and only
then. -/
theorem escapeString_same_iff (value other : Bytes) :
    escapeString value = escapeString other ↔ Joined value other := by
  constructor
  · intro same
    have read : unescape value = unescape other := by
      rw [← unescape_escapeString value, same, unescape_escapeString]
    have back : Joined (unescape other) value := by
      rw [← read]
      exact joined_unescape value
    exact back.symm.trans _ _ _ (joined_unescape other)
  · exact Joined.print

theorem escapeString_of_printable {value : Bytes}
    (shown : ∀ c ∈ value, printable c = true) : escapeString value = value := by
  induction value with
  | nil => rfl
  | cons c value induction =>
      rw [escapeString_cons_of_printable (shown c List.mem_cons_self),
        induction fun d among => shown d (List.mem_cons_of_mem c among)]

theorem printable_piece (c : UInt8) : ∀ d ∈ piece c, printable d = true := by
  intro d among
  rw [piece] at among
  split at among
  · rename_i shown
    rwa [List.mem_singleton.mp among]
  · obtain ⟨first, second, -, -⟩ := escaped_shown c
    simp only [escaped, List.mem_cons, List.not_mem_nil, or_false] at among
    rcases among with rfl | rfl | rfl | rfl
    · decide
    · decide
    · exact first
    · exact second

theorem unescape_of_printable {value : Bytes}
    (shown : ∀ c ∈ unescape value, printable c = true) :
    unescape value = value := by
  fun_induction unescape value with
  | case1 c0 c1 c2 c3 rest byte found induction =>
      have hidden := (denoted_eq_some found).1
      rw [shown byte List.mem_cons_self] at hidden
      cases hidden
  | case2 c0 c1 c2 c3 rest found induction =>
      rw [induction fun c among => shown c (List.mem_cons_of_mem c0 among)]
  | case3 short _ => rfl

theorem unescape_literal {value : Bytes}
    (literal : ∀ c, printable c = false → ¬escaped c <:+: value) :
    unescape value = value := by
  fun_induction unescape value with
  | case1 c0 c1 c2 c3 rest byte found induction =>
      obtain ⟨hidden, text⟩ := denoted_eq_some found
      refine absurd ⟨[], rest, ?_⟩ (literal byte hidden)
      rw [text]
      rfl
  | case2 c0 c1 c2 c3 rest found induction =>
      rw [induction fun c hidden inside =>
        literal c hidden (inside.trans (List.suffix_cons c0 _).isInfix)]
  | case3 short _ => rfl

end EscapeString

/-- The print is the one printable string that replacing bytes and escapes
makes of a value. -/
theorem escapeString_eq_iff (value print : Bytes) :
    escapeString value = print ↔
      (∀ c ∈ print, printable c = true) ∧ Joined value print := by
  constructor
  · rintro rfl
    have shown : ∀ c ∈ escapeString value, printable c = true := by
      intro c among
      rw [escapeString_eq, List.mem_flatMap] at among
      obtain ⟨d, -, among⟩ := among
      exact printable_piece d c among
    refine ⟨shown, (escapeString_same_iff _ _).mp ?_⟩
    exact (escapeString_of_printable shown).symm
  · rintro ⟨shown, joined⟩
    rw [joined.print, escapeString_of_printable shown]

/-- A print tells its value where the value is printable and holds no text of
an escape, and nowhere else. -/
theorem escapeString_tells_iff (value : Bytes) :
    (∀ other, escapeString other = escapeString value → other = value) ↔
      (∀ c ∈ value, printable c = true) ∧
        ∀ c, printable c = false → ¬escaped c <:+: value := by
  constructor
  · intro tells
    have alone {one another : Bytes} (replaced : Replaces one another)
        (met : one = value ∨ another = value) : False := by
      have same : one = another := by
        rcases met with rfl | rfl
        · exact (tells another replaced.print.symm).symm
        · exact tells one replaced.print
      have longer := replaced.length
      rw [same] at longer
      omega
    constructor
    · intro c among
      cases shown : printable c with
      | true => rfl
      | false =>
          obtain ⟨left, right, rfl⟩ := List.append_of_mem among
          exact (alone (.escape left right shown) (.inl rfl)).elim
    · rintro c hidden ⟨left, right, rfl⟩
      refine alone (.escape left right hidden) (.inr ?_)
      rw [List.append_assoc]
  · rintro ⟨shown, literal⟩ other same
    have read : unescape other = value := by
      rw [← unescape_escapeString other, same, unescape_escapeString,
        unescape_literal literal]
    have plain : unescape other = other :=
      unescape_of_printable (by rw [read]; exact shown)
    rw [← plain, read]

end LiteLsm
