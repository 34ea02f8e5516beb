import Mathlib.Data.List.Basic

/-!
# UTF-8 as a table-driven decoder checks it

The decoder reads byte after byte. It sorts each byte into one of twelve classes and
goes from state to state by a table: between characters, on an error that is never
left, or inside a character of which some bytes are still missing. A text is well
formed when the decoder ends between characters without an error.

Texts may be checked piece by piece: what the decoder does with a text depends on the
text before it only through the state it has reached. A character stands for one byte.
-/

namespace GoogleCalendar.Library.Utf8

/-- Between characters. -/
def accept : Nat := 0

/-- After a byte that no text can have there. -/
def reject : Nat := 1

/-- The class of a byte: the first 256 entries of the table. -/
def byteClass (byte : Nat) : Nat :=
  if byte ≤ 0x7F then 0
  else if byte ≤ 0x8F then 1
  else if byte ≤ 0x9F then 9
  else if byte ≤ 0xBF then 7
  else if byte ≤ 0xC1 then 8
  else if byte ≤ 0xDF then 2
  else if byte = 0xE0 then 10
  else if byte = 0xED then 4
  else if byte ≤ 0xEF then 3
  else if byte = 0xF0 then 11
  else if byte ≤ 0xF3 then 6
  else if byte = 0xF4 then 5
  else 8

/-- The state after a byte of a class, one row for each state. -/
def transitions : List (List Nat) :=
  [[0, 1, 2, 3, 5, 8, 7, 1, 1, 1, 4, 6, 1, 1, 1, 1],
    [1, 1, 1, 1, 1, 1, 1, 1, 1, 1, 1, 1, 1, 1, 1, 1],
    [1, 1, 1, 1, 1, 1, 1, 0, 1, 0, 1, 1, 1, 1, 1, 1],
    [1, 2, 1, 1, 1, 1, 1, 2, 1, 2, 1, 1, 1, 1, 1, 1],
    [1, 1, 1, 1, 1, 1, 1, 2, 1, 1, 1, 1, 1, 1, 1, 1],
    [1, 2, 1, 1, 1, 1, 1, 1, 1, 2, 1, 1, 1, 1, 1, 1],
    [1, 1, 1, 1, 1, 1, 1, 3, 1, 3, 1, 1, 1, 1, 1, 1],
    [1, 3, 1, 1, 1, 1, 1, 3, 1, 3, 1, 1, 1, 1, 1, 1],
    [1, 3, 1, 1, 1, 1, 1, 1, 1, 1, 1, 1, 1, 1, 1, 1]]

/-- One byte. -/
def decode (state : Nat) (char : Char) : Nat :=
  (transitions.getD state []).getD (byteClass char.toNat) reject

/-- What a check finds: the first byte that cannot stand where it does, with its index,
or the last byte of a text that ends inside a character. -/
inductive Verdict where
  | wellFormed
  | invalid (index : Nat) (byte : Char)
  | incomplete (last : Char)
  deriving DecidableEq, Repr

/-- Check what follows a byte, from a state and at an index. -/
def checkFrom : Nat → Nat → Char → List Char → Verdict
  | state, _, last, [] => if state = accept then .wellFormed else .incomplete last
  | state, index, _, char :: rest =>
    let next := decode state char
    if next = reject then .invalid index char else checkFrom next (index + 1) char rest

/-- The verdict on a text, from its first byte. -/
def check (chars : List Char) : Verdict := checkFrom accept 0 '\x00' chars

/-- The state after a text, unless one of its bytes is refused. -/
def follow : Nat → List Char → Option Nat
  | state, [] => some state
  | state, char :: rest =>
    let next := decode state char
    if next = reject then none else follow next rest

/-- A text that ends between characters. -/
def WellFormed (chars : List Char) : Prop := follow accept chars = some accept

instance (chars : List Char) : Decidable (WellFormed chars) :=
  inferInstanceAs (Decidable (_ = _))

/-- The check follows the text. -/
theorem check_from_iff (state index : Nat) (last : Char) (chars : List Char) :
    checkFrom state index last chars = .wellFormed ↔ follow state chars = some accept := by
  induction chars generalizing state index last with
  | nil =>
    simp only [checkFrom, follow, Option.some.injEq]
    split
    · rename_i here
      simp [here]
    · rename_i inside
      simp [inside]
  | cons char rest ih =>
    simp only [checkFrom, follow]
    split
    · simp
    · exact ih _ _ _

/-- The verdict is good on the texts that are well formed. -/
theorem check_iff (chars : List Char) : check chars = .wellFormed ↔ WellFormed chars :=
  check_from_iff accept 0 '\x00' chars

/-- A second text is read from the state after the first. -/
theorem follow_append (state : Nat) (first second : List Char) :
    follow state (first ++ second) =
      (follow state first).bind (fun next => follow next second) := by
  induction first generalizing state with
  | nil => rfl
  | cons char rest ih =>
    simp only [List.cons_append, follow]
    split
    · rfl
    · exact ih _

/-- The empty text is well formed. -/
theorem well_formed_nil : WellFormed [] := rfl

/-- Behind a well-formed text another one is checked for itself. -/
theorem well_formed_append (first second : List Char) (before : WellFormed first) :
    WellFormed (first ++ second) ↔ WellFormed second := by
  rw [WellFormed, follow_append, before]
  rfl

/-- A byte below 128 is a character. -/
theorem decode_ascii (char : Char) (ascii : char.toNat < 128) : decode accept char = accept := by
  have small : byteClass char.toNat = 0 := if_pos (Nat.le_of_lt_succ ascii)
  rw [decode, small]
  rfl

/-- A text of ASCII is well formed. -/
theorem ascii_well_formed (chars : List Char) (ascii : ∀ char ∈ chars, char.toNat < 128) :
    WellFormed chars := by
  induction chars with
  | nil => exact well_formed_nil
  | cons char rest ih =>
    have first := decode_ascii char (ascii char (List.mem_cons_self ..))
    simp only [WellFormed, follow, first]
    exact ih (fun other member => ascii other (List.mem_cons_of_mem _ member))

/-- Two bytes are one character, and the first alone is none. -/
example : WellFormed ['Ã', '©'] ∧ check ['Ã'] = .incomplete 'Ã' ∧
    check ['a', '©'] = .invalid 1 '©' := by
  decide

end GoogleCalendar.Library.Utf8
