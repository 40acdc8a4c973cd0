import TypeRegistry.Text.CombiningMark
import TypeRegistry.Text.Unprintable

/-!
# Quoted text

Text between double quotes, with one written form for each character. Six characters have an escape
of two characters; other characters that a reader could not see on their own are written by code
point, `\u{ad}`; the rest, a single quote among them, stay as they are. A byte that is no character
at all is written `\xFF`.
-/

namespace TypeRegistry.Text

/-- The letter after the backslash, for the characters that have an escape of two characters. -/
def shortEscape? : Char → Option Char
  | '\x00' => some '0'
  | '\t' => some 't'
  | '\r' => some 'r'
  | '\n' => some 'n'
  | '\\' => some '\\'
  | '"' => some '"'
  | _ => none

/-- Whether a character is seen on its own: it has a visible form and does not combine with the
character before it. -/
def isVisible (c : Char) : Bool :=
  !unprintable.contains c.toNat && !combiningMark.contains c.toNat

/-- A character is seen on its own exactly when no range of the two tables has it. -/
theorem isVisible_iff (c : Char) :
    isVisible c = true ↔
      ¬∃ r ∈ unprintable ++ combiningMark, r.1 ≤ c.toNat ∧ c.toNat ≤ r.2 := by
  -- The tables ascend, so no lookup stops before the range that has the character.
  have hunprintable := RangeTable.contains_iff ascendingFrom_unprintable c.toNat
  have hcombining := RangeTable.contains_iff ascendingFrom_combiningMark c.toNat
  rw [isVisible, Bool.and_eq_true, Bool.not_eq_true', Bool.not_eq_true', ← Bool.not_eq_true,
    ← Bool.not_eq_true, hunprintable, hcombining]
  simp only [List.mem_append, or_and_right, exists_or, not_or]

/-- The written form of a character inside quotes. -/
def escape (c : Char) : List Char :=
  match shortEscape? c with
  | some letter => ['\\', letter]
  | none =>
    if isVisible c then [c]
    else '\\' :: 'u' :: '\x7b' :: (Nat.toDigits 16 c.toNat ++ ['\x7d'])

/-- The written form of a byte that is not part of any character: two upper-case digits. -/
def escapeByte (b : UInt8) : List Char :=
  ['\\', 'x', (Nat.digitChar (b.toNat / 16)).toUpper, (Nat.digitChar (b.toNat % 16)).toUpper]

/-- Puts an already escaped text between double quotes. -/
def enclose (escaped : List Char) : String :=
  String.ofList ('"' :: (escaped ++ ['"']))

/-- The quoted form of a text. -/
def quote (s : String) : String :=
  enclose (s.toList.flatMap escape)

end TypeRegistry.Text
