import DecisionRules.Text.Position
import DecisionRules.Text.Slice
import Mathlib.Data.List.Induction

/-!
# Positions in texts

A cursor is moved one character at a time.  Where it stands can also be said without moving it: the
text before a place has a number of bytes, a number of line feeds, and some characters after the
last line feed, which are the offset, the line and the column of the place.
-/

namespace DecisionRules

namespace Position

/-- The position of what follows a text.  The line counts the line feeds of the text, and the column
the characters after the last of them. -/
def after (text : List Char) : Position :=
  ⟨text.count '\n' + 1, (text.reverse.takeWhile (· != '\n')).length + 1⟩

/-- A line feed begins the next line, and every other character takes up a column. -/
theorem after_concat (text : List Char) (char : Char) :
    after (text ++ [char]) = (after text).step char := by
  rw [after, step, List.count_append, List.reverse_append, List.reverse_singleton,
    List.singleton_append]
  by_cases feed : char = '\n'
  · subst feed
    rfl
  · rw [if_neg feed, List.takeWhile_cons_of_pos (by simpa using feed), List.count_singleton,
      if_neg (by simpa using feed)]
    rfl

/-- The position after some more text. -/
def advance (position : Position) (text : List Char) : Position :=
  text.foldl step position

@[simp] theorem advance_nil (position : Position) : position.advance [] = position := rfl

@[simp] theorem advance_cons (position : Position) (char : Char) (text : List Char) :
    position.advance (char :: text) = (position.step char).advance text := rfl

/-- The position of what follows a text is reached by moving over the text. -/
theorem advance_start (text : List Char) : start.advance text = after text := by
  induction text using List.reverseRecOn with
  | nil => rfl
  | append_singleton text char inductionHypothesis =>
      rw [after_concat, ← inductionHypothesis, advance, List.foldl_append]
      rfl

end Position

namespace Text

/-- An offset at which no character of a text is divided. -/
def IsPlace (text : List Char) (offset : Nat) : Prop :=
  ∃ before after, text = before ++ after ∧ offset = byteWidth before

/-- The position of the character at an offset of a text. -/
def positionAt (text : List Char) (offset : Nat) : Position :=
  .after (takeBytes offset text)

theorem positionAt_append (before after : List Char) :
    positionAt (before ++ after) (byteWidth before) = .after before := by
  rw [positionAt, takeBytes_append]

/-- No place is after the end of a text. -/
theorem IsPlace.le_byteWidth {text : List Char} {offset : Nat} (place : IsPlace text offset) :
    offset ≤ byteWidth text := by
  obtain ⟨before, after, rfl, rfl⟩ := place
  rw [byteWidth_append]
  exact Nat.le_add_right _ _

/-- The end of a text is a place. -/
theorem isPlace_byteWidth (text : List Char) : IsPlace text (byteWidth text) :=
  ⟨text, [], (List.append_nil text).symm, rfl⟩

end Text

/-- A cursor counts the bytes of the text that it moves over, and its position moves with it. -/
theorem Cursor.advance_eq (cursor : Cursor) (text : List Char) :
    cursor.advance text = ⟨cursor.offset + Text.byteWidth text, cursor.position.advance text⟩ := by
  induction text generalizing cursor with
  | nil => rfl
  | cons char text inductionHypothesis =>
      rw [advance_cons, inductionHypothesis, Text.byteWidth_cons, ← Nat.add_assoc]
      rfl

theorem Cursor.offset_advance (cursor : Cursor) (text : List Char) :
    (cursor.advance text).offset = cursor.offset + Text.byteWidth text := by
  rw [advance_eq]

/-- A cursor that has moved over a text from its start stands at the position of what follows it. -/
theorem Cursor.advance_start (text : List Char) :
    Cursor.start.advance text = ⟨Text.byteWidth text, .after text⟩ := by
  have origin : Cursor.start.offset = 0 := rfl
  have first : Cursor.start.position = .start := rfl
  rw [advance_eq, origin, first, Nat.zero_add, Position.advance_start]

end DecisionRules
