/-!
# Lines and columns

A position names a character of a text the way people do, by line and column, both counted
from one.  Only a line feed ends a line, and a column is a character.  A cursor is a place
between two characters: its byte offset together with the position of what comes next.
-/

namespace DecisionRules

/-- A line and a column, both counted from one. -/
structure Position where
  /-- The number of the line. -/
  line : Nat
  /-- The number of the character in its line. -/
  column : Nat
  deriving DecidableEq

/-- A place between two characters of a text. -/
structure Cursor where
  /-- The number of bytes before the place. -/
  offset : Nat
  /-- The position of the character after the place. -/
  position : Position
  deriving DecidableEq

namespace Position

/-- The first character of a text. -/
def start : Position := ⟨1, 1⟩

/-- The position after one more character. -/
def step (position : Position) (char : Char) : Position :=
  if char = '\n' then ⟨position.line + 1, 1⟩ else ⟨position.line, position.column + 1⟩

end Position

namespace Cursor

/-- The place before the first character of a text. -/
def start : Cursor := ⟨0, .start⟩

/-- The place after one more character. -/
def step (cursor : Cursor) (char : Char) : Cursor :=
  ⟨cursor.offset + char.utf8Size, cursor.position.step char⟩

/-- The place after some more text. -/
def advance (cursor : Cursor) (text : List Char) : Cursor :=
  text.foldl step cursor

@[simp] theorem advance_nil (cursor : Cursor) : cursor.advance [] = cursor := rfl

@[simp] theorem advance_cons (cursor : Cursor) (char : Char) (text : List Char) :
    cursor.advance (char :: text) = (cursor.step char).advance text := rfl

theorem advance_append (cursor : Cursor) (left right : List Char) :
    cursor.advance (left ++ right) = (cursor.advance left).advance right := by
  simp [advance]

end Cursor
end DecisionRules
