/-!
# Lines of a drawing

Where an error is drawn under a text, the text is shown line by line, and a line ends after
each of the characters that make a text go on below: line feed, vertical tab, form feed,
carriage return, next line, line separator and paragraph separator.  A carriage return and the
line feed after it end one line together.
-/

namespace DecisionRules
namespace Text

/-- The characters that end a line of a drawing. -/
def endsLine (char : Char) : Bool :=
  char == '\n' || char == '\x0b' || char == '\x0c' || char == '\r' || char == '\u0085' ||
    char == '\u2028' || char == '\u2029'

/-- A character put in front of the first line. -/
def consFirst (char : Char) : List (List Char) → List (List Char)
  | [] => [[char]]
  | line :: rest => (char :: line) :: rest

/-- The lines of a text, each with the characters that end it.  No line is empty. -/
def lines : List Char → List (List Char)
  | [] => []
  | '\r' :: '\n' :: rest => ['\r', '\n'] :: lines rest
  | char :: rest => if endsLine char then [char] :: lines rest else consFirst char (lines rest)

/-- A line of a text. -/
structure Line where
  /-- The number of lines before it. -/
  above : Nat
  /-- The number of characters before it. -/
  start : Nat
  /-- Its characters, with those that end it. -/
  text : List Char
  deriving DecidableEq

/-- The line that holds the character with a number, among lines before which others stand. -/
def lineFrom (above start index : Nat) : List (List Char) → Line
  | [] => ⟨above, start, []⟩
  | line :: rest =>
    if index < start + line.length then ⟨above, start, line⟩
    else lineFrom (above + 1) (start + line.length) index rest

/-- The line of a text that holds the character with a number. -/
def lineOf (text : List Char) (index : Nat) : Line :=
  lineFrom 0 0 index (lines text)

@[simp] theorem lines_nil : lines [] = [] := rfl

end Text
end DecisionRules
