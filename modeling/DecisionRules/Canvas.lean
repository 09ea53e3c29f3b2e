import DecisionRules.Report
import DecisionRules.Text.Blank
import DecisionRules.Text.Lines

/-!
# A canvas

A canvas draws parts of texts with the characters for boxes and without colours.  A part within one
line is underlined; a longer part is embraced from its first line to its last.  How many columns a
character takes up depends on where the drawing is shown, so the canvas is told.
-/

namespace DecisionRules
namespace Canvas

/-- A character several times. -/
def repeated (count : Nat) (char : Char) : String :=
  String.ofList (List.replicate count char)

/-- A number filled up with blanks on its left. -/
def aligned (digits number : Nat) : String :=
  repeated (digits - number.repr.length) ' ' ++ number.repr

/-- One row under a line, drawn cell by cell from what each cell begins with and goes on
with. -/
def row (cells : List Nat) (drawn : Nat → Char × Char) : String :=
  String.join
    (cells.mapIdx fun index columns =>
      String.singleton (drawn index).1 ++ repeated (columns - 1) (drawn index).2)

/-- The two rows that underline the cells from `start` to `stop` and hang the label on the
middle one. -/
def underline (cells : List Nat) (start stop : Nat) (label : String) : List String :=
  let middle := (start + stop) / 2
  [row cells fun index =>
      if start ≤ index ∧ index < stop then (if index = middle then '┬' else '─', '─')
      else (' ', ' '),
    row cells (fun index =>
      if index < middle then (' ', ' ')
      else (if index = middle then '╰' else '─', '─')) ++ " " ++ label]

/-- The line and the column, both counted from one, at which a part of a text begins. -/
def position (text : List Char) (place : Span) : Position :=
  let start := (Text.takeBytes place.start text).length
  let line := Text.lineOf text start
  ⟨line.above + 1, start - line.start + 1⟩

/-- The row that names the place of a drawing, behind an indentation. -/
def header (name : String) (indent : Nat) (place : Position) : String :=
  repeated indent ' ' ++ "╭─[ " ++ name ++ ":" ++ place.line.repr ++ ":" ++
    place.column.repr ++ " ]"

section Columns

variable (columns : Char → Nat)

/-- The columns that the character with a number in its line takes up; a tab goes to the next
multiple of four, by the number of characters. -/
def width (index : Nat) (char : Char) : Nat :=
  if char = '\t' then 4 - index % 4 else columns char

/-- The first so many cells of a line, as numbers of columns; one past the end of the line is
one column. -/
def cells (line : List Char) (count : Nat) : List Nat :=
  (line.mapIdx (width columns) ++ List.replicate count 1).take count

/-- A line as it is shown: each blank is as many spaces as it takes up columns. -/
def shown (line : List Char) : String :=
  String.join
    (line.mapIdx fun index char =>
      if Text.isBlank char then repeated (width columns index char) ' '
      else String.singleton char)

/-- What is drawn of a part within one line; the margin stands before each row without a line
of the text. -/
def withinLine (margin : String) (line : Text.Line) (start stop : Nat) (label : String) :
    List String :=
  let text := Text.trimEnd line.text
  let first := start - line.start
  let last := stop - line.start
  (" " ++ (line.above + 1).repr ++ " │ " ++ shown columns text) ::
    (underline (cells columns text (last + 2)) first last label).map (margin ++ "│ " ++ ·)

/-- What is drawn of a part that goes over several lines. -/
def acrossLines (margin : String) (digits : Nat) (first last : Text.Line) (label : String) :
    List String :=
  let text := Text.trimEnd last.text
  let total := (cells columns text (last.text.length + 2)).foldl (· + ·) 0
  [" " ++ aligned digits (first.above + 1) ++ " │ ╭─▶ " ++
      shown columns (Text.trimEnd first.text)] ++
    (if first.above + 1 < last.above then [margin ++ "┆ ┆   "] else []) ++
    [" " ++ aligned digits (last.above + 1) ++ " │ ├─▶ " ++ shown columns text,
      margin ++ "│ │   " ++ repeated total ' ',
      margin ++ "│ ╰───" ++ repeated total '─' ++ " " ++ label]

/-- The rows of a drawing. -/
def rows (drawing : Drawing) (text : List Char) : List String :=
  let start := (Text.takeBytes drawing.place.start text).length
  let stop := (Text.takeBytes drawing.place.stop text).length
  let first := Text.lineOf text start
  let last := Text.lineOf text (stop - 1)
  let digits := (last.above + 1).repr.length
  let margin := repeated (digits + 2) ' '
  ["Error: " ++ drawing.heading,
    header drawing.name (digits + 2) (position text drawing.place),
    margin ++ "│"] ++
    (if first.above = last.above then withinLine columns margin first start stop drawing.label
    else acrossLines columns margin digits first last drawing.label) ++
    [repeated (digits + 2) '─' ++ "╯"]

/-- The drawing of a part of a text. -/
def draw (drawing : Drawing) (text : List Char) : String :=
  String.join ((rows columns drawing text).map (· ++ "\n"))

/-- The renderer that draws on a canvas. -/
def renderer : Renderer :=
  ⟨Text.lines, draw columns⟩

end Columns

/-- The renderer for texts in which each character but a tab takes up one column. -/
def plain : Renderer :=
  renderer fun _ => 1

end Canvas

/-- The report of an error in a rule text of which each character but a tab takes up one column. -/
def Report.draw (source : String) (error : RuleError) : String :=
  error.report Canvas.plain source

end DecisionRules
