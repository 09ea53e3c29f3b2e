import DecisionRules.Error
import DecisionRules.Text.Slice

/-!
# Reports of errors

A report draws the part of a rule text that an error is about, with a label under it.  The text is
drawn with one blank after its end, so that there is always something to point at.

The drawing itself is not made here.  An error says what is to be drawn, and a renderer draws it.
-/

namespace DecisionRules

/-! ## Drawings -/

/-- What a renderer is asked to draw: a part of a text, with a heading above it and a label under
it. -/
structure Drawing where
  /-- Whether there are colours. -/
  coloured : Bool
  /-- The name of the text. -/
  name : String
  /-- The heading. -/
  heading : String
  /-- The bytes of the text that the drawing is about and that its label points at. -/
  place : Span
  /-- The label. -/
  label : String

/-- What draws parts of texts. -/
structure Renderer where
  /-- The lines of a text as they are drawn, each with the characters that end it. -/
  lines : List Char → List (List Char)
  /-- The drawing of a part of a text. -/
  draw : Drawing → List Char → String

/-! ## Errors -/

namespace RuleError

/-- What a report of an error begins with. -/
def heading : RuleError → String
  | .malformed .. => "Syntax error"
  | .unknownVariable .. => "Unknown variable"
  | .divisionByZero _ => "Division by zero"

/-- What a report of an error has to say about the part that it points at. -/
def label : RuleError → String
  | .malformed fault .. => fault.message
  | .unknownVariable name _ => "'" ++ name ++ "' is not a known variable"
  | .divisionByZero _ => "divisor evaluates to zero"

/-- The drawing of an error. -/
def drawing (coloured : Bool) (error : RuleError) : Drawing :=
  ⟨coloured, "rule", error.heading, error.span.widen, error.label⟩

end RuleError

namespace Report

/-- A rule text as it is drawn, with a blank after its end. -/
def padded (source : String) : List Char :=
  source.toList ++ [' ']

/-- The number of characters in the first bytes of a drawn rule text. -/
def charsBefore (source : String) (offset : Nat) : Nat :=
  (Text.takeBytes offset (padded source)).length

end Report

namespace RuleError

/-- The report of an error in a rule text, without colours. -/
def report (renderer : Renderer) (source : String) (error : RuleError) : String :=
  renderer.draw (error.drawing false) (Report.padded source)

/-- What is written of an error in a rule text where it is shown to a user, in colours. -/
def printed (renderer : Renderer) (source : String) (error : RuleError) : String :=
  renderer.draw (error.drawing true) (Report.padded source)

end RuleError
end DecisionRules
