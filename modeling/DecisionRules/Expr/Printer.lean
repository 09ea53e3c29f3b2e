import DecisionRules.Expr.Basic

/-!
# The canonical text of a rule

The canonical text of a tree has one blank on each side of an operator, the vocabulary's own
spelling of every variable, and no parentheses but those of groups.
-/

namespace DecisionRules

/-- The sign of an operator. -/
def Arithmetic.sign : Arithmetic → String
  | .multiply => "*"
  | .divide => "/"
  | .add => "+"
  | .subtract => "-"

/-- The sign of a comparison. -/
def Comparison.sign : Comparison → String
  | .less => "<"
  | .lessEqual => "<="
  | .greater => ">"
  | .greaterEqual => ">="
  | .equal => "=="
  | .notEqual => "!="

/-- The word for a connective. -/
def Connective.sign : Connective → String
  | .and => "and"
  | .or => "or"

namespace Expr

/-- The text of a run: its operands with the signs between them.  Where operands or signs are
left over, the text ends with the last pair. -/
def runText (operands signs : List String) : String :=
  match operands with
  | [] => ""
  | first :: rest =>
    (signs.zip rest).foldl (fun text next => text ++ " " ++ next.1 ++ " " ++ next.2) first

mutual

/-- The canonical text of a tree. -/
def text : Expr → String
  | .leaf operand _ => operand.text
  | .group inner _ => "(" ++ inner.text ++ ")"
  | .negation inner _ => "not " ++ inner.text
  | .logical connective operands =>
    runText (texts operands) (List.replicate operands.length connective.sign)
  | .comparison operands operators => runText (texts operands) (operators.map Comparison.sign)
  | .arithmetic operands operators => runText (texts operands) (operators.map Arithmetic.sign)

/-- The canonical texts of several trees. -/
def texts : List Expr → List String
  | [] => []
  | first :: rest => first.text :: texts rest

end

@[simp] theorem texts_eq_map (operands : List Expr) : texts operands = operands.map text := by
  induction operands with
  | nil => rfl
  | cons first rest ih => rw [texts, ih, List.map_cons]

@[simp] theorem text_leaf (operand : Operand) (place : Span) :
    (Expr.leaf operand place).text = operand.text := rfl

@[simp] theorem text_group (inner : Expr) (place : Span) :
    (Expr.group inner place).text = "(" ++ inner.text ++ ")" := rfl

@[simp] theorem text_negation (inner : Expr) (place : Span) :
    (Expr.negation inner place).text = "not " ++ inner.text := rfl

@[simp] theorem text_logical (connective : Connective) (operands : List Expr) :
    (Expr.logical connective operands).text =
      runText (operands.map text) (List.replicate operands.length connective.sign) := by
  rw [text, texts_eq_map]

@[simp] theorem text_comparison (operands : List Expr) (operators : List Comparison) :
    (Expr.comparison operands operators).text =
      runText (operands.map text) (operators.map Comparison.sign) := by
  rw [text, texts_eq_map]

@[simp] theorem text_arithmetic (operands : List Expr) (operators : List Arithmetic) :
    (Expr.arithmetic operands operators).text =
      runText (operands.map text) (operators.map Arithmetic.sign) := by
  rw [text, texts_eq_map]

end Expr
end DecisionRules
