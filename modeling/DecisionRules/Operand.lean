import DecisionRules.Decimal.Numeral
import DecisionRules.Facts
import DecisionRules.Token.Basic
import DecisionRules.Vocabulary

/-!
# Operands

The leaves of a rule are literals and variables.  A literal has its value from the start; a
variable has one in each context that binds it, so that a rule is read once and evaluated in
many contexts.
-/

namespace DecisionRules

/-- A leaf of a rule. -/
inductive Operand
  | literal (value : Value)
  | variable (name : String)
  deriving DecidableEq

/-- The terminal symbols that an operand can have. -/
def Terminal.isOperand : Terminal → Bool
  | .number | .truth | .falsehood | .identifier => true
  | _ => false

namespace Operand

/-- The operand that a token stands for. -/
def ofToken (vocabulary : Vocabulary) (token : Token) : Except RuleError Operand :=
  match token.terminal with
  | .number =>
    match Decimal.read? token.lexeme.toList with
    | some value => .ok (.literal (.number value))
    | none => .error (.malformed .invalidNumber token.lexeme token.span token.position)
  | .truth => .ok (.literal (.boolean true))
  | .falsehood => .ok (.literal (.boolean false))
  | .identifier =>
    match vocabulary.resolve? token.lexeme with
    | some name => .ok (.variable name)
    | none => .error (.unknownVariable token.lexeme token.span)
  | _ => .error (.malformed .expectedOperand token.lexeme token.span token.position)

/-- The value of an operand in a context; the span is where the operand stands. -/
def value (context : Context) (span : Span) : Operand → Except RuleError Value
  | .literal value => .ok value
  | .variable name =>
    match context name with
    | some value => .ok value
    | none => .error (.unknownVariable name span)

/-- The text of an operand. -/
def text : Operand → String
  | .literal value => value.text
  | .variable name => name

@[simp] theorem value_literal (context : Context) (span : Span) (value : Value) :
    (literal value).value context span = .ok value := rfl

end Operand
end DecisionRules
