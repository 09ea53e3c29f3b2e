import DecisionRules.Text.Blank
import DecisionRules.Text.Slice
import DecisionRules.Token.Basic

/-!
# Obstacles to reading a rule

Reading stops at the first token after which no rule can follow.  An obstacle says which token
that is and what was wanted there.  It becomes an error once the rule text is at hand, of which
the error quotes a part.
-/

namespace DecisionRules

/-- What stops the reading of a rule.  Where no token is found, the text has ended. -/
inductive Obstacle
  /-- A token that is no operand of the vocabulary. -/
  | operand (error : RuleError)
  /-- Something else than an operand where one has to stand. -/
  | missingOperand (found : Option Token)
  /-- Something else than the parenthesis that closes a group. -/
  | unclosedGroup (opening : Token) (found : Option Token)
  /-- A parenthesis or negation beyond the limit of nesting. -/
  | nestingTooDeep (token : Token)
  /-- A token after a complete rule. -/
  | trailingInput (found : Token)
  deriving DecidableEq

namespace Obstacle

/-- The error about a part of a rule text, which it quotes without the blanks at the end. -/
def malformed (source : String) (tokens : Tokens) (fault : Fault) (span : Span) : RuleError :=
  .malformed fault (String.ofList (Text.trimEnd (Text.slice source.toList span))) span
    (tokens.positionAt span.start)

/-- The error that an obstacle amounts to in a rule text with the given tokens. -/
def toError (source : String) (tokens : Tokens) : Obstacle → RuleError
  | .operand error => error
  | .missingOperand none => malformed source tokens .missingOperand tokens.finish.span
  | .missingOperand (some found) => malformed source tokens .expectedOperand found.span
  | .unclosedGroup opening found =>
    malformed source tokens .unclosedGroup
      ⟨opening.span.start, (found.getD tokens.finish).span.start⟩
  | .nestingTooDeep token =>
    malformed source tokens .nestingTooDeep
      ⟨token.span.start, Text.byteWidth source.toList⟩
  | .trailingInput found =>
    malformed source tokens .trailingInput ⟨found.span.start, Text.byteWidth source.toList⟩

end Obstacle
end DecisionRules
