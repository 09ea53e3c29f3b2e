import DecisionRules.Text.Position
import DecisionRules.Text.Span

/-!
# Errors of rules

A rule fails because its text is malformed, because it names a variable that is not known, or
because it divides by zero.  Each error says where in the rule text it arose.
-/

namespace DecisionRules

/-- What is wrong with a malformed rule text. -/
inductive Fault
  /-- A character that begins no token. -/
  | unexpectedCharacter
  /-- A number token that spells no number. -/
  | invalidNumber
  /-- A token stands where an operand has to stand. -/
  | expectedOperand
  /-- The text ends where an operand has to stand. -/
  | missingOperand
  /-- A parenthesis is not closed. -/
  | unclosedGroup
  /-- The text goes on after a complete rule. -/
  | trailingInput
  /-- Parentheses and negations are nested beyond the limit. -/
  | nestingTooDeep
  deriving DecidableEq

/-- Why a rule cannot be read or evaluated. -/
inductive RuleError
  /-- The text does not follow the grammar; the error quotes the offending part. -/
  | malformed (fault : Fault) (fragment : String) (span : Span) (position : Position)
  /-- A name is not in the vocabulary, or is not bound. -/
  | unknownVariable (name : String) (span : Span)
  /-- A divisor is zero; the span is that of the divisor. -/
  | divisionByZero (span : Span)
  deriving DecidableEq

namespace Fault

/-- The wording of a fault. -/
def message : Fault → String
  | .unexpectedCharacter => "Unexpected character"
  | .invalidNumber => "Invalid number"
  | .expectedOperand => "Expected operand"
  | .missingOperand => "Expected operand, found end of input"
  | .unclosedGroup => "Expected ')'"
  | .trailingInput => "Unexpected trailing input"
  | .nestingTooDeep => "Nesting too deep"

/-- No two faults are worded alike. -/
theorem message_inj {fault other : Fault} : fault.message = other.message ↔ fault = other := by
  cases fault <;> cases other <;> decide

end Fault

namespace RuleError

/-- The part of the rule text that an error is about. -/
def span : RuleError → Span
  | .malformed _ _ span _ => span
  | .unknownVariable _ span => span
  | .divisionByZero span => span

/-- The wording of an error, in one line. -/
def message : RuleError → String
  | .malformed fault fragment _ position =>
    fault.message ++ " at '" ++ fragment ++ "' (" ++ position.line.repr ++ ":" ++
      position.column.repr ++ ")"
  | .unknownVariable name _ => "unknown variable '" ++ name ++ "'"
  | .divisionByZero _ => "division by zero"

end RuleError

/-! ## Results -/

/-- A result that was made from another one was made from its value. -/
theorem exists_ok_of_map_eq_ok
    {result : Except ε α}
    {form : α → β}
    {value : β}
    (made : result.map form = .ok value) :
    ∃ source, result = .ok source ∧ form source = value := by
  cases result with
  | error error => cases made
  | ok source => exact ⟨source, rfl, Except.ok.inj made⟩

/-- A result that was made from another one has the error of that one. -/
theorem eq_error_of_map_eq_error
    {result : Except ε α}
    {form : α → β}
    {error : ε}
    (fails : result.map form = .error error) :
    result = .error error := by
  cases result with
  | error found => exact congrArg Except.error (Except.error.inj fails)
  | ok source => cases fails

/-- A result that has a value is no error. -/
theorem exists_ok_of_isSome
    {result : Except ε α}
    (succeeds : result.toOption.isSome = true) :
    ∃ value, result = .ok value := by
  cases result with
  | error error => cases succeeds
  | ok value => exact ⟨value, rfl⟩

/-- A result that has a value is that value. -/
theorem eq_ok_of_toOption_eq_some
    {result : Except ε α}
    {value : α}
    (succeeds : result.toOption = some value) :
    result = .ok value := by
  cases result with
  | error error => cases succeeds
  | ok found => exact congrArg Except.ok (Option.some.inj succeeds)

/-- A result without a value has none. -/
theorem ne_ok_of_toOption_eq_none
    {result : Except ε α}
    (fails : result.toOption = none)
    (value : α) :
    result ≠ .ok value := by
  rintro rfl
  cases fails

/-- The error of a result that has no value. -/
def errorOf? : Except ε α → Option ε
  | .error error => some error
  | .ok _ => none

/-- A result that has an error is that error. -/
theorem eq_error_of_errorOf?_eq_some
    {result : Except ε α}
    {error : ε}
    (fails : errorOf? result = some error) :
    result = .error error := by
  cases result with
  | error found => exact congrArg Except.error (Option.some.inj fails)
  | ok value => cases fails

end DecisionRules
