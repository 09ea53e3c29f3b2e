import DecisionRules.Operand

/-!
# Syntax trees of rules

Operators of one precedence are kept together: a run has all its operands in reading order,
and its operators stand between neighbouring operands.  Trees read from a text have one
operator fewer than operands; for other trees, what is left over has no effect.
-/

namespace DecisionRules

/-- The operators that compute. -/
inductive Arithmetic
  | multiply
  | divide
  | add
  | subtract
  deriving DecidableEq

/-- The operators that compare. -/
inductive Comparison
  | less
  | lessEqual
  | greater
  | greaterEqual
  | equal
  | notEqual
  deriving DecidableEq

/-- The operators that join conditions. -/
inductive Connective
  | and
  | or
  deriving DecidableEq

/-- The syntax tree of a rule. -/
inductive Expr
  /-- A leaf. -/
  | leaf (operand : Operand) (span : Span)
  /-- A tree in parentheses. -/
  | group (inner : Expr) (span : Span)
  /-- A condition that is denied. -/
  | negation (inner : Expr) (span : Span)
  /-- Conditions joined by one connective. -/
  | logical (connective : Connective) (operands : List Expr)
  /-- A chain of comparisons. -/
  | comparison (operands : List Expr) (operators : List Comparison)
  /-- A run of computations, from left to right. -/
  | arithmetic (operands : List Expr) (operators : List Arithmetic)

namespace Expr

mutual

/-- The part of the rule text that a tree was read from.  A run extends from its first operand
to its last. -/
def span : Expr → Span
  | .leaf _ span => span
  | .group _ span => span
  | .negation _ span => span
  | .logical _ operands => Span.joinAll (spans operands)
  | .comparison operands _ => Span.joinAll (spans operands)
  | .arithmetic operands _ => Span.joinAll (spans operands)

/-- The parts of the rule text that several trees were read from. -/
def spans : List Expr → List Span
  | [] => []
  | first :: rest => first.span :: spans rest

end

@[simp] theorem spans_eq_map (operands : List Expr) : spans operands = operands.map span := by
  induction operands with
  | nil => rfl
  | cons first rest ih => rw [spans, ih, List.map_cons]

@[simp] theorem span_leaf (operand : Operand) (place : Span) :
    (Expr.leaf operand place).span = place := rfl

@[simp] theorem span_group (inner : Expr) (place : Span) :
    (Expr.group inner place).span = place := rfl

@[simp] theorem span_negation (inner : Expr) (place : Span) :
    (Expr.negation inner place).span = place := rfl

@[simp] theorem span_logical (connective : Connective) (operands : List Expr) :
    (Expr.logical connective operands).span = Span.joinAll (operands.map span) := by
  rw [span, spans_eq_map]

@[simp] theorem span_comparison (operands : List Expr) (operators : List Comparison) :
    (Expr.comparison operands operators).span = Span.joinAll (operands.map span) := by
  rw [span, spans_eq_map]

@[simp] theorem span_arithmetic (operands : List Expr) (operators : List Arithmetic) :
    (Expr.arithmetic operands operators).span = Span.joinAll (operands.map span) := by
  rw [span, spans_eq_map]

mutual

/-- Whether two trees are the same. -/
def same : Expr → Expr → Bool
  | .leaf left leftSpan, .leaf right rightSpan => left = right ∧ leftSpan = rightSpan
  | .group left leftSpan, .group right rightSpan => left.same right && leftSpan = rightSpan
  | .negation left leftSpan, .negation right rightSpan =>
    left.same right && leftSpan = rightSpan
  | .logical left lefts, .logical right rights => left = right && sames lefts rights
  | .comparison lefts left, .comparison rights right => sames lefts rights && left = right
  | .arithmetic lefts left, .arithmetic rights right => sames lefts rights && left = right
  | _, _ => false

/-- Whether two lists of trees are the same. -/
def sames : List Expr → List Expr → Bool
  | [], [] => true
  | left :: lefts, right :: rights => left.same right && sames lefts rights
  | _, _ => false

end

mutual

theorem same_iff : (left right : Expr) → (left.same right = true ↔ left = right)
  | .leaf .., right => by cases right <;> simp [same]
  | .group inner _, right => by cases right <;> simp [same, same_iff inner]
  | .negation inner _, right => by cases right <;> simp [same, same_iff inner]
  | .logical _ operands, right => by cases right <;> simp [same, sames_iff operands]
  | .comparison operands _, right => by cases right <;> simp [same, sames_iff operands]
  | .arithmetic operands _, right => by cases right <;> simp [same, sames_iff operands]

theorem sames_iff : (lefts rights : List Expr) → (sames lefts rights = true ↔ lefts = rights)
  | [], rights => by cases rights <;> simp [sames]
  | left :: lefts, rights => by cases rights <;> simp [sames, same_iff left, sames_iff lefts]

end

instance : DecidableEq Expr := fun left right =>
  decidable_of_iff (left.same right = true) (same_iff left right)

end Expr
end DecisionRules
