import DecisionRules.Expr.Basic

/-!
# Evaluation

A tree has a value in a context, or an error.  The results of the operands of a run are
combined from left to right, and what stands after the operand that settles the run has no
part in the result: a name that only occurs there need not be bound.
-/

namespace DecisionRules

/-- The truth value of a condition that settles a connective. -/
def Connective.decisive : Connective → Bool
  | .and => false
  | .or => true

/-- Joins the results of conditions.  The first error or decisive condition settles the
result. -/
def Connective.combine (connective : Connective) :
    List (Except RuleError Value) → Except RuleError Value
  | [] => .ok (.boolean !connective.decisive)
  | .error error :: _ => .error error
  | .ok value :: rest =>
    if value.isTruthy = connective.decisive then .ok (.boolean connective.decisive)
    else connective.combine rest

/-- Whether a comparison holds between two values, taken as numbers. -/
def Comparison.holds (comparison : Comparison) (left right : Value) : Bool :=
  let first := left.asNumber
  let second := right.asNumber
  match comparison with
  | .less => first < second
  | .lessEqual => first ≤ second
  | .greater => first > second
  | .greaterEqual => first ≥ second
  | .equal => first == second
  | .notEqual => first != second

/-- Compares a value with the next one, that one with the one after it, and so on.  The first
error or failing comparison settles the result. -/
def Comparison.chain (previous : Value) :
    List (Comparison × Except RuleError Value) → Except RuleError Value
  | [] => .ok (.boolean true)
  | (_, .error error) :: _ => .error error
  | (comparison, .ok value) :: rest =>
    if comparison.holds previous value then chain value rest else .ok (.boolean false)

/-- One step of a computation; the span is where the second number stands. -/
def Arithmetic.apply (operator : Arithmetic) (total number : Float) (span : Span) :
    Except RuleError Float :=
  match operator with
  | .multiply => .ok (total * number)
  | .divide => if number == 0 then .error (.divisionByZero span) else .ok (total / number)
  | .add => .ok (total + number)
  | .subtract => .ok (total - number)

/-- Computes from left to right.  The first error settles the result. -/
def Arithmetic.fold (total : Float) :
    List (Arithmetic × Span × Except RuleError Value) → Except RuleError Value
  | [] => .ok (.number total)
  | (_, _, .error error) :: _ => .error error
  | (operator, span, .ok value) :: rest =>
    match operator.apply total value.asNumber span with
    | .error error => .error error
    | .ok total => fold total rest

/-- The result of a chain of comparisons, from the results of its operands.  A chain without
operands holds. -/
def Comparison.combine (operators : List Comparison) :
    List (Except RuleError Value) → Except RuleError Value
  | [] => .ok (.boolean true)
  | .error error :: _ => .error error
  | .ok first :: rest => chain first (operators.zip rest)

/-- The result of a run of computations, from the places and the results of its operands.  A
run without operands is zero. -/
def Arithmetic.combine (operators : List Arithmetic) :
    List (Span × Except RuleError Value) → Except RuleError Value
  | [] => .ok (.number 0)
  | (_, .error error) :: _ => .error error
  | (_, .ok first) :: rest => fold first.asNumber (operators.zip rest)

namespace Expr

mutual

/-- The value of a tree in a context. -/
def eval (context : Context) : Expr → Except RuleError Value
  | .leaf operand span => operand.value context span
  | .group inner _ => inner.eval context
  | .negation inner _ => (inner.eval context).map fun value => .boolean !value.isTruthy
  | .logical connective operands => connective.combine (evals context operands)
  | .comparison operands operators => Comparison.combine operators (evals context operands)
  | .arithmetic operands operators =>
    Arithmetic.combine operators ((operands.map span).zip (evals context operands))

/-- The values of several trees in a context. -/
def evals (context : Context) : List Expr → List (Except RuleError Value)
  | [] => []
  | first :: rest => first.eval context :: evals context rest

end

@[simp] theorem evals_eq_map (context : Context) (operands : List Expr) :
    evals context operands = operands.map (eval context) := by
  induction operands with
  | nil => rfl
  | cons first rest ih => rw [evals, ih, List.map_cons]

@[simp] theorem eval_leaf (context : Context) (operand : Operand) (place : Span) :
    (Expr.leaf operand place).eval context = operand.value context place := rfl

@[simp] theorem eval_group (context : Context) (inner : Expr) (place : Span) :
    (Expr.group inner place).eval context = inner.eval context := rfl

@[simp] theorem eval_negation (context : Context) (inner : Expr) (place : Span) :
    (Expr.negation inner place).eval context =
      (inner.eval context).map fun value => .boolean !value.isTruthy := rfl

@[simp] theorem eval_logical
    (context : Context)
    (connective : Connective)
    (operands : List Expr) :
    (Expr.logical connective operands).eval context =
      connective.combine (operands.map (eval context)) := by
  rw [eval, evals_eq_map]

@[simp] theorem eval_comparison
    (context : Context)
    (operands : List Expr)
    (operators : List Comparison) :
    (Expr.comparison operands operators).eval context =
      Comparison.combine operators (operands.map (eval context)) := by
  rw [eval, evals_eq_map]

@[simp] theorem eval_arithmetic
    (context : Context)
    (operands : List Expr)
    (operators : List Arithmetic) :
    (Expr.arithmetic operands operators).eval context =
      Arithmetic.combine operators
        (operands.map fun operand => (operand.span, operand.eval context)) := by
  rw [eval, evals_eq_map, List.zip_map']

end Expr
end DecisionRules
