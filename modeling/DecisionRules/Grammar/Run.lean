import DecisionRules.Expr.Basic
import DecisionRules.Grammar.Obstacle
import DecisionRules.Reading

/-!
# Runs

A production of the grammar reads something from the front of a list of tokens and leaves the
rest.  A run is what a production reads again and again, with operators between.
-/

namespace DecisionRules

/-- A production reads a value or meets an obstacle. -/
abbrev Production (α : Type) :=
  (tokens : List Token) → Except Obstacle (Reading α tokens)

/-- Operands with an operator between each two of them. -/
structure Run (Operator : Type) where
  /-- The first operand. -/
  first : Expr
  /-- The later operands, each after its operator. -/
  later : List (Operator × Expr)

namespace Run

/-- A run with one more operand in front. -/
def cons (first : Expr) (operator : Operator) (run : Run Operator) : Run Operator :=
  ⟨first, (operator, run.first) :: run.later⟩

/-- All operands of a run. -/
def operands (run : Run Operator) : List Expr :=
  run.first :: run.later.map Prod.snd

/-- All operators of a run. -/
def operators (run : Run Operator) : List Operator :=
  run.later.map Prod.fst

/-- The tree of a run of computations; a single operand is its own tree. -/
def arithmetic (run : Run Arithmetic) : Expr :=
  if run.later.isEmpty then run.first else .arithmetic run.operands run.operators

/-- The tree of a chain of comparisons; a single operand is its own tree. -/
def comparison (run : Run Comparison) : Expr :=
  if run.later.isEmpty then run.first else .comparison run.operands run.operators

/-- The tree of conditions with a connective between each two; a single condition is its own
tree. -/
def logical (connective : Connective) (run : Run Unit) : Expr :=
  if run.later.isEmpty then run.first else .logical connective run.operands

/-- Reads a run: an operand, and for as long as an operator follows, one more. -/
def read
    (operator? : Terminal → Option Operator)
    (operand : Production Expr)
    (tokens : List Token) :
    Except Obstacle (Reading (Run Operator) tokens) :=
  match operand tokens with
  | .error obstacle => .error obstacle
  | .ok ⟨first, [], shorter⟩ => .ok ⟨⟨first, []⟩, [], shorter⟩
  | .ok ⟨first, token :: rest, shorter⟩ =>
    match operator? token.terminal with
    | none => .ok ⟨⟨first, []⟩, token :: rest, shorter⟩
    | some operator =>
      have fewer : rest.length < tokens.length :=
        Nat.lt_trans (Nat.lt_succ_self _) shorter
      match read operator? operand rest with
      | .error obstacle => .error obstacle
      | .ok run => .ok ⟨cons first operator run.value, run.rest, Nat.lt_trans run.shorter fewer⟩
  termination_by tokens.length

end Run
end DecisionRules
