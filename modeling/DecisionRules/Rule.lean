import DecisionRules.Expr.Evaluation
import DecisionRules.Expr.Printer
import DecisionRules.Expr.Parser

/-!
# Rules

A rule is a text together with the tree that was read from it.  It is read once and can then be
evaluated in any number of contexts.
-/

namespace DecisionRules

/-- A rule that has been read. -/
structure Rule where
  /-- The text of the rule, as it was given. -/
  source : String
  /-- The tree of the rule. -/
  tree : Expr
  deriving DecidableEq

namespace Rule

/-- Reads a rule. -/
def parse
    (vocabulary : Vocabulary)
    (maxDepth : Nat)
    (source : String) :
    Except RuleError Rule :=
  (Expr.parse vocabulary maxDepth source).map fun tree => ⟨source, tree⟩

/-- A rule keeps the text that it was read from. -/
theorem source_of_parse
    {vocabulary : Vocabulary}
    {maxDepth : Nat}
    {source : String}
    {rule : Rule}
    (read : parse vocabulary maxDepth source = .ok rule) :
    rule.source = source := by
  obtain ⟨tree, _, rfl⟩ := exists_ok_of_map_eq_ok read
  rfl

/-- The value of a rule in a context. -/
def evaluate (rule : Rule) (context : Context) : Except RuleError Value :=
  rule.tree.eval context

/-- Whether a rule holds in a context. -/
def check (rule : Rule) (context : Context) : Except RuleError Bool :=
  (rule.evaluate context).map Value.isTruthy

/-- The canonical text of a rule. -/
def text (rule : Rule) : String :=
  rule.tree.text

end Rule
end DecisionRules
