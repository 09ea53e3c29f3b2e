import DecisionRules.Grammar.Production
import DecisionRules.Token.Scan

/-!
# Reading rule texts

A rule text is scanned, and its tokens are read by the grammar's production of disjunctions,
which has to take them all.
-/

namespace DecisionRules
namespace Expr

/-- Reads a rule from its tokens, all of which it has to take. -/
def ofTokens
    (vocabulary : Vocabulary)
    (maxDepth : Nat)
    (tokens : List Token) :
    Except Obstacle Expr :=
  match Grammar.nested vocabulary maxDepth .disjunction tokens with
  | .error obstacle => .error obstacle
  | .ok ⟨tree, [], _⟩ => .ok tree
  | .ok ⟨_, found :: _, _⟩ => .error (.trailingInput found)

/-- Reads a rule text that has been scanned. -/
def parseTokens
    (vocabulary : Vocabulary)
    (maxDepth : Nat)
    (source : String)
    (tokens : Tokens) :
    Except RuleError Expr :=
  (ofTokens vocabulary maxDepth tokens.body).mapError (Obstacle.toError source tokens)

/-- Reads a rule text, in which parentheses and negations are nested at most `maxDepth` deep. -/
def parse
    (vocabulary : Vocabulary)
    (maxDepth : Nat)
    (source : String) :
    Except RuleError Expr :=
  match Tokens.scan source with
  | .error error => .error error
  | .ok tokens => parseTokens vocabulary maxDepth source tokens

end Expr
end DecisionRules
