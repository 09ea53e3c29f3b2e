import DecisionRules.Grammar.Run

/-!
# The grammar of rules

The productions of the grammar, the loosest binding first:

* a disjunction is a run of conjunctions with `or`;
* a conjunction is a run of conditions with `and`;
* a condition is `not` and a condition, or a comparison;
* a comparison is a chain of sums with signs of comparison;
* a sum is a run of products with `+` and `-`;
* a product is a run of primaries with `*` and `/`;
* a primary is an operand, or a disjunction in parentheses.

Parentheses and `not` go one level deeper, and a limit is set to how deep they may go.  The
productions of one level are given those of the next level, if there is one; `nested` builds
the levels on top of each other.
-/

namespace DecisionRules

namespace Terminal

/-- The operator of a product. -/
def multiplicative? : Terminal → Option Arithmetic
  | .star => some .multiply
  | .slash => some .divide
  | _ => none

/-- The operator of a sum. -/
def additive? : Terminal → Option Arithmetic
  | .plus => some .add
  | .minus => some .subtract
  | _ => none

/-- The comparison that a sign stands for. -/
def comparison? : Terminal → Option Comparison
  | .less => some .less
  | .lessEqual => some .lessEqual
  | .greater => some .greater
  | .greaterEqual => some .greaterEqual
  | .equal | .equalEqual => some .equal
  | .bangEqual => some .notEqual
  | _ => none

/-- The terminal symbol of a connective. -/
def joins? (connective : Connective) (terminal : Terminal) : Option Unit :=
  match connective, terminal with
  | .and, .conjunction => some ()
  | .or, .disjunction => some ()
  | _, _ => none

end Terminal

/-- The productions that lead one level deeper: `not` into a condition, a parenthesis into a
disjunction. -/
inductive Entrance
  | condition
  | disjunction
  deriving DecidableEq

namespace Grammar

section Level

variable (vocabulary : Vocabulary) (deeper : Option (Entrance → Production Expr))

/-- Reads an operand, or a disjunction in parentheses. -/
def primary (tokens : List Token) : Except Obstacle (Reading Expr tokens) :=
  match tokens with
  | [] => .error (.missingOperand none)
  | token :: rest =>
    if token.terminal.isOperand then
      match Operand.ofToken vocabulary token with
      | .error error => .error (.operand error)
      | .ok operand => .ok ⟨.leaf operand token.span, rest, Nat.lt_succ_self _⟩
    else if token.terminal = .leftParen then
      match deeper with
      | none => .error (.nestingTooDeep token)
      | some enter =>
        match enter .disjunction rest with
        | .error obstacle => .error obstacle
        | .ok ⟨_, [], _⟩ => .error (.unclosedGroup token none)
        | .ok ⟨inner, closing :: remaining, shorter⟩ =>
          if closing.terminal = .rightParen then
            .ok ⟨.group inner (token.span.join closing.span), remaining,
              Nat.lt_trans (Nat.lt_trans (Nat.lt_succ_self _) shorter) (Nat.lt_succ_self _)⟩
          else
            .error (.unclosedGroup token (some closing))
    else .error (.missingOperand (some token))

/-- Reads a run of primaries with `*` and `/`. -/
def product (tokens : List Token) : Except Obstacle (Reading Expr tokens) :=
  (Run.read Terminal.multiplicative? (primary vocabulary deeper) tokens).map
    (Reading.map Run.arithmetic)

/-- Reads a run of products with `+` and `-`. -/
def sum (tokens : List Token) : Except Obstacle (Reading Expr tokens) :=
  (Run.read Terminal.additive? (product vocabulary deeper) tokens).map
    (Reading.map Run.arithmetic)

/-- Reads a chain of sums with signs of comparison. -/
def comparison (tokens : List Token) : Except Obstacle (Reading Expr tokens) :=
  (Run.read Terminal.comparison? (sum vocabulary deeper) tokens).map
    (Reading.map Run.comparison)

/-- Reads `not` and a condition, or a comparison. -/
def condition (tokens : List Token) : Except Obstacle (Reading Expr tokens) :=
  match tokens with
  | [] => comparison vocabulary deeper []
  | token :: rest =>
    if token.terminal = .negation then
      match deeper with
      | none => .error (.nestingTooDeep token)
      | some enter =>
        match enter .condition rest with
        | .error obstacle => .error obstacle
        | .ok inner =>
          .ok ⟨.negation inner.value (token.span.join inner.value.span), inner.rest,
            Nat.lt_trans inner.shorter (Nat.lt_succ_self _)⟩
    else comparison vocabulary deeper (token :: rest)

/-- Reads a run of conditions with `and`. -/
def conjunction (tokens : List Token) : Except Obstacle (Reading Expr tokens) :=
  (Run.read (Terminal.joins? .and) (condition vocabulary deeper) tokens).map
    (Reading.map (Run.logical .and))

/-- Reads a run of conjunctions with `or`. -/
def disjunction (tokens : List Token) : Except Obstacle (Reading Expr tokens) :=
  (Run.read (Terminal.joins? .or) (conjunction vocabulary deeper) tokens).map
    (Reading.map (Run.logical .or))

/-- The productions of one level. -/
def level (entrance : Entrance) (tokens : List Token) :
    Except Obstacle (Reading Expr tokens) :=
  match entrance with
  | .condition => condition vocabulary deeper tokens
  | .disjunction => disjunction vocabulary deeper tokens

end Level

/-- The productions of a level below which there is room for a number of deeper ones. -/
def nested (vocabulary : Vocabulary) :
    Nat → Entrance → (tokens : List Token) → Except Obstacle (Reading Expr tokens)
  | 0, entrance, tokens => level vocabulary none entrance tokens
  | room + 1, entrance, tokens => level vocabulary (some (nested vocabulary room)) entrance tokens

end Grammar

end DecisionRules
