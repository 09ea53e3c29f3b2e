import DecisionRules.Expr.Parser

/-!
# Phrases of the grammar

A phrase is a derivation of a symbol of the grammar: it says which tokens belong together and
what each of them is there for.  Phrases are described without regard to how a rule is read.  The
five levels of binary operators have one form, a run, in which `operand` names the symbol of the
next tighter level and `operators` lists what may stand between two operands.

A phrase spells a list of tokens, places each of them at a depth of nesting, and stands for a
tree.  The main result is that the grammar is unambiguous: two phrases of one symbol that spell
the same tokens are the same phrase.
-/

namespace DecisionRules
namespace Grammar

/-- The levels of binary operators, the tightest binding first. -/
inductive Level
  | product
  | sum
  | comparison
  | conjunction
  | disjunction
  deriving DecidableEq

/-- The symbols that the productions of the grammar define. -/
inductive Nonterminal
  | primary
  | condition
  | run (level : Level)
  deriving DecidableEq

namespace Level

/-- What an operator of a level tells about the tree.  Connectives tell nothing more. -/
abbrev Operator : Level → Type
  | .product | .sum => Arithmetic
  | .comparison => Comparison
  | .conjunction | .disjunction => Unit

/-- The symbol of the operands of a level. -/
def operand : Level → Nonterminal
  | .product => .primary
  | .sum => .run .product
  | .comparison => .run .sum
  | .conjunction => .condition
  | .disjunction => .run .conjunction

/-- The terminal symbols that stand between the operands of a level. -/
def operators : (level : Level) → List (Terminal × level.Operator)
  | .product => [(.star, .multiply), (.slash, .divide)]
  | .sum => [(.plus, .add), (.minus, .subtract)]
  | .comparison =>
    [(.less, .less), (.lessEqual, .lessEqual), (.greater, .greater),
      (.greaterEqual, .greaterEqual), (.equal, .equal), (.equalEqual, .equal),
      (.bangEqual, .notEqual)]
  | .conjunction => [(.conjunction, ())]
  | .disjunction => [(.disjunction, ())]

/-- The tree of a run: one node for all operands, and no node for a single one. -/
def node
    (level : Level)
    (first : Expr)
    (later : List Expr)
    (operators : List level.Operator) :
    Expr :=
  match level, later, operators with
  | _, [], _ => first
  | .product, later, operators => .arithmetic (first :: later) operators
  | .sum, later, operators => .arithmetic (first :: later) operators
  | .comparison, later, operators => .comparison (first :: later) operators
  | .conjunction, later, _ => .logical .and (first :: later)
  | .disjunction, later, _ => .logical .or (first :: later)

end Level

mutual

/-- The derivations of a symbol. -/
inductive Phrase : Nonterminal → Type
  /-- A number, a truth value or a name. -/
  | operand (token : Token) (isOperand : token.terminal.isOperand = true) : Phrase .primary
  /-- A disjunction in parentheses. -/
  | group
      (opening : Token)
      (opens : opening.terminal = .leftParen)
      (inner : Phrase (.run .disjunction))
      (closing : Token)
      (closes : closing.terminal = .rightParen) :
      Phrase .primary
  /-- A condition after `not`. -/
  | denial
      (sign : Token)
      (denies : sign.terminal = .negation)
      (inner : Phrase .condition) :
      Phrase .condition
  /-- A condition that is a comparison. -/
  | plain (inner : Phrase (.run .comparison)) : Phrase .condition
  /-- An operand of a level and what follows it. -/
  | run {level : Level} (first : Phrase level.operand) (later : Later level) :
      Phrase (.run level)

/-- The operators of a level that follow a first operand, each with an operand of its own. -/
inductive Later : Level → Type
  | done {level : Level} : Later level
  | more
      {level : Level}
      (sign : Token)
      (operator : level.Operator)
      (spelled : (sign.terminal, operator) ∈ level.operators)
      (operand : Phrase level.operand)
      (rest : Later level) :
      Later level

end

mutual

/-- The tokens that a phrase spells. -/
def Phrase.tokens {symbol : Nonterminal} : Phrase symbol → List Token
  | .operand token _ => [token]
  | .group opening _ inner closing _ => opening :: (inner.tokens ++ [closing])
  | .denial sign _ inner => sign :: inner.tokens
  | .plain inner => inner.tokens
  | .run first later => first.tokens ++ later.tokens

/-- The tokens of the later part of a run. -/
def Later.tokens {level : Level} : Later level → List Token
  | .done => []
  | .more sign _ _ operand rest => sign :: (operand.tokens ++ rest.tokens)

end

mutual

/-- The tokens of a phrase, each with the number of groups and denied conditions that it lies
in, where the phrase itself lies in `depth` of them. -/
def Phrase.places {symbol : Nonterminal} (depth : Nat) : Phrase symbol → List (Token × Nat)
  | .operand token _ => [(token, depth)]
  | .group opening _ inner closing _ =>
    (opening, depth) :: (inner.places (depth + 1) ++ [(closing, depth)])
  | .denial sign _ inner => (sign, depth) :: inner.places (depth + 1)
  | .plain inner => inner.places depth
  | .run first later => first.places depth ++ later.places depth

/-- The places of the later part of a run. -/
def Later.places {level : Level} (depth : Nat) : Later level → List (Token × Nat)
  | .done => []
  | .more sign _ _ operand rest =>
    (sign, depth) :: (operand.places depth ++ rest.places depth)

end

/-- The operand that a token stands for.  A name has the spelling of the vocabulary. -/
def denoted (vocabulary : Vocabulary) (token : Token) : Operand :=
  match token.terminal with
  | .number => .literal (.number ((Decimal.read? token.lexeme.toList).getD 0))
  | .truth => .literal (.boolean true)
  | .falsehood => .literal (.boolean false)
  | _ => .variable ((vocabulary.resolve? token.lexeme).getD token.lexeme)

/-- The operators between the operands of a run. -/
def Later.operators {level : Level} : Later level → List level.Operator
  | .done => []
  | .more _ operator _ _ rest => operator :: rest.operators

mutual

/-- The tree that a phrase stands for. -/
def Phrase.tree {symbol : Nonterminal} (vocabulary : Vocabulary) : Phrase symbol → Expr
  | .operand token _ => .leaf (denoted vocabulary token) token.span
  | .group opening _ inner closing _ =>
    .group (inner.tree vocabulary) (opening.span.join closing.span)
  | .denial sign _ inner =>
    .negation (inner.tree vocabulary) (sign.span.join (inner.tree vocabulary).span)
  | .plain inner => inner.tree vocabulary
  | @Phrase.run level first later =>
    level.node (first.tree vocabulary) (later.trees vocabulary) later.operators

/-- The trees of the later operands of a run. -/
def Later.trees {level : Level} (vocabulary : Vocabulary) : Later level → List Expr
  | .done => []
  | .more _ _ _ operand rest => operand.tree vocabulary :: rest.trees vocabulary

end

mutual

/-- The places of a phrase are the places of its tokens. -/
theorem Phrase.map_fst_places {symbol : Nonterminal} (depth : Nat) :
    (phrase : Phrase symbol) → (phrase.places depth).map Prod.fst = phrase.tokens
  | .operand _ _ => rfl
  | .group _ _ inner _ _ => by
      simp [Phrase.places, Phrase.tokens, inner.map_fst_places]
  | .denial _ _ inner => by
      simp [Phrase.places, Phrase.tokens, inner.map_fst_places]
  | .plain inner => inner.map_fst_places depth
  | .run first later => by
      simp [Phrase.places, Phrase.tokens, first.map_fst_places, later.map_fst_places]

theorem Later.map_fst_places {level : Level} (depth : Nat) :
    (later : Later level) → (later.places depth).map Prod.fst = later.tokens
  | .done => rfl
  | .more _ _ _ operand rest => by
      simp [Later.places, Later.tokens, operand.map_fst_places, rest.map_fst_places]

end

/-- Every later operand has its operator. -/
theorem Later.length_operators {level : Level} (vocabulary : Vocabulary) :
    (later : Later level) → later.operators.length = (later.trees vocabulary).length
  | .done => rfl
  | .more _ _ _ _ rest => by
      simp [Later.operators, Later.trees, rest.length_operators vocabulary]

/-- A terminal symbol joins the operands of a level. -/
def Level.Joins (level : Level) (terminal : Terminal) : Prop :=
  ∃ operator, (terminal, operator) ∈ level.operators

/-- The level whose operands a terminal symbol joins. -/
def joined? : Terminal → Option Level
  | .star | .slash => some .product
  | .plus | .minus => some .sum
  | .less | .lessEqual | .greater | .greaterEqual | .equal | .equalEqual | .bangEqual =>
    some .comparison
  | .conjunction => some .conjunction
  | .disjunction => some .disjunction
  | _ => none

theorem Level.joins_iff (level : Level) (terminal : Terminal) :
    level.Joins terminal ↔ joined? terminal = some level := by
  cases level <;> cases terminal <;> simp [Level.Joins, Level.operators, joined?]

/-- No terminal symbol joins operands of two levels. -/
theorem Level.Joins.unique
    {first second : Level}
    {terminal : Terminal}
    (one : first.Joins terminal)
    (other : second.Joins terminal) :
    first = second := by
  rw [Level.joins_iff] at one other
  exact Option.some.inj (one.symm.trans other)

/-- The token of an operator determines it. -/
theorem Level.operator_unique
    {level : Level}
    {terminal : Terminal}
    {one other : level.Operator}
    (spelled : (terminal, one) ∈ level.operators)
    (spelled' : (terminal, other) ∈ level.operators) :
    one = other := by
  cases level <;> cases terminal <;> simp_all [Level.operators]

/-- No operator is an operand. -/
theorem Level.isOperand_eq_false
    {level : Level}
    {terminal : Terminal}
    {operator : level.Operator}
    (spelled : (terminal, operator) ∈ level.operators) :
    terminal.isOperand = false := by
  cases level <;> cases terminal <;> simp_all [Level.operators, Terminal.isOperand]

namespace Nonterminal

/-- The levels whose operators occur in a phrase outside of all parentheses and denials. -/
def levels : Nonterminal → List Level
  | .primary => []
  | .run .product => [.product]
  | .run .sum => [.sum, .product]
  | .condition | .run .comparison => [.comparison, .sum, .product]
  | .run .conjunction => [.conjunction, .comparison, .sum, .product]
  | .run .disjunction => [.disjunction, .conjunction, .comparison, .sum, .product]

theorem levels_run (level : Level) :
    (Nonterminal.run level).levels = level :: level.operand.levels := by
  cases level <;> rfl

theorem notMem_levels_operand (level : Level) : level ∉ level.operand.levels := by
  cases level <;> decide

/-- The terminal symbols that a phrase can begin with. -/
def begins (symbol : Nonterminal) (terminal : Terminal) : Bool :=
  terminal.isOperand || terminal == .leftParen ||
    (terminal == .negation &&
      (symbol == .condition || symbol == .run .conjunction || symbol == .run .disjunction))

theorem begins_run
    {level : Level}
    {terminal : Terminal}
    (begin : level.operand.begins terminal = true) :
    (Nonterminal.run level).begins terminal = true := by
  cases level <;> cases terminal <;> simp_all [begins, Level.operand, Terminal.isOperand]

end Nonterminal

/-- A phrase has a first token, which its symbol can begin with. -/
theorem Phrase.exists_tokens_cons {symbol : Nonterminal} :
    (phrase : Phrase symbol) →
      ∃ token rest, phrase.tokens = token :: rest ∧ symbol.begins token.terminal = true
  | .operand token isOperand => ⟨token, [], rfl, by simp [Nonterminal.begins, isOperand]⟩
  | .group opening opens inner closing _ =>
      ⟨opening, inner.tokens ++ [closing], rfl, by simp [Nonterminal.begins, opens]⟩
  | .denial sign denies inner => ⟨sign, inner.tokens, rfl, by simp [Nonterminal.begins, denies]⟩
  | .plain inner => by
      obtain ⟨token, rest, spelled, begin⟩ := inner.exists_tokens_cons
      refine ⟨token, rest, spelled, ?_⟩
      simp only [Nonterminal.begins, Bool.or_eq_true] at begin ⊢
      exact begin.imp_right (by simp)
  | .run first later => by
      obtain ⟨token, rest, spelled, begin⟩ := first.exists_tokens_cons
      exact ⟨token, rest ++ later.tokens, by simp [Phrase.tokens, spelled],
        Nonterminal.begins_run begin⟩

/-- What follows a phrase does not go on with it: it begins with no operator of a level that
occurs in the phrase. -/
def Stops (symbol : Nonterminal) (rest : List Token) : Prop :=
  ∀ level ∈ symbol.levels, ∀ token ∈ rest.head?, ¬ level.Joins token.terminal

theorem stops_nil (symbol : Nonterminal) : Stops symbol [] := by
  simp [Stops]

theorem stops_of_closing
    (symbol : Nonterminal)
    {closing : Token}
    (closes : closing.terminal = .rightParen)
    (rest : List Token) :
    Stops symbol (closing :: rest) := by
  intro level _ token head
  cases head
  rw [Level.joins_iff, closes]
  simp [joined?]

/-- What stops a run stops its last operand. -/
theorem Stops.operand
    {level : Level}
    {rest : List Token}
    (stops : Stops (.run level) rest) :
    Stops level.operand rest := by
  intro tighter member
  apply stops tighter
  rw [Nonterminal.levels_run]
  exact List.mem_cons_of_mem _ member

/-- What stops a run has no operator of the run in front. -/
theorem Stops.not_joins
    {level : Level}
    {token : Token}
    {rest : List Token}
    (stops : Stops (.run level) (token :: rest)) :
    ¬ level.Joins token.terminal := by
  refine stops level ?_ token rfl
  rw [Nonterminal.levels_run]
  exact List.mem_cons_self

/-- The operator of a run stops the operand before it. -/
theorem stops_of_joins
    {level : Level}
    {sign : Token}
    (joins : level.Joins sign.terminal)
    (rest : List Token) :
    Stops level.operand (sign :: rest) := by
  intro tighter member token head tight
  cases head
  rw [tight.unique joins] at member
  exact Nonterminal.notMem_levels_operand level member

theorem Later.stops
    {level : Level}
    (later : Later level)
    {rest : List Token}
    (stops : Stops (.run level) rest) :
    Stops level.operand (later.tokens ++ rest) := by
  cases later with
  | done => exact stops.operand
  | more sign operator spelled operand remaining =>
      exact stops_of_joins ⟨operator, spelled⟩ _

mutual

/-- A list of tokens has at most one beginning that is a phrase of a symbol and does not go on
with what follows. -/
theorem Phrase.eq_of_append_eq
    {symbol : Nonterminal}
    {leftRest rightRest : List Token} :
    (left right : Phrase symbol) →
    left.tokens ++ leftRest = right.tokens ++ rightRest →
    Stops symbol leftRest →
    Stops symbol rightRest →
    left = right ∧ leftRest = rightRest
  | .operand token isOperand, right, same, _, _ => by
      cases right with
      | operand other _ =>
          simp only [Phrase.tokens, List.cons_append, List.nil_append, List.cons.injEq] at same
          obtain ⟨rfl, rfl⟩ := same
          exact ⟨rfl, rfl⟩
      | group opening opens _ _ _ =>
          simp only [Phrase.tokens, List.cons_append, List.cons.injEq] at same
          rw [same.1, opens] at isOperand
          cases isOperand
  | .group opening opens inner closing closes, right, same, _, _ => by
      cases right with
      | operand other isOperand =>
          simp only [Phrase.tokens, List.cons_append, List.cons.injEq] at same
          rw [← same.1, opens] at isOperand
          cases isOperand
      | group opening' opens' inner' closing' closes' =>
          simp only [Phrase.tokens, List.cons_append, List.append_assoc, List.nil_append,
            List.cons.injEq] at same
          obtain ⟨rfl, spelled⟩ := same
          obtain ⟨rfl, rests⟩ :=
            inner.eq_of_append_eq inner' spelled (stops_of_closing _ closes _)
              (stops_of_closing _ closes' _)
          obtain ⟨rfl, rfl⟩ := List.cons.inj rests
          exact ⟨rfl, rfl⟩
  | .denial sign denies inner, right, same, stops, stops' => by
      cases right with
      | denial sign' denies' inner' =>
          simp only [Phrase.tokens, List.cons_append, List.cons.injEq] at same
          obtain ⟨rfl, spelled⟩ := same
          obtain ⟨rfl, rfl⟩ := inner.eq_of_append_eq inner' spelled stops stops'
          exact ⟨rfl, rfl⟩
      | plain inner' =>
          obtain ⟨token, rest, spelled, begin⟩ := inner'.exists_tokens_cons
          simp only [Phrase.tokens, spelled, List.cons_append, List.cons.injEq] at same
          rw [← same.1, denies] at begin
          cases begin
  | .plain inner, right, same, stops, stops' => by
      cases right with
      | denial sign denies inner' =>
          obtain ⟨token, rest, spelled, begin⟩ := inner.exists_tokens_cons
          simp only [Phrase.tokens, spelled, List.cons_append, List.cons.injEq] at same
          rw [same.1, denies] at begin
          cases begin
      | plain inner' =>
          obtain ⟨rfl, rfl⟩ := inner.eq_of_append_eq inner' same stops stops'
          exact ⟨rfl, rfl⟩
  | .run first later, right, same, stops, stops' => by
      cases right with
      | run first' later' =>
          simp only [Phrase.tokens, List.append_assoc] at same
          obtain ⟨rfl, tails⟩ :=
            first.eq_of_append_eq first' same (later.stops stops) (later'.stops stops')
          obtain ⟨rfl, rfl⟩ := later.eq_of_append_eq later' tails stops stops'
          exact ⟨rfl, rfl⟩

theorem Later.eq_of_append_eq
    {level : Level}
    {leftRest rightRest : List Token} :
    (left right : Later level) →
    left.tokens ++ leftRest = right.tokens ++ rightRest →
    Stops (.run level) leftRest →
    Stops (.run level) rightRest →
    left = right ∧ leftRest = rightRest
  | .done, right, same, stops, _ => by
      cases right with
      | done => exact ⟨rfl, same⟩
      | more sign operator spelled _ _ =>
          simp only [Later.tokens, List.nil_append, List.cons_append] at same
          rw [same] at stops
          exact absurd ⟨operator, spelled⟩ stops.not_joins
  | .more sign operator spelled operand rest, right, same, stops, stops' => by
      cases right with
      | done =>
          simp only [Later.tokens, List.nil_append, List.cons_append] at same
          rw [← same] at stops'
          exact absurd ⟨operator, spelled⟩ stops'.not_joins
      | more sign' operator' spelled' operand' rest' =>
          simp only [Later.tokens, List.cons_append, List.append_assoc, List.cons.injEq] at same
          obtain ⟨rfl, tails⟩ := same
          obtain rfl := Level.operator_unique spelled spelled'
          obtain ⟨rfl, rests⟩ :=
            operand.eq_of_append_eq operand' tails (rest.stops stops) (rest'.stops stops')
          obtain ⟨rfl, rfl⟩ := rest.eq_of_append_eq rest' rests stops stops'
          exact ⟨rfl, rfl⟩

end

/-- The grammar is unambiguous: a list of tokens is at most one phrase of a symbol. -/
theorem Phrase.tokens_injective {symbol : Nonterminal} {left right : Phrase symbol}
    (same : left.tokens = right.tokens) : left = right :=
  (left.eq_of_append_eq right (by rw [same]) (stops_nil symbol) (stops_nil symbol)).1

end Grammar
end DecisionRules
