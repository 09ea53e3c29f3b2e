import DecisionRules.Proofs.Expr.Failure
import DecisionRules.Proofs.Grammar.Standalone
import DecisionRules.Proofs.Token.MaximalMunch

/-!
# Signs of operators

Every operator in the tree of a phrase is there for a token of the phrase, and the token is spelled
in the text.  So a rule divides only where its text has a sign of division.
-/

namespace DecisionRules

/-- The terminal symbol of an operator that computes. -/
def Arithmetic.terminal : Arithmetic → Terminal
  | .multiply => .star
  | .divide => .slash
  | .add => .plus
  | .subtract => .minus

/-- The sign of division has one spelling. -/
theorem Terminal.Spells.eq_slash {lexeme : List Char} (spells : Spells lexeme .slash) :
    lexeme = ['/'] := by
  cases spells with
  | keyword reserved _ => simp [keywords] at reserved
  | operator listed => simpa [spellings] using listed

namespace Grammar

/-- An operator that computes is spelled by its symbol only. -/
theorem eq_terminal_of_mem_operators
    {terminal : Terminal}
    {operator : Arithmetic}
    (spelled :
      (terminal, operator) ∈ Level.product.operators ∨
        (terminal, operator) ∈ Level.sum.operators) :
    terminal = operator.terminal := by
  simp only [Level.operators, List.mem_cons, Prod.mk.injEq, List.not_mem_nil, or_false] at spelled
  obtain (⟨rfl, rfl⟩ | ⟨rfl, rfl⟩) | ⟨rfl, rfl⟩ | ⟨rfl, rfl⟩ := spelled <;> rfl

/-- A tree is that of a phrase among some tokens, with a sign in front of the phrase. -/
def StandsAfter
    (vocabulary : Vocabulary)
    (terminal : Terminal)
    (tree : Expr)
    (tokens : List Token) :
    Prop :=
  ∃ (before : List Token) (sign : Token) (phrase : Phrase (.run .disjunction))
    (after : List Token),
    tokens = before ++ sign :: (phrase.tokens ++ after) ∧
      sign.terminal = terminal ∧ phrase.tree vocabulary = tree

section StandsAfter

variable
  {vocabulary : Vocabulary}
  {terminal : Terminal}
  {operand : Expr}
  {tokens wider : List Token}

theorem StandsAfter.mono
    (stands : StandsAfter vocabulary terminal operand tokens)
    (within : tokens <:+: wider) :
    StandsAfter vocabulary terminal operand wider := by
  obtain ⟨before, sign, phrase, after, rfl, signed, made⟩ := stands
  obtain ⟨earlier, later, rfl⟩ := within
  exact ⟨earlier ++ before, sign, phrase, after ++ later, by simp, signed, made⟩

/-- A later operand of a run stands after its operator. -/
theorem Later.exists_standsAfter {level : Level} {operator : level.Operator} :
    (later : Later level) →
      (operator, operand) ∈ later.operators.zip (later.trees vocabulary) →
      ∃ terminal,
        (terminal, operator) ∈ level.operators ∧
          StandsAfter vocabulary terminal operand later.tokens
  | .done, member => by cases member
  | .more sign found spelled next rest, member => by
      obtain same | memberRest := List.mem_cons.mp member
      · cases same
        refine ⟨sign.terminal, spelled, [], sign, next.alone, rest.tokens, ?_, rfl,
          next.tree_alone vocabulary⟩
        rw [next.tokens_alone]
        rfl
      · obtain ⟨terminal, spelledOther, stands⟩ := rest.exists_standsAfter memberRest
        exact ⟨terminal, spelledOther, stands.mono (List.suffix_append (sign :: _) _).isInfix⟩

/-- A later operand of a computation stands after the sign of its operator. -/
theorem Phrase.standsAfter
    {symbol : Nonterminal}
    {first : Expr}
    {rest : List Expr}
    {operators : List Arithmetic}
    {operator : Arithmetic}
    (member : (operator, operand) ∈ operators.zip rest) :
    (phrase : Phrase symbol) →
      phrase.tree vocabulary = .arithmetic (first :: rest) operators →
      StandsAfter vocabulary operator.terminal operand phrase.tokens
  | .operand _ _, computes => by cases computes
  | .group _ _ _ _ _, computes => by cases computes
  | .denial _ _ _, computes => by cases computes
  | .plain inner, computes => inner.standsAfter member computes
  | @Phrase.run level only .done, computes => by
      have computesOnly : only.tree vocabulary = .arithmetic (first :: rest) operators := by
        cases level <;> exact computes
      exact (only.standsAfter member computesOnly).mono (List.prefix_append ..).isInfix
  | @Phrase.run level only (.more next operation spelled second others), computes => by
      have inside := (List.suffix_append only.tokens
        (Later.more next operation spelled second others).tokens).isInfix
      cases level with
      | product =>
          cases computes
          obtain ⟨terminal, same, stands⟩ :=
            (Later.more next operation spelled second others).exists_standsAfter member
          rw [← eq_terminal_of_mem_operators (.inl same)]
          exact stands.mono inside
      | sum =>
          cases computes
          obtain ⟨terminal, same, stands⟩ :=
            (Later.more next operation spelled second others).exists_standsAfter member
          rw [← eq_terminal_of_mem_operators (.inr same)]
          exact stands.mono inside
      | _ => cases computes

end StandsAfter

end Grammar

namespace Expr

open Grammar

variable
  {vocabulary : Vocabulary}
  {maxDepth : Nat}
  {source : String}
  {tree divisor : Expr}

/-- A divisor of a rule stands after a sign of division. -/
theorem HasDivisor.standsAfter
    {tokens : Tokens}
    (divides : tree.HasDivisor divisor)
    (scanned : Tokens.scan source = .ok tokens)
    (read : parse vocabulary maxDepth source = .ok tree) :
    StandsAfter vocabulary .slash divisor tokens.body := by
  obtain ⟨first, rest, operators, member, divided⟩ := divides
  obtain ⟨phrase, computes, _, within⟩ := exists_phrase_of_mem_nodes scanned read member
  exact (phrase.standsAfter divided computes).mono within

/-- A rule that divides has a sign of division in its text. -/
theorem mem_of_hasDivisor
    (read : parse vocabulary maxDepth source = .ok tree)
    (divides : tree.HasDivisor divisor) :
    '/' ∈ source.toList := by
  obtain ⟨tokens, scanned⟩ := exists_scan_of_parse read
  have tiles : Tiles 0 source.toList tokens.body := Tokens.tiles_of_scanAt scanned
  obtain ⟨before, sign, phrase, after, spelled, slash, _⟩ := divides.standsAfter scanned read
  have member : sign ∈ tokens.body := by
    rw [spelled]
    simp
  obtain ⟨earlier, later, text, _, spells, _⟩ := tiles.covers.stands sign member
  rw [slash] at spells
  rw [text, spells.eq_slash]
  simp

end Expr
end DecisionRules
