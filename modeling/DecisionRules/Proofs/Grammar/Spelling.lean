import DecisionRules.Proofs.Grammar.Alike

/-!
# Rule texts with the same spellings

Texts whose tokens are spelled the same, one by one, are read as the same tree but for its places,
or fail for the same reason.  Trees that are the same but for their places have the same value, or
the same error but for its place.
-/

namespace DecisionRules

namespace RuleError

/-- An error without its place in the text and what it quotes from there. -/
def unplaced : RuleError → RuleError
  | .malformed fault _ _ _ => .malformed fault "" .origin .start
  | .unknownVariable name _ => .unknownVariable name .origin
  | .divisionByZero _ => .divisionByZero .origin

theorem unplaced_mapSpan (change : Span → Span) (error : RuleError) :
    (error.mapSpan change).unplaced = error.unplaced := by
  cases error <;> rfl

end RuleError

namespace Grammar

variable {vocabulary : Vocabulary}

/-- Tokens that are spelled the same are not read as operands for the same reason. -/
theorem unplaced_eq_of_ofToken
    {token other : Token}
    {error otherError : RuleError}
    (same : token.spelling = other.spelling)
    (fails : Operand.ofToken vocabulary token = .error error)
    (otherFails : Operand.ofToken vocabulary other = .error otherError) :
    error.unplaced = otherError.unplaced := by
  have synonymous : Synonymous vocabulary token other := .of_spelling same
  have lexeme : token.lexeme = other.lexeme := String.toList_inj.mp (congrArg Prod.snd same)
  obtain ⟨_, one, _⟩ | ⟨_, one, another⟩ | ⟨one, another⟩ := synonymous.ofToken_cases <;>
    rw [one] at fails <;> cases fails <;> rw [another] at otherFails <;> cases otherFails
  · rfl
  · rw [RuleError.unplaced, RuleError.unplaced, lexeme]

theorem unplaced_malformed
    (source : String)
    (tokens : Tokens)
    (fault : Fault)
    (span : Span) :
    (Obstacle.malformed source tokens fault span).unplaced =
      .malformed fault "" .origin .start := rfl

/-- Obstacles of one kind at tokens that are spelled the same amount to the same error but for its
place. -/
theorem ObstaclesRelated.unplaced_toError
    {obstacle otherObstacle : Obstacle}
    (related : ObstaclesRelated vocabulary (fun left right => left.spelling = right.spelling)
      obstacle otherObstacle)
    (source other : String)
    (tokens others : Tokens) :
    (obstacle.toError source tokens).unplaced =
      (otherObstacle.toError other others).unplaced := by
  cases related with
  | operand same fails otherFails => exact unplaced_eq_of_ofToken same fails otherFails
  | missingOperand found => cases found <;> simp only [Obstacle.toError, unplaced_malformed]
  | _ => simp only [Obstacle.toError, unplaced_malformed]

end Grammar

namespace Expr

open Grammar

/-- Texts with the same spellings are read as the same tree, or fail for the same reason, but for
places. -/
theorem parse_congr_of_spelling
    {source other : String}
    {tokens others : Tokens}
    (scanned : Tokens.scan source = .ok tokens)
    (otherScanned : Tokens.scan other = .ok others)
    (same : others.body.map Token.spelling = tokens.body.map Token.spelling)
    (vocabulary : Vocabulary)
    (maxDepth : Nat) :
    ((parse vocabulary maxDepth other).map unplaced).mapError RuleError.unplaced =
      ((parse vocabulary maxDepth source).map unplaced).mapError RuleError.unplaced := by
  have pairs := forall₂_of_map_eq same
  simp only [parse, scanned, otherScanned, parseTokens]
  cases read : ofTokens vocabulary maxDepth tokens.body with
  | ok tree =>
      obtain ⟨otherTree, otherRead, trees⟩ :=
        exists_unplaced_of_synonymous (pairs.imp fun _ _ spelled => .of_spelling spelled) read
      rw [otherRead]
      exact congrArg Except.ok trees
  | error obstacle =>
      obtain ⟨otherObstacle, otherRead, kinds⟩ :=
        exists_obstacle_of_synonymous .of_spelling pairs read
      rw [otherRead]
      exact congrArg Except.error (kinds.unplaced_toError ..)

/-- The value of a tree does not depend on its places, and an error only for its place. -/
theorem Aligned.eval_unplaced
    {tree : Expr}
    (aligned : tree.Aligned)
    (context : Context) :
    (tree.unplaced.eval context).mapError RuleError.unplaced =
      (tree.eval context).mapError RuleError.unplaced := by
  rw [unplaced, aligned.eval_mapSpans Span.respects_origin]
  cases tree.eval context with
  | ok value => rfl
  | error error => exact congrArg Except.error (error.unplaced_mapSpan _)

end Expr
end DecisionRules
