import DecisionRules.Proofs.Engine.Fallback
import DecisionRules.Proofs.Grammar.Spelling
import DecisionRules.Proofs.Token.Respacing

/-!
# Decisions on texts that are spaced differently

The separators of a rule text only keep its tokens apart.  Texts with the same lexemes are read and
evaluated alike whatever stands between the lexemes, and lead to the same decision.  Only places in
the text and what errors quote from it can differ.
-/

namespace DecisionRules

/-- An outcome without the place of the rule's own error.  The error of a default rule, which has
another text, is left as it is. -/
def Outcome.unplaced : Outcome → Outcome
  | .rule => .rule
  | .fallback cause => .fallback cause.unplaced
  | .defect cause defaultCause => .defect cause.unplaced defaultCause

namespace Engine

variable {engine : Engine} {context : Context} {source other : String}

/-- Texts that are read alike but for places are checked alike but for places. -/
theorem check_congr_of_parse
    (same :
      ((Expr.parse engine.settings.vocabulary engine.settings.maxDepth other).map
          Expr.unplaced).mapError RuleError.unplaced =
        ((Expr.parse engine.settings.vocabulary engine.settings.maxDepth source).map
          Expr.unplaced).mapError RuleError.unplaced) :
    (engine.check other context).mapError RuleError.unplaced =
      (engine.check source context).mapError RuleError.unplaced := by
  rw [check_eq, check_eq]
  cases otherRead : Expr.parse engine.settings.vocabulary engine.settings.maxDepth other <;>
    cases read : Expr.parse engine.settings.vocabulary engine.settings.maxDepth source <;>
    rw [otherRead, read] at same
  next => exact congrArg Except.error (Except.error.inj same)
  next => cases same
  next => cases same
  next otherTree tree =>
    have trees : otherTree.unplaced = tree.unplaced := Except.ok.inj same
    have values : (otherTree.eval context).mapError RuleError.unplaced =
        (tree.eval context).mapError RuleError.unplaced := by
      rw [← (Expr.aligned_of_parse otherRead).eval_unplaced, trees,
        (Expr.aligned_of_parse read).eval_unplaced]
    simp only
    cases otherResult : otherTree.eval context <;> cases result : tree.eval context <;>
      rw [otherResult, result] at values
    next => exact congrArg Except.error (Except.error.inj values)
    next => cases values
    next => cases values
    next => exact congrArg (fun value => Except.ok (Value.isTruthy value)) (Except.ok.inj values)

/-- Checks that are alike but for places lead to the same decision but for places. -/
theorem decide_congr_of_check
    (same : (engine.check other context).mapError RuleError.unplaced =
      (engine.check source context).mapError RuleError.unplaced) :
    (engine.decide other context).verdict = (engine.decide source context).verdict ∧
      (engine.decide other context).outcome.unplaced =
        (engine.decide source context).outcome.unplaced := by
  rw [decide, decide]
  cases otherChecked : engine.check other context <;>
    cases checked : engine.check source context <;>
    rw [otherChecked, checked] at same
  next =>
    have causes := Except.error.inj same
    cases engine.fallback.check context with
    | ok verdict => exact ⟨rfl, congrArg Outcome.fallback causes⟩
    | error defaultCause => exact ⟨rfl, congrArg (Outcome.defect · defaultCause) causes⟩
  next => cases same
  next => cases same
  next => exact ⟨Except.ok.inj same, rfl⟩

/-- A text that can be scanned keeps the symbols and lexemes of its tokens when it is spaced
differently.  It is read as the same tree or fails for the same reason, and every engine comes to
the same decision in every context, in all of which only places can differ. -/
theorem alike_of_respaced
    {tokens : Tokens}
    (scanned : Tokens.scan source = .ok tokens)
    (respaced :
      Respaced false (tokens.body.map Token.lexeme) source.toList other.toList) :
    (∃ others,
      Tokens.scan other = .ok others ∧
        others.toList.map Token.spelling = tokens.toList.map Token.spelling) ∧
    (∀ vocabulary maxDepth,
      ((Expr.parse vocabulary maxDepth other).map Expr.unplaced).mapError RuleError.unplaced =
        ((Expr.parse vocabulary maxDepth source).map Expr.unplaced).mapError
          RuleError.unplaced) ∧
    ∀ (engine : Engine) (context : Context),
      (engine.decide other context).verdict = (engine.decide source context).verdict ∧
        (engine.decide other context).outcome.unplaced =
          (engine.decide source context).outcome.unplaced := by
  obtain ⟨others, otherScanned, same⟩ := Tokens.exists_scan_of_respaced scanned respaced
  have reads := Expr.parse_congr_of_spelling scanned otherScanned same
  refine ⟨⟨others, otherScanned, ?_⟩, reads, fun engine context => ?_⟩
  · exact Tokens.map_spelling_toList_eq scanned otherScanned same
  · exact decide_congr_of_check (check_congr_of_parse (reads _ _))

/-- The rule `A<1` is spaced out over two lines, and is decided as before where `A` is zero. -/
theorem alike_of_respaced_of_lines :
    ∃ tokens,
      Tokens.scan "A<1" = .ok tokens ∧
        Respaced false (tokens.body.map Token.lexeme) "A<1".toList " A\t<\r\n1".toList ∧
        (standard.decide " A\t<\r\n1" fun _ => some (.number 0)).verdict =
          (standard.decide "A<1" fun _ => some (.number 0)).verdict := by
  have lexemes :
      (Tokens.scan "A<1").map (fun tokens => tokens.body.map Token.lexeme) =
        .ok ["A", "<", "1"] := by
    decide +kernel
  cases scanned : Tokens.scan "A<1" with
  | error error =>
      rw [scanned] at lexemes
      cases lexemes
  | ok tokens =>
      rw [scanned] at lexemes
      have spelled : tokens.body.map Token.lexeme = ["A", "<", "1"] := Except.ok.inj lexemes
      have text : "A<1".toList =
          [] ++ ("A".toList ++ ([] ++ ("<".toList ++ ([] ++ ("1".toList ++ []))))) := by
        decide
      have otherText : " A\t<\r\n1".toList =
          [' '] ++ ("A".toList ++ (['\t'] ++ ("<".toList ++ (['\r', '\n'] ++
            ("1".toList ++ []))))) := by
        decide
      have respaced : Respaced false (tokens.body.map Token.lexeme) "A<1".toList
          " A\t<\r\n1".toList := by
        rw [spelled, text, otherText]
        refine .lexeme (by decide) (by decide) (by decide) ?_
        refine .lexeme (by decide) (by decide) (by decide) ?_
        refine .lexeme (by decide) (by decide) (by decide) ?_
        exact .finish (by decide) (by decide)
      exact ⟨tokens, rfl, respaced,
        ((alike_of_respaced scanned respaced).2.2 standard fun _ => some (.number 0)).1⟩

end Engine
end DecisionRules
