import DecisionRules.Proofs.Grammar.Alike
import DecisionRules.Proofs.Grammar.Culprit
import DecisionRules.Proofs.Token.Recasing

/-!
# Rule texts in another letter case

Reserved words and the names of a vocabulary are recognized in any letter case.  Only a variable
that is a single letter beside the vocabulary has the letter case that it is written in.  A text
in which everything else is written in another letter case is read as the same tree, places
included, or fails with the same error but for the letter case of what the error quotes.
-/

namespace DecisionRules

open Grammar

/-- A text differs from another one in letter case only, and not where the other one has a single
letter that the vocabulary does not list. -/
def Recased (vocabulary : Vocabulary) (source other : String) : Prop :=
  Text.sameLetters other source = true ∧
    ∀ tokens,
      Tokens.scan source = .ok tokens →
        ∀ token ∈ tokens.body,
          Vocabulary.isSingleLetter token.lexeme = true →
            vocabulary.canonical? token.lexeme = none →
              Text.slice other.toList token.span = token.lexeme.toList

/-! ## Tokens -/

/-- Tokens are the same in lower case when they differ in the letter case of their lexemes only. -/
theorem Token.lowered_eq_iff {left right : Token} :
    left.lowered = right.lowered ↔
      left.terminal = right.terminal ∧
        Text.lower left.lexeme = Text.lower right.lexeme ∧
        left.span = right.span ∧ left.position = right.position := by
  rw [lowered, lowered, Token.mk.injEq]

/-- Words with the same letters are both single letters or none. -/
theorem Vocabulary.isSingleLetter_congr
    {left right : String}
    (same : Text.sameLetters left right = true) :
    isSingleLetter left = isSingleLetter right := by
  have lower (word : String) : isSingleLetter word = isSingleLetter (Text.lower word) := by
    rw [isSingleLetter, isSingleLetter, Text.lower, String.toList_ofList]
    cases word.toList with
    | nil => rfl
    | cons first rest =>
        cases rest with
        | nil => exact (apply_toLower (fun _ letter => letter) first).symm
        | cons second rest => rfl
  rw [lower, (Text.sameLetters_iff_lower left right).mp same, ← lower]

/-- Words with the same letters stand for the same variable, unless they are single letters that
the vocabulary does not list. -/
theorem Vocabulary.resolve?_congr
    {vocabulary : Vocabulary}
    {left right : String}
    (same : Text.sameLetters left right = true)
    (kept : isSingleLetter right = true → vocabulary.canonical? right = none → left = right) :
    vocabulary.resolve? left = vocabulary.resolve? right := by
  rw [resolve?, resolve?, canonical?_congr same, isSingleLetter_congr same]
  cases unlisted : vocabulary.canonical? right with
  | some name => rfl
  | none =>
      simp only
      split
      next letter => rw [kept letter unlisted]
      next => rfl

namespace Tokens

variable {source other : String} {tokens others : Tokens}

/-- The tokens of texts with the same letters have the same letters. -/
theorem lowered_eq_of_scan
    (same : Text.sameLetters other source = true) :
    ((scan other).map lowered).mapError RuleError.lowered =
      ((scan source).map lowered).mapError RuleError.lowered := by
  rw [scan, scan, ← scanAt_map_toLower, ← scanAt_map_toLower,
    (Text.sameLetters_iff other source).mp same]

theorem positionAt_lowered (tokens : Tokens) (offset : Nat) :
    tokens.lowered.positionAt offset = tokens.positionAt offset := by
  have all : tokens.lowered.toList = tokens.toList.map Token.lowered := by
    rw [toList, toList, List.map_append]
    rfl
  rw [positionAt, positionAt, all, List.find?_map]
  have kept : (fun token : Token => token.span.start == offset) ∘ Token.lowered =
      fun token => token.span.start == offset := rfl
  rw [kept]
  cases tokens.toList.find? fun token => token.span.start == offset <;> rfl

end Tokens

section Recased

variable
  {vocabulary : Vocabulary}
  {source other : String}
  {tokens others : Tokens}
  (recased : Recased vocabulary source other)
  (scanned : Tokens.scan source = .ok tokens)
  (otherScanned : Tokens.scan other = .ok others)

include recased scanned otherScanned

/-- A token in another letter case means the same. -/
theorem Recased.synonymous
    {other token : Token}
    (memberOther : other ∈ others.body)
    (member : token ∈ tokens.body)
    (same : other.lowered = token.lowered) :
    Synonymous vocabulary other token := by
  obtain ⟨terminal, lexemes, span, _⟩ := Token.lowered_eq_iff.mp same
  refine ⟨congrArg Terminal.sense terminal, fun number => ?_, fun _ => ?_⟩
  · have digits (token : Token)
        (spells : Terminal.ofLexeme? token.lexeme.toList = some .number) :
        token.lexeme.toList = (Text.lower token.lexeme).toList := by
      have all := (Terminal.isDigits_of_ofLexeme? spells).2
      rw [Text.lower, String.toList_ofList,
        List.map_congr_left fun char member => toLower_of_isDigit (all char member),
        List.map_id']
    have spells := Tokens.ofLexeme?_of_mem_scan scanned member
    have spellsOther := Tokens.ofLexeme?_of_mem_scan otherScanned memberOther
    rw [number] at spellsOther
    rw [← terminal, number] at spells
    rw [digits other spellsOther, lexemes, ← digits token spells]
  · refine Vocabulary.resolve?_congr ((Text.sameLetters_iff_lower _ _).mpr lexemes) ?_
    intro letter unlisted
    have kept := recased.2 tokens scanned token member letter unlisted
    have spelled := Tokens.lexeme_eq_slice otherScanned (List.mem_append_left _ memberOther)
    rw [spelled, span, kept, String.ofList_toList]

/-- The tokens of a text in another letter case mean the same, one by one. -/
theorem Recased.forall₂_synonymous (lowered : others.lowered = tokens.lowered) :
    others.body.Forall₂
      (fun left right => Synonymous vocabulary left right ∧ left.lowered = right.lowered)
      tokens.body := by
  have bodies : others.body.Forall₂ (fun left right => left.lowered = right.lowered)
      tokens.body :=
    forall₂_of_map_eq (congrArg Tokens.body lowered)
  obtain ⟨lengths, same⟩ := List.forall₂_iff_zip.mp bodies
  refine List.forall₂_iff_zip.mpr ⟨lengths, fun {left right} member => ?_⟩
  obtain ⟨memberOther, memberToken⟩ := List.of_mem_zip member
  exact ⟨recased.synonymous scanned otherScanned memberOther memberToken (same member),
    same member⟩

end Recased

/-! ## Errors -/

/-- Tokens in another letter case that mean the same and cannot be read fail with the same error in
lower case. -/
theorem Synonymous.lowered_eq_of_ofToken
    {vocabulary : Vocabulary}
    {left right : Token}
    (synonymous : Synonymous vocabulary left right)
    (same : left.lowered = right.lowered)
    {error otherError : RuleError}
    (fails : Operand.ofToken vocabulary left = .error error)
    (otherFails : Operand.ofToken vocabulary right = .error otherError) :
    error.lowered = otherError.lowered := by
  obtain ⟨_, lexemes, span, position⟩ := Token.lowered_eq_iff.mp same
  obtain ⟨_, one, _⟩ | ⟨_, one, another⟩ | ⟨one, another⟩ := synonymous.ofToken_cases <;>
    rw [one] at fails <;> cases fails <;> rw [another] at otherFails <;> cases otherFails <;>
    simp only [RuleError.lowered, lexemes, span, position]

/-- An error that quotes a text in another letter case is the same in lower case. -/
theorem Obstacle.lowered_malformed
    {source other : String}
    {tokens others : Tokens}
    (letters : Text.sameLetters other source = true)
    (same : others.lowered = tokens.lowered)
    (fault : Fault)
    (span : Span) :
    (malformed other others fault span).lowered = (malformed source tokens fault span).lowered := by
  rw [malformed, malformed, RuleError.lowered, RuleError.lowered, Text.lower_ofList,
    Text.lower_ofList, ← Text.trimEnd_map_toLower, ← Text.trimEnd_map_toLower,
    ← Text.slice_map_toLower, ← Text.slice_map_toLower, (Text.sameLetters_iff _ _).mp letters,
    ← others.positionAt_lowered, ← tokens.positionAt_lowered, same]

/-- Obstacles of one kind at the same tokens in another letter case amount to the same error in
lower case. -/
theorem Grammar.ObstaclesRelated.lowered_toError
    {vocabulary : Vocabulary}
    {source other : String}
    {tokens others : Tokens}
    (letters : Text.sameLetters other source = true)
    (same : others.lowered = tokens.lowered)
    {obstacle otherObstacle : Obstacle}
    (kinds : ObstaclesRelated vocabulary
      (fun left right => Synonymous vocabulary left right ∧ left.lowered = right.lowered)
      otherObstacle obstacle) :
    (otherObstacle.toError other others).lowered = (obstacle.toError source tokens).lowered := by
  have widths : Text.byteWidth other.toList = Text.byteWidth source.toList := by
    rw [← Text.byteWidth_map_toLower, (Text.sameLetters_iff _ _).mp letters,
      Text.byteWidth_map_toLower]
  have spans {left right : Token} (same : left.lowered = right.lowered) :
      left.span = right.span :=
    (Token.lowered_eq_iff.mp same).2.2.1
  have finish : others.finish.span = tokens.finish.span :=
    spans (congrArg Tokens.finish same :)
  have quoted := Obstacle.lowered_malformed letters same
  cases kinds with
  | operand related fails otherFails =>
      exact related.1.lowered_eq_of_ofToken related.2 fails otherFails
  | missingOperand found =>
      cases found with
      | none => rw [Obstacle.toError, Obstacle.toError, finish, quoted]
      | some related => rw [Obstacle.toError, Obstacle.toError, spans related.2, quoted]
  | unclosedGroup openings found =>
      rw [Obstacle.toError, Obstacle.toError, spans openings.2]
      cases found with
      | none => rw [Option.getD_none, Option.getD_none, finish, quoted]
      | some related => rw [Option.getD_some, Option.getD_some, spans related.2, quoted]
  | nestingTooDeep related =>
      rw [Obstacle.toError, Obstacle.toError, spans related.2, widths, quoted]
  | trailingInput related =>
      rw [Obstacle.toError, Obstacle.toError, spans related.2, widths, quoted]

namespace Expr

/-- A text in another letter case is read as the same tree, places included, or fails with the same
error but for the letter case of what the error quotes. -/
theorem lowered_parse_of_recased
    {vocabulary : Vocabulary}
    {source other : String}
    (recased : Recased vocabulary source other)
    (maxDepth : Nat) :
    (parse vocabulary maxDepth other).mapError RuleError.lowered =
      (parse vocabulary maxDepth source).mapError RuleError.lowered := by
  have letters := recased.1
  have same := Tokens.lowered_eq_of_scan letters
  rw [parse, parse]
  cases scanned : Tokens.scan source <;> cases otherScanned : Tokens.scan other <;>
    rw [scanned, otherScanned] at same
  next => exact congrArg Except.error (Except.error.inj same)
  next => cases same
  next => cases same
  next tokens others =>
    have lowered : others.lowered = tokens.lowered := Except.ok.inj same
    have pairs := recased.forall₂_synonymous scanned otherScanned lowered
    simp only [parseTokens]
    cases read : ofTokens vocabulary maxDepth tokens.body with
    | ok tree =>
        have placed := pairs.imp fun _ _ related =>
          And.intro related.1 (Token.lowered_eq_iff.mp related.2).2.2.1
        obtain ⟨otherTree, otherRead, trees⟩ :=
          exists_ofTokens_of_synonymous Span.respects_id Span.respects_id placed read
        rw [mapSpans_id, mapSpans_id] at trees
        rw [otherRead, trees]
        rfl
    | error obstacle =>
        obtain ⟨otherObstacle, otherRead, kinds⟩ :=
          exists_obstacle_of_synonymous And.left pairs read
        rw [otherRead]
        exact congrArg Except.error (kinds.lowered_toError letters lowered)

end Expr
end DecisionRules
