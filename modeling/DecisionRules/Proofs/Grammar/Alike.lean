import DecisionRules.Proofs.Grammar.Resemblance
import DecisionRules.Proofs.Grammar.Synonym

/-!
# Rule texts that are read alike

Rules of synonymous tokens have the same tree but for its places, or both fail, for the same fault
at the same token.
-/

namespace DecisionRules

open Grammar

/-- Two spans, one in each of two texts, begin at tokens that correspond to each other, and end at
the starts or at the ends of such tokens. -/
def SpansAlike (pairs : List (Token × Token)) (span other : Span) : Prop :=
  ∃ first ∈ pairs, ∃ last ∈ pairs,
    (span.start = first.1.span.start ∧ other.start = first.2.span.start) ∧
      (span.stop = last.1.span.start ∧ other.stop = last.2.span.start ∨
        span.stop = last.1.span.stop ∧ other.stop = last.2.span.stop)

/-- Two errors are of the same kind, stand at corresponding tokens and find the same fault. -/
inductive ErrorsAlike (pairs : List (Token × Token)) : RuleError → RuleError → Prop
  | malformed
      {fault : Fault}
      {fragment otherFragment : String}
      {span otherSpan : Span}
      {position otherPosition : Position}
      (spans : SpansAlike pairs span otherSpan) :
      ErrorsAlike pairs (.malformed fault fragment span position)
        (.malformed fault otherFragment otherSpan otherPosition)
  | unknownVariable
      {name otherName : String}
      {span otherSpan : Span}
      (spans : SpansAlike pairs span otherSpan) :
      ErrorsAlike pairs (.unknownVariable name span) (.unknownVariable otherName otherSpan)

/-- Two texts are read as the same tree but for its places, or with errors that are alike. -/
inductive ReadAlike (pairs : List (Token × Token)) :
    Except RuleError Expr → Except RuleError Expr → Prop
  | tree
      {left right : Expr}
      (same : left.unplaced = right.unplaced) :
      ReadAlike pairs (.ok left) (.ok right)
  | error
      {left right : RuleError}
      (alike : ErrorsAlike pairs left right) :
      ReadAlike pairs (.error left) (.error right)

/-! ## Synonymous tokens -/

/-- Synonymous tokens resemble each other. -/
theorem Grammar.resembles_of_synonymous
    {vocabulary : Vocabulary}
    {related : Token → Token → Prop}
    (synonymous : ∀ {left right}, related left right → Synonymous vocabulary left right) :
    Resembles vocabulary related :=
  ⟨fun same => (synonymous same).sense,
    fun same => congrArg Option.isSome (synonymous same).toOption_ofToken⟩

namespace Expr

variable {vocabulary : Vocabulary} {maxDepth : Nat}

/-- Synonymous tokens are read as the same tree, up to a change of places on either side. -/
theorem exists_ofTokens_of_synonymous
    {left right : Span → Span}
    (respectsLeft : Span.Respects left)
    (respectsRight : Span.Respects right)
    {tokens others : List Token}
    (pairs : others.Forall₂
      (fun other token => Synonymous vocabulary other token ∧ left other.span = right token.span)
      tokens)
    {tree : Expr}
    (read : ofTokens vocabulary maxDepth tokens = .ok tree) :
    ∃ otherTree,
      ofTokens vocabulary maxDepth others = .ok otherTree ∧
        otherTree.mapSpans left = tree.mapSpans right := by
  obtain ⟨phrase, rfl, rfl, readable⟩ := ofTokens_eq_ok_iff.mp read
  obtain ⟨other, rfl, trees, readableOther⟩ :=
    Phrase.exists_of_synonymous respectsLeft respectsRight readable pairs
  exact ⟨other.tree vocabulary, ofTokens_eq_ok_iff.mpr ⟨other, rfl, rfl, readableOther⟩, trees⟩

/-- Synonymous tokens are read as the same tree but for its places. -/
theorem exists_unplaced_of_synonymous
    {tokens others : List Token}
    (pairs : others.Forall₂ (Synonymous vocabulary) tokens)
    {tree : Expr}
    (read : ofTokens vocabulary maxDepth tokens = .ok tree) :
    ∃ otherTree,
      ofTokens vocabulary maxDepth others = .ok otherTree ∧ otherTree.unplaced = tree.unplaced :=
  exists_ofTokens_of_synonymous Span.respects_origin Span.respects_origin
    (pairs.imp fun _ _ same => ⟨same, rfl⟩) read

/-- Tokens that are not read as a rule meet obstacles of one kind as related ones do. -/
theorem exists_obstacle_of_synonymous
    {related : Token → Token → Prop}
    (synonymous : ∀ {left right}, related left right → Synonymous vocabulary left right)
    {tokens others : List Token}
    (pairs : others.Forall₂ related tokens)
    {obstacle : Obstacle}
    (fails : ofTokens vocabulary maxDepth tokens = .error obstacle) :
    ∃ otherObstacle,
      ofTokens vocabulary maxDepth others = .error otherObstacle ∧
        ObstaclesRelated vocabulary related otherObstacle obstacle := by
  have kinds : Option.Rel (ObstaclesRelated vocabulary related)
      (Progress.start.firstObstacle? vocabulary maxDepth others)
      (Progress.start.firstObstacle? vocabulary maxDepth tokens) :=
    (Progress.related_start related).firstObstacle? (resembles_of_synonymous synonymous) pairs
  rw [ofTokens_eq_error_iff.mp fails] at kinds
  cases stuck : Progress.start.firstObstacle? vocabulary maxDepth others with
  | none =>
      rw [stuck] at kinds
      cases kinds
  | some otherObstacle =>
      rw [stuck] at kinds
      cases kinds with
      | some same => exact ⟨otherObstacle, ofTokens_eq_error_iff.mpr stuck, same⟩

end Expr

/-! ## Errors -/

/-- Synonymous tokens that cannot be read fail alike. -/
theorem Synonymous.errorsAlike_of_ofToken
    {vocabulary : Vocabulary}
    {left right : Token}
    (same : Synonymous vocabulary left right)
    {pairs : List (Token × Token)}
    {error otherError : RuleError}
    (member : (left, right) ∈ pairs)
    (fails : Operand.ofToken vocabulary left = .error error)
    (otherFails : Operand.ofToken vocabulary right = .error otherError) :
    ErrorsAlike pairs error otherError := by
  have spans : SpansAlike pairs left.span right.span :=
    ⟨_, member, _, member, ⟨rfl, rfl⟩, .inr ⟨rfl, rfl⟩⟩
  obtain ⟨_, one, _⟩ | ⟨_, one, other⟩ | ⟨one, other⟩ := same.ofToken_cases <;>
    rw [one] at fails <;> cases fails <;> rw [other] at otherFails <;> cases otherFails
  · exact .malformed spans
  · exact .unknownVariable spans

section Errors

variable
  {vocabulary : Vocabulary}
  {source other : String}
  {tokens others : Tokens}
  (scanned : Tokens.scan source = .ok tokens)
  (otherScanned : Tokens.scan other = .ok others)

include scanned otherScanned

/-- What reaches from a token to the end of a text is alike in two texts whose tokens correspond. -/
theorem spansAlike_to_end
    {left right : Token}
    (member : (left, right) ∈ tokens.toList.zip others.toList)
    (ends : (tokens.finish, others.finish) ∈ tokens.toList.zip others.toList) :
    SpansAlike (tokens.toList.zip others.toList)
      ⟨left.span.start, Text.byteWidth source.toList⟩
      ⟨right.span.start, Text.byteWidth other.toList⟩ := by
  refine ⟨_, member, _, ends, ⟨rfl, rfl⟩, .inl ⟨?_, ?_⟩⟩
  · rw [Tokens.span_finish_of_scan scanned]
  · rw [Tokens.span_finish_of_scan otherScanned]

/-- Obstacles of one kind at synonymous tokens amount to errors that are alike. -/
theorem Grammar.ObstaclesRelated.errorsAlike
    (ends : (tokens.finish, others.finish) ∈ tokens.toList.zip others.toList)
    {obstacle otherObstacle : Obstacle}
    (kinds : ObstaclesRelated vocabulary
      (fun left right =>
        Synonymous vocabulary left right ∧ (left, right) ∈ tokens.toList.zip others.toList)
      obstacle otherObstacle) :
    ErrorsAlike (tokens.toList.zip others.toList) (obstacle.toError source tokens)
      (otherObstacle.toError other others) := by
  cases kinds with
  | operand same fails otherFails => exact same.1.errorsAlike_of_ofToken same.2 fails otherFails
  | missingOperand found =>
      cases found with
      | none => exact .malformed ⟨_, ends, _, ends, ⟨rfl, rfl⟩, .inr ⟨rfl, rfl⟩⟩
      | some same => exact .malformed ⟨_, same.2, _, same.2, ⟨rfl, rfl⟩, .inr ⟨rfl, rfl⟩⟩
  | unclosedGroup openings found =>
      cases found with
      | none => exact .malformed ⟨_, openings.2, _, ends, ⟨rfl, rfl⟩, .inl ⟨rfl, rfl⟩⟩
      | some same => exact .malformed ⟨_, openings.2, _, same.2, ⟨rfl, rfl⟩, .inl ⟨rfl, rfl⟩⟩
  | nestingTooDeep same =>
      exact .malformed (spansAlike_to_end scanned otherScanned same.2 ends)
  | trailingInput same =>
      exact .malformed (spansAlike_to_end scanned otherScanned same.2 ends)

/-- Texts with synonymous tokens are read alike. -/
theorem Expr.readAlike_of_synonymous
    (pairs : tokens.body.Forall₂ (Synonymous vocabulary) others.body)
    (maxDepth : Nat) :
    ReadAlike (tokens.toList.zip others.toList) (parse vocabulary maxDepth source)
      (parse vocabulary maxDepth other) := by
  have corresponding : tokens.toList.zip others.toList =
      tokens.body.zip others.body ++ [(tokens.finish, others.finish)] :=
    List.zip_append pairs.length_eq
  have ends : (tokens.finish, others.finish) ∈ tokens.toList.zip others.toList := by
    rw [corresponding]
    exact List.mem_append_right _ List.mem_cons_self
  have related : tokens.body.Forall₂
      (fun left right =>
        Synonymous vocabulary left right ∧ (left, right) ∈ tokens.toList.zip others.toList)
      others.body := by
    obtain ⟨lengths, same⟩ := List.forall₂_iff_zip.mp pairs
    refine List.forall₂_iff_zip.mpr ⟨lengths, fun {left right} member => ⟨same member, ?_⟩⟩
    rw [corresponding]
    exact List.mem_append_left _ member
  simp only [parse, scanned, otherScanned, parseTokens]
  cases read : ofTokens vocabulary maxDepth others.body with
  | ok tree =>
      obtain ⟨otherTree, otherRead, trees⟩ := exists_unplaced_of_synonymous pairs read
      rw [otherRead]
      exact .tree trees
  | error obstacle =>
      obtain ⟨otherObstacle, otherRead, kinds⟩ :=
        exists_obstacle_of_synonymous And.left related read
      rw [otherRead]
      exact .error (kinds.errorsAlike scanned otherScanned ends)

end Errors

end DecisionRules
