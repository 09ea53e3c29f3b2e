import DecisionRules.Proofs.Grammar.Viability
import DecisionRules.Proofs.Token.ForeignCharacter
import DecisionRules.Proofs.Token.Position

/-!
# Where a text is malformed

The error about a rule text says where it arose three times over: by a span, by a line and column,
and by the part of the text that it quotes.  When the text cannot be scanned, all three are those of
the first character that no rule is written with.  When its tokens cannot be read, the error begins
with one of them: with the one at which reading stopped, or with a parenthesis before it.  So the
three agree.
-/

namespace DecisionRules

/-- A place of a text that scanning reaches at the beginning of a token: the text before it is
written with the alphabet, and what comes next is no separator. -/
def Text.Reached (text : List Char) (offset : Nat) (position : Position) : Prop :=
  ∃ before after,
    text = before ++ after ∧
      offset = byteWidth before ∧
      position = .after before ∧
      (∀ char ∈ before, InAlphabet char) ∧
      ∀ char ∈ after.head?, ¬ isSeparator char = true

/-- The position of a place that is reached is that of the text there. -/
theorem Text.Reached.position_eq
    {text : List Char}
    {offset : Nat}
    {position : Position}
    (reached : Reached text offset position) :
    position = positionAt text offset := by
  obtain ⟨before, after, rfl, rfl, rfl, _⟩ := reached
  exact (positionAt_append before after).symm

/-- The beginning of a scanned token is reached. -/
theorem Tokens.reached_of_mem_scan
    {source : String}
    {tokens : Tokens}
    {token : Token}
    (scanned : scan source = .ok tokens)
    (member : token ∈ tokens.toList) :
    Text.Reached source.toList token.span.start token.position := by
  obtain ⟨before, covered, after, text, span, position, _, begins⟩ :=
    exists_text_of_mem_scan scanned member
  have tiles : Tiles 0 source.toList tokens.body := tiles_of_scanAt scanned
  rw [List.append_assoc] at text
  refine ⟨before, covered ++ after, text, ?_, position, fun char memberBefore => ?_, begins⟩
  · rw [span]
  · refine tiles.inAlphabet char ?_
    rw [text]
    exact List.mem_append_left _ memberBefore

namespace Grammar

/-- A scanned operand that cannot be read is a name that the vocabulary does not resolve. -/
theorem eq_unknownVariable_of_ofToken
    {vocabulary : Vocabulary}
    {token : Token}
    {error : RuleError}
    (spells : Terminal.ofLexeme? token.lexeme.toList = some token.terminal)
    (isOperand : token.terminal.isOperand = true)
    (unreadable : Operand.ofToken vocabulary token = .error error) :
    error = .unknownVariable token.lexeme token.span := by
  have unknown : ¬ Known vocabulary token := by
    intro known
    rw [known isOperand] at unreadable
    cases unreadable
  rw [known_iff vocabulary spells, Classical.not_imp] at unknown
  obtain ⟨identifier, unresolved⟩ := unknown
  rw [Option.isSome_iff_ne_none, not_not] at unresolved
  rw [Operand.ofToken, identifier] at unreadable
  simp only [unresolved] at unreadable
  exact (Except.error.inj unreadable).symm

/-- What the error about the tokens of a text can be. -/
inductive Complains (source : String) (tokens : Tokens) : RuleError → Prop
  /-- It names one of the tokens. -/
  | unknown
      {token : Token}
      (member : token ∈ tokens.toList) :
      Complains source tokens (.unknownVariable token.lexeme token.span)
  /-- It quotes the text from the beginning of a token to some place after it. -/
  | malformed
      {fault : Fault}
      {token : Token}
      {stop : Nat}
      (member : token ∈ tokens.toList)
      (proper : fault ≠ .unexpectedCharacter)
      (stops : Text.IsPlace source.toList stop)
      (ordered : token.span.start ≤ stop) :
      Complains source tokens
        (Obstacle.malformed source tokens fault ⟨token.span.start, stop⟩)

section Scanned

variable {source : String} {tokens : Tokens} (scanned : Tokens.scan source = .ok tokens)

include scanned

/-- An error can quote a token. -/
theorem Complains.of_token
    {token : Token}
    {fault : Fault}
    (member : token ∈ tokens.toList)
    (proper : fault ≠ .unexpectedCharacter) :
    Complains source tokens (Obstacle.malformed source tokens fault token.span) :=
  have part := Tokens.isPart_of_mem_scan scanned member
  .malformed member proper part.stops part.ordered

/-- An error can quote the text from the beginning of a token on. -/
theorem Complains.of_rest
    {token : Token}
    {fault : Fault}
    (member : token ∈ tokens.toList)
    (proper : fault ≠ .unexpectedCharacter) :
    Complains source tokens
      (Obstacle.malformed source tokens fault ⟨token.span.start, Text.byteWidth source.toList⟩) :=
  have part := Tokens.isPart_of_mem_scan scanned member
  .malformed member proper (Text.isPlace_byteWidth _) part.starts.le_byteWidth

/-- An error can quote the text from the beginning of a token to that of a later one. -/
theorem Complains.of_before
    {opening found : Token}
    {fault : Fault}
    {before after : List Token}
    (all : tokens.toList = before ++ after)
    (memberOpening : opening ∈ before)
    (memberFound : found ∈ after)
    (proper : fault ≠ .unexpectedCharacter) :
    Complains source tokens
      (Obstacle.malformed source tokens fault ⟨opening.span.start, found.span.start⟩) := by
  have increasing := Tokens.pairwise_start_lt_of_scan scanned
  rw [all, List.pairwise_append] at increasing
  have later := increasing.2.2 opening memberOpening found memberFound
  have part := Tokens.isPart_of_mem_scan scanned (all ▸ List.mem_append_right _ memberFound)
  exact .malformed (all ▸ List.mem_append_left _ memberOpening) proper part.starts
    (Nat.le_of_lt later)

/-- The error that an obstacle amounts to is about the tokens of the text. -/
theorem Progress.complains_toError
    {vocabulary : Vocabulary}
    {limit : Nat}
    {before after : List Token}
    {obstacle : Obstacle}
    (body : tokens.body = before ++ after)
    (meets : (start.afterAll before).Meets vocabulary limit after.head? obstacle) :
    Complains source tokens (obstacle.toError source tokens) := by
  have all : tokens.toList = before ++ (after ++ [tokens.finish]) := by
    rw [Tokens.toList, body, List.append_assoc]
  have memberFound : after.head?.getD tokens.finish ∈ after ++ [tokens.finish] := by
    cases after with
    | nil => exact List.mem_singleton_self _
    | cons token after => exact List.mem_cons_self
  have member : after.head?.getD tokens.finish ∈ tokens.toList :=
    all ▸ List.mem_append_right _ memberFound
  -- What has been found stands behind the tokens that were passed, and an open group among them.
  generalize found : after.head? = head at meets memberFound member
  cases meets with
  | @unreadable token error isOperand read =>
      have memberBody : token ∈ tokens.body :=
        body ▸ List.mem_append_right _ (List.mem_of_mem_head? found)
      have spells := Tokens.ofLexeme?_of_mem_scan scanned memberBody
      rw [Obstacle.toError, eq_unknownVariable_of_ofToken spells isOperand read]
      exact .unknown member
  | missing =>
      cases head with
      | none => exact .of_token scanned member (by decide)
      | some token => exact .of_token scanned member (by decide)
  | @unclosed group outer _ inside =>
      have opens : group ∈ (Nesting.start.afterAll before).groups := by
        rw [nesting_afterAll] at inside
        exact inside ▸ List.mem_cons_self
      obtain memberOpening | outside := Nesting.mem_or_mem_of_mem_groups_afterAll opens
      · exact .of_before scanned all memberOpening memberFound (by decide)
      · cases outside
  | tooDeep _ _ => exact .of_rest scanned member (by decide)
  | trailing token _ => exact .of_rest scanned member (by decide)

end Scanned

end Grammar

/-- The span, the position and the quoted part of an error about a malformed text are those of one
part of the text. -/
structure Fault.PlacedIn
    (text : List Char)
    (fault : Fault)
    (fragment : String)
    (span : Span)
    (position : Position) : Prop where
  /-- The span divides no character. -/
  part : Text.IsPart text span
  /-- The position is that of the beginning of the span, which scanning has reached. -/
  reached : Text.Reached text span.start position
  /-- An unexpected character is quoted as it is. -/
  character :
    fault = .unexpectedCharacter →
      ∃ char,
        Text.slice text span = [char] ∧ ¬ InAlphabet char ∧ fragment = String.singleton char
  /-- Any other part is quoted without the blanks at its end. -/
  quoted :
    fault ≠ .unexpectedCharacter →
      fragment = String.ofList (Text.trimEnd (Text.slice text span))

/-- The error about a text that cannot be scanned is about its first unexpected character. -/
theorem Tokens.placed_of_scan_error
    {source : String}
    {error : RuleError}
    (fails : scan source = .error error) :
    ∃ fragment span position,
      error = .malformed .unexpectedCharacter fragment span position ∧
        Fault.PlacedIn source.toList .unexpectedCharacter fragment span position := by
  obtain ⟨before, char, after, text, known, foreign, rfl⟩ := exists_foreign_of_scan fails
  have covered : source.toList = before ++ [char] ++ after := by
    rw [text, List.append_assoc, List.singleton_append]
  have unseparated : ∀ next ∈ (char :: after).head?, ¬ isSeparator next = true := by
    rintro next ⟨⟩ separates
    exact foreign (.inl separates)
  have place : Text.IsPart source.toList
      ⟨Text.byteWidth before, Text.byteWidth before + Text.byteWidth [char]⟩ := by
    refine ⟨⟨before, _, text, rfl⟩, ⟨before ++ [char], after, covered, ?_⟩, Nat.le_add_right _ _⟩
    rw [Text.byteWidth_append]
  refine ⟨_, _, _, rfl, ?_⟩
  exact {
    part := place
    reached := ⟨before, _, text, rfl, rfl, known, unseparated⟩
    character := fun _ =>
      ⟨char, by rw [covered]; exact Text.slice_append before [char] after, foreign, rfl⟩
    quoted := fun proper => absurd rfl proper }

namespace Expr

open Grammar

variable {vocabulary : Vocabulary} {maxDepth : Nat} {source : String}

/-- The error about a text that was scanned is about its tokens. -/
theorem complains_of_parse
    {tokens : Tokens}
    {error : RuleError}
    (scanned : Tokens.scan source = .ok tokens)
    (fails : parse vocabulary maxDepth source = .error error) :
    Complains source tokens error := by
  obtain ⟨obstacle, stuck, rfl⟩ := exists_obstacle_of_parse scanned fails
  obtain ⟨before, after, body, _, blocked⟩ := Progress.exists_passes_of_firstObstacle? stuck
  exact Progress.complains_toError scanned body (Progress.meets_of_obstacle? blocked)

/-- The error about a malformed text is placed in it. -/
theorem placed_of_parse
    {fault : Fault}
    {fragment : String}
    {span : Span}
    {position : Position}
    (fails : parse vocabulary maxDepth source = .error (.malformed fault fragment span position)) :
    fault.PlacedIn source.toList fragment span position := by
  cases scanned : Tokens.scan source with
  | error error =>
      obtain ⟨_, _, _, same, placed⟩ := Tokens.placed_of_scan_error scanned
      rw [parse, scanned, same] at fails
      cases fails
      exact placed
  | ok tokens =>
      cases complains_of_parse scanned fails with
      | @malformed _ token stop member proper stops ordered =>
          have reached := Tokens.reached_of_mem_scan scanned member
          have located := Tokens.positionAt_of_mem_scan scanned member
          rw [← reached.position_eq] at located
          exact {
            part := ⟨(Tokens.isPart_of_mem_scan scanned member).starts, stops, ordered⟩
            reached := located ▸ reached
            character := fun unexpected => absurd unexpected proper
            quoted := fun _ => rfl }

/-- An error about an unknown variable has the name that the text has at its span. -/
theorem named_of_parse
    {name : String}
    {span : Span}
    (fails : parse vocabulary maxDepth source = .error (.unknownVariable name span)) :
    Text.IsPart source.toList span ∧ name = String.ofList (Text.slice source.toList span) := by
  cases scanned : Tokens.scan source with
  | error error =>
      obtain ⟨_, _, _, same, _⟩ := Tokens.placed_of_scan_error scanned
      rw [parse, scanned, same] at fails
      cases fails
  | ok tokens =>
      cases complains_of_parse scanned fails with
      | unknown member =>
          exact ⟨Tokens.isPart_of_mem_scan scanned member, Tokens.lexeme_eq_slice scanned member⟩

/-- The places that errors and tokens have in a rule text are exact.  An error about a malformed
text has a span within the text that divides no character, the line and column of the beginning of
the span, and the text at the span without the blanks at its end, or the character that no rule is
written with.  An error about an unknown variable has the name that is written at its span.  And
every token has the line and column of its beginning. -/
theorem exact_places_of_parse
    (vocabulary : Vocabulary)
    (maxDepth : Nat)
    (source : String) :
    (∀ fault fragment span position,
      parse vocabulary maxDepth source = .error (.malformed fault fragment span position) →
        Text.IsPart source.toList span ∧
          span.stop ≤ Text.byteWidth source.toList ∧
          position = Text.positionAt source.toList span.start ∧
          (fault = .unexpectedCharacter →
            ∃ char,
              Text.slice source.toList span = [char] ∧
                ¬ InAlphabet char ∧ fragment = String.singleton char) ∧
          (fault ≠ .unexpectedCharacter →
            fragment = String.ofList (Text.trimEnd (Text.slice source.toList span)))) ∧
    (∀ name span,
      parse vocabulary maxDepth source = .error (.unknownVariable name span) →
        Text.IsPart source.toList span ∧
          name = String.ofList (Text.slice source.toList span)) ∧
    ∀ tokens,
      Tokens.scan source = .ok tokens →
        ∀ token ∈ tokens.toList,
          token.position = Text.positionAt source.toList token.span.start := by
  refine ⟨fun fault fragment span position fails => ?_, fun name span fails => ?_,
    fun tokens scanned token member => ?_⟩
  · have placed := placed_of_parse fails
    exact ⟨placed.part, placed.part.stops.le_byteWidth, placed.reached.position_eq,
      placed.character, placed.quoted⟩
  · exact named_of_parse fails
  · exact Tokens.position_eq_positionAt scanned member

/-- The parenthesis that is not closed in the second line of a text is the fifth character there,
and the text from it on is quoted without the blank and the line feed at the end. -/
theorem exact_places_of_parse_of_unclosed :
    parse .standard 1 "A < 3\nand (B > 1 \n" =
        .error (.malformed .unclosedGroup "(B > 1" ⟨10, 18⟩ ⟨2, 5⟩) ∧
      Text.IsPart "A < 3\nand (B > 1 \n".toList ⟨10, 18⟩ ∧
      ⟨2, 5⟩ = Text.positionAt "A < 3\nand (B > 1 \n".toList 10 ∧
      "(B > 1" =
        String.ofList (Text.trimEnd (Text.slice "A < 3\nand (B > 1 \n".toList ⟨10, 18⟩)) := by
  have fails : parse .standard 1 "A < 3\nand (B > 1 \n" =
      .error (.malformed .unclosedGroup "(B > 1" ⟨10, 18⟩ ⟨2, 5⟩) :=
    eq_error_of_errorOf?_eq_some (by decide +kernel)
  obtain ⟨part, _, place, _, quoted⟩ := (exact_places_of_parse .standard 1 _).1 _ _ _ _ fails
  exact ⟨fails, part, place, quoted (by decide)⟩

end Expr
end DecisionRules
