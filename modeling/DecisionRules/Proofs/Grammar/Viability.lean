import DecisionRules.Proofs.Grammar.Alike

/-!
# The first impossible token

When a rule text cannot be read, the error tells the first token with which no rule can go on.
Some rule begins with the tokens before it: what is missing there is at most an operand and some
closing parentheses, for which no deeper level is needed.  No rule begins with these tokens and the
one after them, for what is an obstacle depends on the tokens up to it and on nothing that follows.
-/

namespace DecisionRules

/-- Where reading stopped with an error: the start of the token that cannot stand there.  An error
about parentheses that are not closed extends up to this token, and any other one begins with
it. -/
def RuleError.stoppedAt : RuleError → Nat
  | .malformed .unclosedGroup _ span _ => span.stop
  | error => error.span.start

namespace Grammar

/-! ## Tokens that are passed -/

namespace Progress

/-- None of some tokens is an obstacle. -/
def Passes (vocabulary : Vocabulary) (limit : Nat) : Progress → List Token → Prop
  | _, [] => True
  | progress, token :: rest =>
    progress.obstacle? vocabulary limit (some token) = none ∧
      Passes vocabulary limit (progress.after token) rest

variable {vocabulary : Vocabulary} {limit : Nat} {progress : Progress}

/-- The first obstacle is behind the tokens that are passed. -/
theorem Passes.firstObstacle?_append
    {before : List Token}
    (passes : progress.Passes vocabulary limit before)
    (after : List Token) :
    progress.firstObstacle? vocabulary limit (before ++ after) =
      (progress.afterAll before).firstObstacle? vocabulary limit after := by
  induction before generalizing progress with
  | nil => rfl
  | cons token before inductionHypothesis =>
      rw [List.cons_append, firstObstacle?_of_none passes.1, inductionHypothesis passes.2]
      rfl

/-- The tokens before the first obstacle are passed. -/
theorem exists_passes_of_firstObstacle?
    {obstacle : Obstacle}
    {tokens : List Token}
    (stuck : progress.firstObstacle? vocabulary limit tokens = some obstacle) :
    ∃ before after,
      tokens = before ++ after ∧
        progress.Passes vocabulary limit before ∧
        (progress.afterAll before).obstacle? vocabulary limit after.head? = some obstacle := by
  induction tokens generalizing progress with
  | nil => exact ⟨[], [], rfl, trivial, stuck⟩
  | cons token rest inductionHypothesis =>
      cases found : progress.obstacle? vocabulary limit (some token) with
      | some first =>
          rw [firstObstacle?_of_some found] at stuck
          exact ⟨[], token :: rest, rfl, trivial, found.trans stuck⟩
      | none =>
          rw [firstObstacle?_of_none found] at stuck
          obtain ⟨before, after, rfl, passes, blocked⟩ := inductionHypothesis stuck
          exact ⟨token :: before, after, rfl, ⟨found, passes⟩, blocked⟩

end Progress

/-! ## Where reading stops -/

section Stop

variable
  {vocabulary : Vocabulary}
  {limit : Nat}
  {found : Option Token}
  {obstacle : Obstacle}

/-- An operand that cannot be read is where reading stops. -/
theorem stoppedAt_of_ofToken
    {token : Token}
    {error : RuleError}
    (unreadable : Operand.ofToken vocabulary token = .error error) :
    error.stoppedAt = token.span.start := by
  unfold Operand.ofToken at unreadable
  split at unreadable
  · split at unreadable <;> cases unreadable
    rfl
  · cases unreadable
  · cases unreadable
  · split at unreadable <;> cases unreadable
    rfl
  · cases unreadable
    rfl

variable (source : String) (tokens : Tokens)

/-- Reading stops at the token that is an obstacle. -/
theorem Progress.stoppedAt_toError
    {progress : Progress}
    (stuck : progress.obstacle? vocabulary limit found = some obstacle) :
    (obstacle.toError source tokens).stoppedAt = (found.getD tokens.finish).span.start := by
  cases meets_of_obstacle? stuck with
  | unreadable _ read => exact stoppedAt_of_ofToken read
  | missing found => cases found <;> rfl
  | unclosed found _ => rfl
  | tooDeep _ _ => rfl
  | trailing token _ => rfl

end Stop

/-! ## Completion -/

/-- Some rule that can be read begins with the symbols and lexemes of some tokens. -/
def Viable (vocabulary : Vocabulary) (maxDepth : Nat) (tokens : List Token) : Prop :=
  ∃ text all tree,
    Tokens.scan text = .ok all ∧
      Expr.parse vocabulary maxDepth text = .ok tree ∧
      tokens.map Token.spelling <+: all.toList.map Token.spelling

/-- An operand that every vocabulary knows. -/
def anyOperand : Token := .ofLexeme .number ['1'] 0

/-- A parenthesis that closes a group. -/
def closingParenthesis : Token := .ofLexeme .rightParen [')'] 0

namespace Progress

/-- Tokens with which a rule can end: an operand if one is missing, and a closing parenthesis for
each open one. -/
def completion (progress : Progress) : List Token :=
  (match progress.expected with
    | .beginning _ => [anyOperand]
    | .continuation => []) ++
  List.replicate progress.nesting.groups.length closingParenthesis

variable (vocabulary : Vocabulary) (limit : Nat)

/-- A rule ends when all parentheses are closed. -/
theorem firstObstacle?_closings (groups : List (Token × Nat)) (denials : Nat) :
    firstObstacle? vocabulary limit ⟨⟨groups, denials⟩, .continuation⟩
      (List.replicate groups.length closingParenthesis) = none := by
  induction groups generalizing denials with
  | nil => rfl
  | cons group outer inductionHypothesis =>
      rw [List.length_cons, List.replicate_succ, firstObstacle?_closing rfl rfl]
      exact inductionHypothesis group.2

/-- There is no obstacle to the completion of a rule. -/
theorem firstObstacle?_completion (progress : Progress) :
    progress.firstObstacle? vocabulary limit progress.completion = none := by
  obtain ⟨⟨groups, denials⟩, expected⟩ := progress
  cases expected with
  | beginning mayDeny =>
      have read : ∃ operand, Operand.ofToken vocabulary anyOperand = .ok operand := by
        have digits : Decimal.read? anyOperand.lexeme.toList ≠ none := by decide +kernel
        obtain ⟨value, found⟩ := Option.ne_none_iff_exists'.mp digits
        refine ⟨.literal (.number value), ?_⟩
        unfold Operand.ofToken
        simp only [anyOperand, Token.ofLexeme] at found ⊢
        rw [found]
      obtain ⟨operand, read⟩ := read
      rw [completion, List.singleton_append, firstObstacle?_operand rfl read]
      exact firstObstacle?_closings vocabulary limit groups denials
  | continuation => exact firstObstacle?_closings vocabulary limit groups denials

end Progress

end Grammar

/-- Lexemes with a blank after each of them are scanned as these lexemes. -/
theorem Lexes.spread
    {spelled : List (Terminal × List Char)}
    (spells : ∀ spelling ∈ spelled, Terminal.ofLexeme? spelling.2 = some spelling.1) :
    Lexes (spelled.flatMap fun spelling => spelling.2 ++ [' ']) spelled := by
  induction spelled with
  | nil => exact .finish
  | cons spelling spelled inductionHypothesis =>
      obtain ⟨first, later⟩ := List.forall_mem_cons.mp spells
      rw [List.flatMap_cons, List.append_assoc, List.singleton_append]
      exact (inductionHypothesis later).blank.append first (detached_blank _)

namespace Grammar

section Viable

variable
  {vocabulary : Vocabulary}
  {maxDepth : Nat}
  {before : List Token}

/-- A rule text is read when there is no obstacle among its tokens or at its end. -/
theorem exists_parse_iff
    {source : String}
    {tokens : Tokens}
    (scanned : Tokens.scan source = .ok tokens) :
    (∃ tree, Expr.parse vocabulary maxDepth source = .ok tree) ↔
      Progress.start.firstObstacle? vocabulary maxDepth tokens.body = none := by
  simp only [Expr.parse_eq_ok_iff scanned]
  exact Expr.exists_ofTokens_eq_ok_iff

/-- There is no obstacle among tokens when there is none among others with the same spellings. -/
theorem firstObstacle?_eq_none_of_spelling
    {tokens others : List Token}
    (same : tokens.map Token.spelling = others.map Token.spelling)
    (free : Progress.start.firstObstacle? vocabulary maxDepth tokens = none) :
    Progress.start.firstObstacle? vocabulary maxDepth others = none := by
  obtain ⟨tree, read⟩ := Expr.exists_ofTokens_eq_ok_iff.mpr free
  obtain ⟨otherTree, otherRead, _⟩ :=
    Expr.exists_unplaced_of_synonymous
      ((forall₂_of_map_eq same.symm).imp fun _ _ spelled => .of_spelling spelled) read
  exact Expr.exists_ofTokens_eq_ok_iff.mp ⟨otherTree, otherRead⟩

/-- The tokens of a completion are spelled like what they are. -/
theorem Progress.spells_of_mem_completion (progress : Progress) :
    ∀ token ∈ progress.completion,
      Terminal.ofLexeme? token.lexeme.toList = some token.terminal := by
  have operand : Terminal.ofLexeme? anyOperand.lexeme.toList = some anyOperand.terminal := by
    decide
  have closing : Terminal.ofLexeme? closingParenthesis.lexeme.toList =
      some closingParenthesis.terminal := by
    decide
  intro token member
  obtain member | member := List.mem_append.mp member
  · split at member
    · obtain rfl := List.mem_singleton.mp member
      exact operand
    · cases member
  · obtain rfl := List.eq_of_mem_replicate member
    exact closing

/-- Some rule begins with tokens that are passed. -/
theorem viable_of_passes
    (passes : Progress.start.Passes vocabulary maxDepth before)
    (spells : ∀ token ∈ before, Terminal.ofLexeme? token.lexeme.toList = some token.terminal) :
    Viable vocabulary maxDepth before := by
  let completion := (Progress.start.afterAll before).completion
  have spellsAll : ∀ spelling ∈ (before ++ completion).map Token.spelling,
      Terminal.ofLexeme? spelling.2 = some spelling.1 :=
    List.forall_mem_map.mpr
      (List.forall_mem_append.mpr ⟨spells, Progress.spells_of_mem_completion _⟩)
  have lexes := Lexes.spread spellsAll
  rw [← String.toList_ofList (l := List.flatMap _ _)] at lexes
  obtain ⟨all, scanned, spellings⟩ := Tokens.exists_scan_of_lexes lexes
  have free : Progress.start.firstObstacle? vocabulary maxDepth (before ++ completion) = none := by
    rw [passes.firstObstacle?_append]
    exact Progress.firstObstacle?_completion vocabulary maxDepth _
  obtain ⟨tree, read⟩ :=
    (exists_parse_iff scanned).mpr (firstObstacle?_eq_none_of_spelling spellings.symm free)
  refine ⟨_, all, tree, scanned, read, ?_⟩
  rw [Tokens.toList, List.map_append, spellings, List.map_append, List.append_assoc]
  exact List.prefix_append ..

/-- No rule begins with tokens of which the last one is an obstacle. -/
theorem not_viable_of_obstacle
    {token : Token}
    {obstacle : Obstacle}
    (passes : Progress.start.Passes vocabulary maxDepth before)
    (proper : token.terminal ≠ .finish)
    (stuck : (Progress.start.afterAll before).obstacle? vocabulary maxDepth (some token) =
      some obstacle) :
    ¬ Viable vocabulary maxDepth (before ++ [token]) := by
  rintro ⟨text, all, tree, scanned, read, begins⟩
  rw [Tokens.toList, List.map_append, List.map_append, List.map_singleton, List.map_singleton,
    List.prefix_concat_iff] at begins
  obtain same | ⟨rest, same⟩ := begins
  · have last := List.singleton_inj.mp (List.append_inj' same rfl).2
    have ends := Tokens.terminal_finish_of_scan scanned
    exact proper ((congrArg Prod.fst last).trans ends)
  · obtain ⟨taken, later, split, _, spelledLater⟩ := List.map_eq_append_iff.mp same.symm
    have spelled : all.body.map Token.spelling =
        (before ++ token :: later).map Token.spelling := by
      rw [← same, ← spelledLater]
      simp
    have free := firstObstacle?_eq_none_of_spelling spelled
      ((exists_parse_iff scanned).mp ⟨tree, read⟩)
    rw [passes.firstObstacle?_append, Progress.firstObstacle?_of_some stuck] at free
    cases free

/-- No rule consists of tokens that cannot be the end of a rule. -/
theorem not_viable_of_obstacle_to_end
    {last : Token}
    {obstacle : Obstacle}
    (passes : Progress.start.Passes vocabulary maxDepth before)
    (ends : last.terminal = .finish)
    (stuck : (Progress.start.afterAll before).obstacle? vocabulary maxDepth none =
      some obstacle) :
    ¬ Viable vocabulary maxDepth (before ++ [last]) := by
  rintro ⟨text, all, tree, scanned, read, begins⟩
  rw [Tokens.toList, List.map_append, List.map_append, List.map_singleton, List.map_singleton,
    List.prefix_concat_iff] at begins
  obtain same | within := begins
  · have free := firstObstacle?_eq_none_of_spelling (List.append_inj' same rfl).1.symm
      ((exists_parse_iff scanned).mp ⟨tree, read⟩)
    rw [← List.append_nil before, passes.firstObstacle?_append, Progress.firstObstacle?,
      stuck] at free
    cases free
  · have member : last.spelling ∈ all.body.map Token.spelling :=
      within.subset (List.mem_append_right _ (List.mem_singleton_self _))
    obtain ⟨token, memberBody, spelled⟩ := List.mem_map.mp member
    exact Tokens.terminal_ne_finish_of_scan scanned token memberBody
      ((congrArg Prod.fst spelled).trans ends)

end Viable

end Grammar

namespace Expr

open Grammar

variable
  {vocabulary : Vocabulary}
  {maxDepth : Nat}
  {source : String}
  {tokens : Tokens}
  {error : RuleError}

/-- The error about a scanned text is an obstacle to its tokens. -/
theorem exists_obstacle_of_parse
    (scanned : Tokens.scan source = .ok tokens)
    (fails : parse vocabulary maxDepth source = .error error) :
    ∃ obstacle,
      Progress.start.firstObstacle? vocabulary maxDepth tokens.body = some obstacle ∧
        obstacle.toError source tokens = error := by
  simp only [parse, scanned, parseTokens] at fails
  cases read : ofTokens vocabulary maxDepth tokens.body with
  | ok tree =>
      rw [read] at fails
      cases fails
  | error obstacle =>
      rw [read] at fails
      exact ⟨obstacle, ofTokens_eq_error_iff.mp read, Except.error.inj fails⟩

/-- The first obstacle to the tokens of a text is one of them or the end of the text.  No rule
begins with the tokens up to it, and some rule begins with the tokens before it. -/
theorem exists_viable_up_to_obstacle
    {obstacle : Obstacle}
    (scanned : Tokens.scan source = .ok tokens)
    (stuck : Progress.start.firstObstacle? vocabulary maxDepth tokens.body = some obstacle) :
    ∃ before token after,
      tokens.toList = before ++ token :: after ∧
        token.span.start = (obstacle.toError source tokens).stoppedAt ∧
        ¬ Viable vocabulary maxDepth (before ++ [token]) ∧
        Viable vocabulary maxDepth before := by
  obtain ⟨before, rest, body, passes, blocked⟩ := Progress.exists_passes_of_firstObstacle? stuck
  have place := (Progress.stoppedAt_toError source tokens blocked).symm
  have viable : Viable vocabulary maxDepth before := by
    refine viable_of_passes passes fun token member => ?_
    refine Tokens.ofLexeme?_of_mem_scan scanned ?_
    rw [body]
    exact List.mem_append_left _ member
  cases rest with
  | nil =>
      have ends := Tokens.terminal_finish_of_scan scanned
      refine ⟨before, tokens.finish, [], ?_, place,
        not_viable_of_obstacle_to_end passes ends blocked, viable⟩
      rw [Tokens.toList, body, List.append_nil]
  | cons token after =>
      have member : token ∈ tokens.body := by
        rw [body]
        exact List.mem_append_right _ List.mem_cons_self
      have proper := Tokens.terminal_ne_finish_of_scan scanned token member
      refine ⟨before, token, after ++ [tokens.finish], ?_, place,
        not_viable_of_obstacle passes proper blocked, viable⟩
      rw [Tokens.toList, body, List.append_assoc, List.cons_append]

/-- When a scanned text cannot be read, exactly one of its tokens begins where reading stopped, the
end of the text included.  No rule begins with the tokens up to this one, and some rule begins with
the tokens before it. -/
theorem viable_up_to_stoppedAt
    (scanned : Tokens.scan source = .ok tokens)
    (fails : parse vocabulary maxDepth source = .error error) :
    ∃ before token after,
      tokens.toList = before ++ token :: after ∧
        token.span.start = error.stoppedAt ∧
        (∀ other ∈ before ++ after, other.span.start ≠ error.stoppedAt) ∧
        ¬ Viable vocabulary maxDepth (before ++ [token]) ∧
        Viable vocabulary maxDepth before := by
  obtain ⟨obstacle, stuck, rfl⟩ := exists_obstacle_of_parse scanned fails
  obtain ⟨before, token, after, all, place, impossible, possible⟩ :=
    exists_viable_up_to_obstacle scanned stuck
  refine ⟨before, token, after, all, place, ?_, impossible, possible⟩
  rw [← place]
  exact Tokens.start_ne_of_scan scanned all

/-- Reading `not (A < 3 B` stops at the second name, before which a rule can be completed. -/
theorem viable_up_to_stoppedAt_of_unclosed :
    ∃ tokens error before token after,
      Tokens.scan "not (A < 3 B" = .ok tokens ∧
        parse .standard 2 "not (A < 3 B" = .error error ∧
        error.stoppedAt = 11 ∧
        tokens.toList = before ++ token :: after ∧
        token.span.start = error.stoppedAt ∧
        ¬ Viable .standard 2 (before ++ [token]) ∧
        Viable .standard 2 before := by
  have scans : ∃ tokens, Tokens.scan "not (A < 3 B" = .ok tokens :=
    exists_ok_of_isSome (by decide +kernel)
  have stops : (match parse .standard 2 "not (A < 3 B" with
      | .ok _ => none
      | .error error => some error.stoppedAt) = some 11 := by
    decide +kernel
  obtain ⟨tokens, scanned⟩ := scans
  cases read : parse .standard 2 "not (A < 3 B" with
  | ok tree =>
      rw [read] at stops
      cases stops
  | error error =>
      rw [read] at stops
      obtain ⟨before, token, after, all, place, _, impossible, possible⟩ :=
        viable_up_to_stoppedAt scanned read
      exact ⟨tokens, error, before, token, after, scanned, rfl, Option.some.inj stops, all, place,
        impossible, possible⟩

end Expr
end DecisionRules
