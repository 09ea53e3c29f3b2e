import DecisionRules.Proofs.Expr.Relocation
import DecisionRules.Proofs.Grammar.Signs
import DecisionRules.Proofs.Token.Position

/-!
# What evaluation errors point at

A rule that was read fails for a variable that is not bound or for a divisor that is zero, and the
error has the span of that part of the tree.  In the rule text, the span is that of the token which
names the variable, or of the text of the divisor: what stands before it is the sign of division,
and read on its own it has the value zero.
-/

namespace DecisionRules

namespace Grammar

/-- A phrase whose tree is a leaf is a single operand. -/
theorem Phrase.exists_token_of_leaf
    {symbol : Nonterminal}
    {vocabulary : Vocabulary}
    {operand : Operand}
    {place : Span} :
    (phrase : Phrase symbol) →
      phrase.tree vocabulary = .leaf operand place →
      ∃ token,
        phrase.tokens = [token] ∧
          token.terminal.isOperand = true ∧
          token.span = place ∧
          denoted vocabulary token = operand
  | .operand token isOperand, leaf => by
      cases leaf
      exact ⟨token, rfl, isOperand, rfl, rfl⟩
  | .group _ _ _ _ _, leaf => by cases leaf
  | .denial _ _ _, leaf => by cases leaf
  | .plain inner, leaf => inner.exists_token_of_leaf leaf
  | @Phrase.run level only .done, leaf => by
      have leafOnly : only.tree vocabulary = .leaf operand place := by
        cases level <;> exact leaf
      obtain ⟨token, spelled, rest⟩ := only.exists_token_of_leaf leafOnly
      exact ⟨token, (List.append_nil _).trans spelled, rest⟩
  | @Phrase.run level _ (.more _ _ _ _ _), leaf => by cases level <;> cases leaf

/-- A token that is known and denotes a variable is a name that the vocabulary resolves to it. -/
theorem resolve?_of_denoted
    {vocabulary : Vocabulary}
    {token : Token}
    {name : String}
    (isOperand : token.terminal.isOperand = true)
    (known : Known vocabulary token)
    (denotes : denoted vocabulary token = .variable name) :
    token.terminal = .identifier ∧ vocabulary.resolve? token.lexeme = some name := by
  have read := known isOperand
  rw [denotes, Operand.ofToken] at read
  cases terminal : token.terminal with
  | identifier =>
      rw [terminal] at read
      cases resolved : vocabulary.resolve? token.lexeme with
      | none => simp [resolved] at read
      | some found => simpa [resolved] using read
  | number =>
      rw [terminal] at read
      cases digits : Decimal.read? token.lexeme.toList <;> simp [digits] at read
  | _ => simp [terminal] at read

end Grammar

namespace Expr

open Grammar

variable
  {vocabulary : Vocabulary}
  {maxDepth : Nat}
  {source : String}
  {tree : Expr}

/-- A variable of a rule is named in its text, where the variable stands. -/
theorem exists_name_of_variable
    {tokens : Tokens}
    {name : String}
    {place : Span}
    (scanned : Tokens.scan source = .ok tokens)
    (read : parse vocabulary maxDepth source = .ok tree)
    (member : .leaf (.variable name) place ∈ tree.nodes) :
    ∃ token ∈ tokens.body,
      token.span = place ∧
        token.terminal = .identifier ∧
        token.lexeme = String.ofList (Text.slice source.toList place) ∧
        vocabulary.resolve? token.lexeme = some name := by
  obtain ⟨phrase, leaf, readable, within⟩ := exists_phrase_of_mem_nodes scanned read member
  obtain ⟨token, spelled, isOperand, rfl, denotes⟩ := phrase.exists_token_of_leaf leaf
  have memberPhrase : token ∈ phrase.tokens := by
    rw [spelled]
    exact List.mem_singleton_self _
  have known := ((readable_iff phrase maxDepth).mp readable).1 token memberPhrase
  have memberBody := within.subset memberPhrase
  obtain ⟨identifier, resolved⟩ := resolve?_of_denoted isOperand known denotes
  have spelled := Tokens.lexeme_eq_slice scanned (List.mem_append_left _ memberBody)
  exact ⟨token, memberBody, rfl, identifier, spelled, resolved⟩

/-- A node of a rule has the value that its text has on its own. -/
theorem exists_parse_slice_eval
    {node : Expr}
    {context : Context}
    {value : Value}
    (read : parse vocabulary maxDepth source = .ok tree)
    (member : node ∈ tree.nodes)
    (evaluates : node.eval context = .ok value) :
    ∃ alone,
      parse vocabulary maxDepth (String.ofList (Text.slice source.toList node.span)) = .ok alone ∧
        alone.eval context = .ok value := by
  obtain ⟨phrase, before, covered, after, rfl, readable, text, extent, tiles⟩ :=
    exists_tiles_of_mem_nodes read member
  obtain ⟨alone, readAlone, moved⟩ := exists_parse_of_tiles tiles readable
  rw [extent, text, Text.slice_append]
  refine ⟨alone, readAlone, ?_⟩
  rw [← moved, (aligned_of_parse readAlone).eval_mapSpans (Span.respects_shift _)] at evaluates
  cases result : alone.eval context with
  | error error =>
      rw [result] at evaluates
      cases evaluates
  | ok found =>
      rw [result] at evaluates
      exact evaluates

/-- A divisor is a node of the tree that it divides in. -/
theorem HasDivisor.mem_nodes {divisor : Expr} (divides : tree.HasDivisor divisor) :
    divisor ∈ tree.nodes := by
  obtain ⟨first, rest, operators, member, stands⟩ := divides
  have memberOperands : divisor ∈ (arithmetic (first :: rest) operators).operands :=
    List.mem_cons_of_mem _ (List.of_mem_zip stands).2
  exact nodes_subset_of_mem_nodes tree member
    (nodes_subset_of_mem_operands memberOperands divisor.mem_nodes_self)

/-- A divisor of a rule begins with a token that follows a sign of division. -/
theorem HasDivisor.exists_sign
    {tokens : Tokens}
    {divisor : Expr}
    (divides : tree.HasDivisor divisor)
    (scanned : Tokens.scan source = .ok tokens)
    (read : parse vocabulary maxDepth source = .ok tree) :
    ∃ before sign next after,
      tokens.body = before ++ sign :: next :: after ∧
        sign.terminal = .slash ∧ next.span.start = divisor.span.start := by
  obtain ⟨before, sign, phrase, after, spelled, slash, rfl⟩ := divides.standsAfter scanned read
  obtain ⟨next, rest, spelledPhrase, _⟩ := phrase.exists_tokens_cons
  refine ⟨before, sign, next, rest ++ after, ?_, slash, ?_⟩
  · rw [spelled, spelledPhrase, List.cons_append]
  · rw [phrase.span_tree vocabulary, spelledPhrase, List.map_cons, Span.start_joinAll_cons]

/-- A tree without division has a value where all of its variables are bound. -/
theorem exists_eval_of_bound
    {context : Context}
    (bound : ∀ name place,
      .leaf (.variable name) place ∈ tree.nodes → (context name).isSome = true)
    (undivided : ∀ operands operators,
      .arithmetic operands operators ∈ tree.nodes → .divide ∉ operators) :
    ∃ value, tree.eval context = .ok value := by
  cases result : tree.eval context with
  | ok value => exact ⟨value, rfl⟩
  | error error =>
      cases failure_of_eval_eq_error tree result with
      | unbound member unbound =>
          have known := bound _ _ member
          rw [unbound] at known
          cases known
      | division divides _ _ =>
          obtain ⟨first, rest, operators, member, stands⟩ := divides
          exact absurd (List.of_mem_zip stands).1 (undivided _ _ member)

/-- When a rule that was read fails in a context, its text is not malformed.  Either the context
binds no variable of some name, and the error has the span of a token that is resolved to that
name.  Or the error has the span of a text after a sign of division, which is zero on its own.  So
a rule without division has a value where all of its variables are bound. -/
theorem culprit_of_eval_error
    (read : parse vocabulary maxDepth source = .ok tree)
    (context : Context) :
    (∀ fault fragment span position,
      tree.eval context ≠ .error (.malformed fault fragment span position)) ∧
    (∃ tokens,
      Tokens.scan source = .ok tokens ∧
        (∀ name span,
          tree.eval context = .error (.unknownVariable name span) →
            context name = none ∧
              ∃ token ∈ tokens.body,
                token.span = span ∧
                  token.terminal = .identifier ∧
                  token.lexeme = String.ofList (Text.slice source.toList span) ∧
                  vocabulary.resolve? token.lexeme = some name) ∧
        ∀ span,
          tree.eval context = .error (.divisionByZero span) →
            (∃ before sign next after,
              tokens.body = before ++ sign :: next :: after ∧
                sign.terminal = .slash ∧
                next.span.start = span.start) ∧
              ∃ alone value,
                parse vocabulary maxDepth (String.ofList (Text.slice source.toList span)) =
                    .ok alone ∧
                  alone.eval context = .ok value ∧ (value.asNumber == 0) = true) ∧
    ((∀ name place,
        .leaf (.variable name) place ∈ tree.nodes → (context name).isSome = true) →
      (∀ operands operators,
        .arithmetic operands operators ∈ tree.nodes → .divide ∉ operators) →
      ∃ value, tree.eval context = .ok value) := by
  obtain ⟨tokens, scanned⟩ := exists_scan_of_parse read
  refine ⟨?_, ⟨tokens, scanned, ?_, ?_⟩, exists_eval_of_bound⟩
  · intro fault fragment span position fails
    cases failure_of_eval_eq_error tree fails
  · intro name span fails
    cases failure_of_eval_eq_error tree fails with
    | unbound member unbound => exact ⟨unbound, exists_name_of_variable scanned read member⟩
  · intro span fails
    cases failure_of_eval_eq_error tree fails with
    | division divides evaluates zero =>
        obtain ⟨alone, readAlone, evaluatesAlone⟩ :=
          exists_parse_slice_eval read divides.mem_nodes evaluates
        exact ⟨divides.exists_sign scanned read, alone, _, readAlone, evaluatesAlone, zero⟩

/-- The rule `days / (A - 1)` fails where all facts are one, and its divisor is zero there when it
is read on its own. -/
theorem culprit_of_eval_error_of_division :
    ∃ tree alone value,
      parse .standard 1 "days / (A - 1)" = .ok tree ∧
        tree.eval (fun _ => some (.number 1)) = .error (.divisionByZero ⟨7, 14⟩) ∧
        parse .standard 1 (String.ofList (Text.slice "days / (A - 1)".toList ⟨7, 14⟩)) =
          .ok alone ∧
        alone.eval (fun _ => some (.number 1)) = .ok value ∧ (value.asNumber == 0) = true := by
  have fails :
      ((parse .standard 1 "days / (A - 1)").toOption.map fun tree =>
        match tree.eval fun _ => some (.number 1) with
        | .error error => some error
        | .ok _ => none) = some (some (.divisionByZero ⟨7, 14⟩)) := by
    decide +kernel
  cases read : parse .standard 1 "days / (A - 1)" with
  | error error =>
      rw [read] at fails
      cases fails
  | ok tree =>
      rw [read] at fails
      cases result : tree.eval fun _ => some (.number 1) with
      | ok value =>
          simp only [Except.toOption, Option.map_some, result] at fails
          cases fails
      | error error =>
          simp only [Except.toOption, Option.map_some, result, Option.some.injEq] at fails
          rw [fails] at result
          obtain ⟨_, ⟨_, _, _, divides⟩, _⟩ :=
            culprit_of_eval_error read fun _ => some (.number 1)
          obtain ⟨_, alone, value, readAlone, evaluates, zero⟩ := divides _ result
          exact ⟨tree, alone, value, rfl, result, readAlone, evaluates, zero⟩

end Expr
end DecisionRules
