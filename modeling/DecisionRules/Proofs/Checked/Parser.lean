import DecisionRules.Proofs.Checked.Basic
import DecisionRules.Proofs.Grammar.Production

/-!
# Reading with an index into the tokens

The productions of the grammar can be read with an index into a list of tokens and a count of the
levels of nesting that are open.  The index is looked up at every turn, the count goes up with a
parenthesis or a negation and comes down again behind it, a run of a single operand is replaced by
its operand, and an error quotes a range of the text.

This module describes the parser and what each of its operations does at a place between two of the
tokens.  No operation but the quotation depends on where the tokens come from.
-/

namespace DecisionRules

/-- Where a parser stands in a list of tokens. -/
structure Parser where
  /-- The index of the current token. -/
  current : Nat
  /-- How many levels of nesting are open. -/
  depth : Nat

namespace Parser

/-! ## The parser -/

section Operations

variable (tokens : List Token) (source : String) (maxDepth : Nat)

/-- The current token. -/
def peek : Checked Parser Token := do
  Checked.lookup tokens (← get).current

/-- The token before the current one. -/
def previous : Checked Parser Token := do
  Checked.lookup tokens (← Checked.countdown (← get).current)

/-- Whether the current token is the end of the text. -/
def atEnd : Checked Parser Bool :=
  return (← peek tokens).terminal == .finish

/-- Goes on to the next token, but not past the end of the text. -/
def advance : Checked Parser Unit := do
  if ← atEnd tokens then return ()
  else modify fun parser => { parser with current := parser.current + 1 }

/-- Whether the current token has a symbol. -/
def check (terminal : Terminal) : Checked Parser Bool := do
  if ← atEnd tokens then return false
  else return (← peek tokens).terminal == terminal

/-- Passes the current token if it has one of some symbols, and says whether it has. -/
def matchToken : List Terminal → Checked Parser Bool
  | [] => return false
  | terminal :: others => do
    if ← check tokens terminal then
      advance tokens
      return true
    else matchToken others

/-- The position that the first token at an offset has. -/
def positionAt (offset : Nat) : Position :=
  match tokens.find? fun token => token.span.start == offset with
  | some token => token.position
  | none => ⟨1, offset + 1⟩

/-- The error about a part of the text, which it quotes without the blanks at the end. -/
def malformed (fault : Fault) (span : Span) : Checked Parser RuleError := do
  let fragment ← Checked.slice source.toList span
  return .malformed fault (String.ofList (Text.trimEnd fragment)) span
    (positionAt tokens span.start)

/-- Opens a level of nesting, unless the limit is reached. -/
def enter : Checked Parser (Except RuleError Unit) := do
  if maxDepth ≤ (← get).depth then
    let token ← previous tokens
    .error <$> malformed tokens source .nestingTooDeep
      ⟨token.span.start, Text.byteWidth source.toList⟩
  else
    modify fun parser => { parser with depth := parser.depth + 1 }
    return .ok ()

/-- Closes a level of nesting. -/
def leave : Checked Parser Unit := do
  let depth ← Checked.countdown (← get).depth
  modify fun parser => { parser with depth }

end Operations

/-- The tree of a run of computations. -/
def arithmetic (operands : List Expr) (operators : List Arithmetic) : Checked Parser Expr :=
  if operators.isEmpty then Checked.removeFirst operands
  else return .arithmetic operands operators

/-- The tree of a chain of comparisons. -/
def comparison (operands : List Expr) (operators : List Comparison) : Checked Parser Expr :=
  if operators.isEmpty then Checked.removeFirst operands
  else return .comparison operands operators

/-- The tree of a run of conditions. -/
def logical (connective : Connective) (operands : List Expr) : Checked Parser Expr :=
  if operands.length = 1 then Checked.removeFirst operands
  else return .logical connective operands

/-- How the operations of the parser are carried out by programs of some kind. -/
structure Execution (m : Type → Type) where
  /-- Carries out an operation that lies in a number of readings one level deeper. -/
  perform : {α : Type} → Nat → Checked Parser α → m α
  /-- What is done where the steps do not suffice. -/
  unfinished : {α : Type} → m α

/-- The operations are carried out, and nothing else is done. -/
abbrev Execution.plain : Execution (Checked Parser) :=
  ⟨fun _ operation => operation, .unfinished⟩

open Grammar

/-- The tree of the operands and operators of a level. -/
def node : (level : Level) → List Expr → List level.Operator → Checked Parser Expr
  | .product, operands, operators => arithmetic operands operators
  | .sum, operands, operators => arithmetic operands operators
  | .comparison, operands, operators => comparison operands operators
  | .conjunction, operands, _ => logical .and operands
  | .disjunction, operands, _ => logical .or operands

section Productions

variable (tokens : List Token) (source : String) (vocabulary : Vocabulary) (maxDepth : Nat)

/-- Passes the current token if it is an operator of a level. -/
def operator? : (level : Level) → Checked Parser (Option level.Operator)
  | .product => do
    if ← matchToken tokens [.star, .slash] then
      return some (if (← previous tokens).terminal = .star then .multiply else .divide)
    else return none
  | .sum => do
    if ← matchToken tokens [.plus, .minus] then
      return some (if (← previous tokens).terminal = .plus then .add else .subtract)
    else return none
  | .comparison => do
    match Terminal.comparison? (← peek tokens).terminal with
    | none => return none
    | some operator =>
      advance tokens
      return some operator
  | .conjunction => do
    if ← matchToken tokens [.conjunction] then return some () else return none
  | .disjunction => do
    if ← matchToken tokens [.disjunction] then return some () else return none

/-- Reads the parenthesis that closes a group. -/
def closeGroup (opening : Token) (inner : Expr) : Checked Parser (Except RuleError Expr) := do
  if ← matchToken tokens [.rightParen] then
    let closing ← previous tokens
    return .ok (.group inner ⟨opening.span.start, closing.span.stop⟩)
  else
    let found ← peek tokens
    .error <$> malformed tokens source .unclosedGroup ⟨opening.span.start, found.span.start⟩

section Execution

variable {m : Type → Type} [Monad m] (execution : Execution m)

/-- Reads something one level deeper, which is closed again whether it is read or not. -/
def nestedIn (entries : Nat) (inner : m (Except RuleError Expr)) : m (Except RuleError Expr) := do
  match ← execution.perform entries (enter tokens source maxDepth) with
  | .error error => return .error error
  | .ok () =>
    let result ← inner
    execution.perform (entries + 1) leave
    return result

/-- Reads a group behind the parenthesis that opens it. -/
def groupIn (entries : Nat) (inner : m (Except RuleError Expr)) : m (Except RuleError Expr) := do
  let opening ← execution.perform entries (previous tokens)
  match ← nestedIn tokens source maxDepth execution entries inner with
  | .error error => return .error error
  | .ok inner => execution.perform entries (closeGroup tokens source opening inner)

mutual

/-- Reads a phrase of a symbol. -/
def readIn : Nat → Nat → Nonterminal → m (Except RuleError Expr)
  | _, 0, _ => execution.unfinished
  | entries, steps + 1, .primary => do
    let operands := [.number, .truth, .falsehood, .identifier]
    if ← execution.perform entries (matchToken tokens operands) then
      let token ← execution.perform entries (previous tokens)
      match Operand.ofToken vocabulary token with
      | .error error => return .error error
      | .ok operand => return .ok (.leaf operand token.span)
    else if ← execution.perform entries (matchToken tokens [.leftParen]) then
      groupIn tokens source maxDepth execution entries
        (readIn (entries + 1) steps (.run .disjunction))
    else
      let ends ← execution.perform entries (atEnd tokens)
      let found ← execution.perform entries (peek tokens)
      let fault := if ends then .missingOperand else .expectedOperand
      execution.perform entries (.error <$> malformed tokens source fault found.span)
  | entries, steps + 1, .condition => do
    if ← execution.perform entries (matchToken tokens [.negation]) then
      let sign ← execution.perform entries (previous tokens)
      match ← nestedIn tokens source maxDepth execution entries
        (readIn (entries + 1) steps .condition) with
      | .error error => return .error error
      | .ok tree => return .ok (.negation tree ⟨sign.span.start, tree.span.stop⟩)
    else readIn entries steps (.run .comparison)
  | entries, steps + 1, .run level => do
    match ← readIn entries steps level.operand with
    | .error error => return .error error
    | .ok first => readLaterIn entries steps level [first] []

/-- Reads the rest of a run of which some operands and the operators between them have been read. -/
def readLaterIn : Nat → Nat → (level : Level) → List Expr → List level.Operator →
    m (Except RuleError Expr)
  | _, 0, _, _, _ => execution.unfinished
  | entries, steps + 1, level, operands, operators => do
    match ← execution.perform entries (operator? tokens level) with
    | none => execution.perform entries (.ok <$> node level operands operators)
    | some operator =>
      match ← readIn entries steps level.operand with
      | .error error => return .error error
      | .ok operand =>
        readLaterIn entries steps level (operands ++ [operand]) (operators ++ [operator])

end

end Execution

/-- Reads a phrase of a symbol, with nothing but the operations. -/
abbrev read : Nat → Nat → Nonterminal → Checked Parser (Except RuleError Expr) :=
  readIn tokens source vocabulary maxDepth .plain

/-- Reads a rule, which has to take all tokens. -/
def parse (steps : Nat) : Checked Parser (Except RuleError Expr) := do
  match ← read tokens source vocabulary maxDepth 0 steps (.run .disjunction) with
  | .error error => return .error error
  | .ok tree =>
    if ← atEnd tokens then return .ok tree
    else
      let found ← peek tokens
      .error <$> malformed tokens source .trailingInput
        ⟨found.span.start, Text.byteWidth source.toList⟩

end Productions
end Parser

/-! ## Places between tokens -/

/-- The token for the end of the text is the last one, and no other one stands for it. -/
structure Tokens.Delimited (tokens : Tokens) : Prop where
  /-- No token before the last one is the end of the text. -/
  body : ∀ token ∈ tokens.body, token.terminal ≠ .finish
  /-- The last token is the end of the text. -/
  finish : tokens.finish.terminal = .finish

-- Behind a token that is not followed by the end of the text, an index is looked up in vain.
example :
    (Parser.parse [⟨.truth, "true", ⟨0, 4⟩, .start⟩] "true" .standard 1 8).run' ⟨0, 0⟩ =
      some (.error (.lookup 1)) :=
  rfl

/-- Scanned tokens end with the token for the end of the text. -/
theorem Tokens.delimited_of_scan
    {source : String}
    {tokens : Tokens}
    (scanned : scan source = .ok tokens) :
    tokens.Delimited :=
  ⟨terminal_ne_finish_of_scan scanned, terminal_finish_of_scan scanned⟩

namespace Parser

open Grammar

section Places

variable
  {tokens : Tokens}
  {before rest : List Token}
  {token : Token}
  {depth : Nat}

theorem getElem?_toList (all : tokens.body = before ++ rest) :
    tokens.toList[before.length]? = some (rest.head?.getD tokens.finish) := by
  rw [Tokens.toList, all, List.append_assoc, List.getElem?_append_right (Nat.le_refl _),
    Nat.sub_self]
  cases rest <;> rfl

theorem yields_peek (all : tokens.body = before ++ rest) :
    Yields (peek tokens.toList) ⟨before.length, depth⟩ (rest.head?.getD tokens.finish)
      ⟨before.length, depth⟩ :=
  .bind (.get _) (.lookup (getElem?_toList all) _)

/-- The token that has been passed is the one before. -/
theorem yields_previous (all : tokens.body = before ++ token :: rest) :
    Yields (previous tokens.toList) ⟨before.length + 1, depth⟩ token ⟨before.length + 1, depth⟩ :=
  .bind (.get _) (.bind (.pure before.length _) (.lookup (getElem?_toList all) _))

variable (delimited : tokens.Delimited)

include delimited

theorem yields_atEnd (all : tokens.body = before ++ rest) :
    Yields (atEnd tokens.toList) ⟨before.length, depth⟩ rest.isEmpty ⟨before.length, depth⟩ := by
  have ends : ((rest.head?.getD tokens.finish).terminal == .finish) = rest.isEmpty := by
    cases rest with
    | nil => exact beq_iff_eq.mpr delimited.finish
    | cons token rest =>
        exact beq_eq_false_iff_ne.mpr (delimited.body token (all ▸ by simp))
  rw [← ends]
  exact .bind (yields_peek all) (.pure _ _)

/-- A token before the end of the text is passed. -/
theorem yields_advance (all : tokens.body = before ++ token :: rest) :
    Yields (advance tokens.toList) ⟨before.length, depth⟩ () ⟨before.length + 1, depth⟩ :=
  .bind (yields_atEnd delimited all) (.modify rfl)

theorem yields_check (terminal : Terminal) (all : tokens.body = before ++ rest) :
    Yields (check tokens.toList terminal) ⟨before.length, depth⟩
      (rest.head?.any (·.terminal == terminal)) ⟨before.length, depth⟩ := by
  refine .bind (yields_atEnd delimited all) ?_
  cases rest with
  | nil => exact .pure _ _
  | cons token rest => exact .bind (yields_peek all) (.pure _ _)

/-- A token with one of the symbols is passed. -/
theorem yields_matchToken
    {terminals : List Terminal}
    (all : tokens.body = before ++ token :: rest)
    (listed : token.terminal ∈ terminals) :
    Yields (matchToken tokens.toList terminals) ⟨before.length, depth⟩ true
      ⟨before.length + 1, depth⟩ := by
  induction terminals with
  | nil => cases listed
  | cons terminal others inductionHypothesis =>
      refine .bind (yields_check delimited terminal all) ?_
      rw [List.head?_cons, Option.any_some]
      by_cases same : token.terminal = terminal
      · rw [beq_iff_eq.mpr same]
        exact .bind (yields_advance delimited all) (.pure _ _)
      · rw [beq_eq_false_iff_ne.mpr same]
        exact inductionHypothesis ((List.mem_cons.mp listed).resolve_left same)

/-- No token is passed where one with another symbol or the end of the text stands. -/
theorem yields_matchToken_false
    {terminals : List Terminal}
    (all : tokens.body = before ++ rest)
    (unlisted : ∀ token ∈ rest.head?, token.terminal ∉ terminals) :
    Yields (matchToken tokens.toList terminals) ⟨before.length, depth⟩ false
      ⟨before.length, depth⟩ := by
  induction terminals with
  | nil => exact .pure _ _
  | cons terminal others inductionHypothesis =>
      have different : rest.head?.any (·.terminal == terminal) = false := by
        cases rest with
        | nil => rfl
        | cons token rest =>
            exact beq_eq_false_iff_ne.mpr (List.ne_of_not_mem_cons (unlisted token rfl))
      refine .bind (yields_check delimited terminal all) ?_
      rw [different]
      exact inductionHypothesis fun token head => List.not_mem_of_not_mem_cons (unlisted token head)

/-- A sign between operands is passed, and is the operator that it is for the grammar. -/
theorem yields_operator?
    {level : Level}
    {operator : level.Operator}
    (all : tokens.body = before ++ token :: rest)
    (joins : level.operator? token.terminal = some operator) :
    Yields (operator? tokens.toList level) ⟨before.length, depth⟩ (some operator)
      ⟨before.length + 1, depth⟩ := by
  cases level with
  | product =>
      obtain ⟨listed, rfl⟩ : token.terminal ∈ [.star, .slash] ∧
          (if token.terminal = .star then Arithmetic.multiply else .divide) = operator := by
        cases terminal : token.terminal <;>
          simp_all [Level.operator?, Terminal.multiplicative?]
      exact .bind (yields_matchToken delimited all listed)
        (.bind (yields_previous all) (.pure _ _))
  | sum =>
      obtain ⟨listed, rfl⟩ : token.terminal ∈ [.plus, .minus] ∧
          (if token.terminal = .plus then Arithmetic.add else .subtract) = operator := by
        cases terminal : token.terminal <;> simp_all [Level.operator?, Terminal.additive?]
      exact .bind (yields_matchToken delimited all listed)
        (.bind (yields_previous all) (.pure _ _))
  | comparison =>
      refine .bind (yields_peek all) ?_
      have same : Terminal.comparison? token.terminal = some operator := joins
      simp only [List.head?_cons, Option.getD_some, same]
      exact .bind (yields_advance delimited all) (.pure _ _)
  | conjunction =>
      have listed : token.terminal ∈ [.conjunction] := by
        cases terminal : token.terminal <;> simp_all [Level.operator?, Terminal.joins?]
      exact .bind (yields_matchToken delimited all listed) (.pure _ _)
  | disjunction =>
      have listed : token.terminal ∈ [.disjunction] := by
        cases terminal : token.terminal <;> simp_all [Level.operator?, Terminal.joins?]
      exact .bind (yields_matchToken delimited all listed) (.pure _ _)

/-- Nothing else is passed as an operator. -/
theorem yields_operator?_none
    {level : Level}
    (all : tokens.body = before ++ rest)
    (separate : ∀ token ∈ rest.head?, level.operator? token.terminal = none) :
    Yields (operator? tokens.toList level) ⟨before.length, depth⟩ none ⟨before.length, depth⟩ := by
  have unlisted (terminals : List Terminal)
      (operators : ∀ terminal ∈ terminals, level.operator? terminal ≠ none) :
      ∀ token ∈ rest.head?, token.terminal ∉ terminals :=
    fun token head listed => operators token.terminal listed (separate token head)
  cases level with
  | product =>
      have passes := unlisted [.star, .slash] (by simp [Level.operator?, Terminal.multiplicative?])
      exact .bind (yields_matchToken_false delimited all passes) (.pure _ _)
  | sum =>
      have passes := unlisted [.plus, .minus] (by simp [Level.operator?, Terminal.additive?])
      exact .bind (yields_matchToken_false delimited all passes) (.pure _ _)
  | comparison =>
      have none : Terminal.comparison? (rest.head?.getD tokens.finish).terminal = none := by
        cases rest with
        | nil => exact congrArg Terminal.comparison? delimited.finish
        | cons token rest => exact separate token rfl
      refine .bind (yields_peek all) ?_
      rw [none]
      exact .pure _ _
  | conjunction =>
      have passes := unlisted [.conjunction] (by simp [Level.operator?, Terminal.joins?])
      exact .bind (yields_matchToken_false delimited all passes) (.pure _ _)
  | disjunction =>
      have passes := unlisted [.disjunction] (by simp [Level.operator?, Terminal.joins?])
      exact .bind (yields_matchToken_false delimited all passes) (.pure _ _)

end Places

/-! ## Nesting and quotations -/

section Nesting

variable {tokens : Tokens} {source : String} {state : Parser}

/-- A part of the text is quoted. -/
theorem yields_malformed
    {span : Span}
    (fault : Fault)
    (part : Text.IsPart source.toList span) :
    Yields (malformed tokens.toList source fault span) state
      (Obstacle.malformed source tokens fault span) state :=
  .bind (.slice part _) (.pure _ _)

/-- A level that has been opened is closed. -/
theorem yields_leave (current depth : Nat) :
    Yields leave ⟨current, depth + 1⟩ () ⟨current, depth⟩ :=
  .bind (.get _) (.bind (.pure depth _) (.modify rfl))

/-- A level is opened below the limit. -/
theorem yields_enter {maxDepth : Nat} (current : Nat) {depth : Nat} (room : depth < maxDepth) :
    Yields (enter tokens.toList source maxDepth) ⟨current, depth⟩ (.ok ())
      ⟨current, depth + 1⟩ := by
  refine .bind (.get _) ?_
  rw [if_neg (Nat.not_le_of_lt room)]
  exact .bind (.modify rfl) (.pure _ _)

/-- No level is opened at the limit. -/
theorem yields_enter_error
    {before rest : List Token}
    {token : Token}
    (all : tokens.body = before ++ token :: rest)
    (maxDepth : Nat)
    (part : Text.IsPart source.toList
      ((Obstacle.nestingTooDeep token).toError source tokens).span) :
    Yields (enter tokens.toList source maxDepth) ⟨before.length + 1, maxDepth⟩
      (.error ((Obstacle.nestingTooDeep token).toError source tokens))
      ⟨before.length + 1, maxDepth⟩ := by
  refine .bind (.get _) ?_
  rw [if_pos (Nat.le_refl _)]
  exact .bind (yields_previous all) ((yields_malformed _ part).map _)

end Nesting

/-! ## Runs -/

/-- The tree of a run is that of the grammar.  A run has an operand, even where it has no
operator. -/
theorem yields_node {level : Level} (run : Run level.Operator) (state : Parser) :
    Yields (node level run.operands run.operators) state (level.form run) state := by
  obtain ⟨first, later⟩ := run
  cases level <;> cases later <;> exact .pure _ _

end Parser
end DecisionRules
