import DecisionRules.Proofs.Checked.Parser
import DecisionRules.Proofs.Checked.Scanner
import DecisionRules.Proofs.Grammar.RuleText
import DecisionRules.Proofs.Report.Drawing

/-!
# Reading without a breach

A parser with an index into the tokens makes of them what the productions of the grammar make of
the tokens behind the index, and it has as many levels of nesting open in the end as at the start,
whether it succeeds or not.  So an index is that of a token, a level is open where one is closed,
and a run has an operand.  What an error quotes is a part of the text when the tokens were scanned.

Each call of a production is for fewer tokens than the call before, or for a symbol further down in
the grammar, so that the steps that reading takes are bounded by the number of tokens.
-/

namespace DecisionRules

/-! ## Runs, operand by operand -/

namespace Grammar

variable (vocabulary : Vocabulary) (room : Nat) (level : Level)

/-- What a run comes to that has been begun: its tree and the tokens behind it. -/
def completion (run : Run level.Operator) : List Token → Except Obstacle (Expr × List Token)
  | [] => .ok (level.form run, [])
  | token :: rest =>
    match level.operator? token.terminal with
    | none => .ok (level.form run, token :: rest)
    | some operator =>
      (Production.result
          (Run.read level.operator? (production vocabulary room level.operand)) rest).map
        fun read =>
          (level.form ⟨run.first, run.later ++ (operator, read.1.first) :: read.1.later⟩, read.2)

/-- A run begins with an operand. -/
theorem result_run_eq (tokens : List Token) :
    (production vocabulary room (.run level)).result tokens =
      ((production vocabulary room level.operand).result tokens).bind fun operand =>
        completion vocabulary room level ⟨operand.1, []⟩ operand.2 := by
  rw [result_run, Run.result_read]
  cases (production vocabulary room level.operand).result tokens with
  | error obstacle => rfl
  | ok operand =>
      obtain ⟨first, rest⟩ := operand
      cases rest with
      | nil => rfl
      | cons token rest =>
          simp only [Except.bind, completion]
          cases level.operator? token.terminal with
          | none => rfl
          | some operator => exact Functor.map_map (f := Except Obstacle) ..

variable {level}

/-- Behind an operator a run goes on with an operand. -/
theorem completion_cons
    (run : Run level.Operator)
    {token : Token}
    {operator : level.Operator}
    (joins : level.operator? token.terminal = some operator)
    (rest : List Token) :
    completion vocabulary room level run (token :: rest) =
      ((production vocabulary room level.operand).result rest).bind fun operand =>
        completion vocabulary room level ⟨run.first, run.later ++ [(operator, operand.1)]⟩
          operand.2 := by
  simp only [completion, joins]
  rw [Run.result_read]
  cases (production vocabulary room level.operand).result rest with
  | error obstacle => rfl
  | ok operand =>
      obtain ⟨first, rest⟩ := operand
      cases rest with
      | nil => rfl
      | cons token rest =>
          simp only [Except.bind, List.append_assoc, List.singleton_append]
          cases level.operator? token.terminal with
          | none => rfl
          | some operator => exact Functor.map_map (f := Except Obstacle) ..

/-- Where no operator follows, a run ends. -/
theorem completion_of_none
    (run : Run level.Operator)
    {rest : List Token}
    (separate : ∀ token ∈ rest.head?, level.operator? token.terminal = none) :
    completion vocabulary room level run rest = .ok (level.form run, rest) := by
  cases rest with
  | nil => rfl
  | cons token rest => simp only [completion, separate token rfl]

/-- What a symbol is read as behind a token that leads one level deeper. -/
def deeperResult (entry : Token) (symbol : Nonterminal) (tokens : List Token) :
    Nat → Except Obstacle (Expr × List Token)
  | 0 => .error (.nestingTooDeep entry)
  | room + 1 => (production vocabulary room symbol).result tokens

/-- What a parenthesis comes to with the tree behind it. -/
def closedGroup (opening : Token) (inner : Expr) :
    List Token → Except Obstacle (Expr × List Token)
  | [] => .error (.unclosedGroup opening none)
  | closing :: rest =>
    if closing.terminal = .rightParen then
      .ok (.group inner (opening.span.join closing.span), rest)
    else .error (.unclosedGroup opening (some closing))

/-- A denied condition is read one level deeper. -/
theorem result_condition_eq
    {sign : Token}
    (denies : sign.terminal = .negation)
    (tokens : List Token) :
    (production vocabulary room .condition).result (sign :: tokens) =
      (deeperResult vocabulary sign .condition tokens room).bind fun read =>
        .ok (.negation read.1 (sign.span.join read.1.span), read.2) := by
  rw [result_condition_denial _ _ _ denies]
  cases room <;> rfl

/-- A group is read one level deeper. -/
theorem result_primary_eq
    {opening : Token}
    (opens : opening.terminal = .leftParen)
    (tokens : List Token) :
    (production vocabulary room .primary).result (opening :: tokens) =
      (deeperResult vocabulary opening (.run .disjunction) tokens room).bind fun read =>
        closedGroup opening read.1 read.2 := by
  rw [result_primary_cons, opens, if_neg (by decide), if_pos rfl]
  cases room with
  | zero => rfl
  | succ deeper =>
      simp only [deeperResult]
      cases (production vocabulary deeper (.run .disjunction)).result tokens with
      | error obstacle => rfl
      | ok read =>
          obtain ⟨inner, rest⟩ := read
          cases rest <;> rfl

/-- How many symbols are further down in the grammar. -/
def Nonterminal.rank : Nonterminal → Nat
  | .primary => 0
  | .run .product => 1
  | .run .sum => 2
  | .run .comparison => 3
  | .condition => 4
  | .run .conjunction => 5
  | .run .disjunction => 6

theorem Nonterminal.rank_run (level : Level) :
    (Nonterminal.run level).rank = level.operand.rank + 1 := by
  cases level <;> rfl

theorem Nonterminal.rank_le (symbol : Nonterminal) : symbol.rank ≤ 6 := by
  cases symbol with
  | primary => decide
  | condition => decide
  | run level => cases level <;> decide

end Grammar

/-! ## The productions -/

theorem Terminal.mem_operands_iff (terminal : Terminal) :
    terminal ∈ [number, truth, falsehood, identifier] ↔ terminal.isOperand = true := by
  cases terminal <;> decide

namespace Parser

open Grammar

section Realization

variable (tokens : Tokens) (source : String)

/-- A program that is started in some state realizes what a production makes of tokens.  With its
tree it stands before the tokens that follow; the error is made if what it quotes is a part of the
text.  In both cases a number of levels are open. -/
inductive Realizes (program : Checked Parser (Except RuleError Expr)) (start : Parser)
    (depth : Nat) : Except Obstacle (Expr × List Token) → Prop
  | ok
      {tree : Expr}
      {before rest : List Token}
      (all : tokens.body = before ++ rest)
      (yields : Yields program start (.ok tree) ⟨before.length, depth⟩) :
      Realizes program start depth (.ok (tree, rest))
  | error
      {obstacle : Obstacle}
      (fails : Text.IsPart source.toList (obstacle.toError source tokens).span →
        ∃ current,
          Yields program start (.error (obstacle.toError source tokens)) ⟨current, depth⟩) :
      Realizes program start depth (.error obstacle)

section Composition

variable
  {tokens : Tokens}
  {source : String}
  {start middle : Parser}
  {depth : Nat}

/-- A tree that ends with a token is realized behind the token. -/
theorem Realizes.past
    {program : Checked Parser (Except RuleError Expr)}
    {before rest : List Token}
    {token : Token}
    {tree : Expr}
    (all : tokens.body = before ++ token :: rest)
    (yields : Yields program start (.ok tree) ⟨before.length + 1, depth⟩) :
    Realizes tokens source program start depth (.ok (tree, rest)) := by
  have split : tokens.body = (before ++ [token]) ++ rest := by
    rw [all, List.append_assoc, List.singleton_append]
  have place : (before ++ [token]).length = before.length + 1 := List.length_append
  rw [← place] at yields
  exact .ok split yields

/-- What follows a beginning is realized behind it. -/
theorem Realizes.after
    {program : Checked Parser α}
    {next : α → Checked Parser (Except RuleError Expr)}
    {value : α}
    {result : Except Obstacle (Expr × List Token)}
    (first : Yields program start value middle)
    (second : Realizes tokens source (next value) middle depth result) :
    Realizes tokens source (program >>= next) start depth result := by
  cases second with
  | ok all yields => exact .ok all (.bind first yields)
  | error fails => exact .error fun part => (fails part).imp fun _ yields => .bind first yields

/-- A production that begins with another one is realized if what it does behind it is, and if it
passes the error of the other one on. -/
theorem Realizes.bind
    {operand : Checked Parser (Except RuleError Expr)}
    {next : Except RuleError Expr → Checked Parser (Except RuleError Expr)}
    {result : Except Obstacle (Expr × List Token)}
    {form : Expr × List Token → Except Obstacle (Expr × List Token)}
    (first : Realizes tokens source operand start depth result)
    (stops : ∀ error state, Yields (next (.error error)) state (.error error) state)
    (goes : ∀ tree before rest, result = .ok (tree, rest) → tokens.body = before ++ rest →
      Realizes tokens source (next (.ok tree)) ⟨before.length, depth⟩ depth
        (form (tree, rest))) :
    Realizes tokens source (operand >>= next) start depth (result.bind form) := by
  cases first with
  | ok all yields => exact .after yields (goes _ _ _ rfl all)
  | error fails =>
      exact .error fun part => (fails part).imp fun current yields =>
        .bind yields (stops _ _)

end Composition

variable (vocabulary : Vocabulary) (maxDepth : Nat)

/-- With a number of steps, the parser realizes all productions for as many tokens as the steps
suffice for.  From one token to the next there are at most eight calls, down from a disjunction to a
primary and on to the rest of a run. -/
structure Sound (steps : Nat) : Prop where
  /-- A phrase of a symbol is read. -/
  read
    {symbol : Nonterminal}
    {before rest : List Token}
    {depth room entries : Nat}
    (all : tokens.body = before ++ rest)
    (total : depth + room = maxDepth)
    (enough : 8 * rest.length + symbol.rank < steps) :
    Realizes tokens source (read tokens.toList source vocabulary maxDepth entries steps symbol)
      ⟨before.length, depth⟩ depth ((production vocabulary room symbol).result rest)
  /-- A run is read on behind some of its operands. -/
  later
    {level : Level}
    {before rest : List Token}
    {depth room entries : Nat}
    (run : Run level.Operator)
    (all : tokens.body = before ++ rest)
    (total : depth + room = maxDepth)
    (enough : 8 * rest.length + 7 < steps) :
    Realizes tokens source
      (readLaterIn tokens.toList source vocabulary maxDepth .plain entries steps level run.operands
        run.operators)
      ⟨before.length, depth⟩ depth (completion vocabulary room level run rest)

end Realization

section Productions

variable
  {tokens : Tokens}
  {source : String}
  {vocabulary : Vocabulary}
  {maxDepth steps : Nat}
  (delimited : tokens.Delimited)
  (sound : Sound tokens source vocabulary maxDepth steps)
  {before rest : List Token}
  {depth room entries : Nat}
  (all : tokens.body = before ++ rest)
  (total : depth + room = maxDepth)

include sound

/-- What follows a token is read behind it. -/
theorem Sound.readPast
    {token : Token}
    {symbol : Nonterminal}
    (all : tokens.body = before ++ token :: rest)
    (total : depth + room = maxDepth)
    (enough : 8 * (token :: rest).length < steps + 1) :
    Realizes tokens source
      (Parser.read tokens.toList source vocabulary maxDepth entries steps symbol)
      ⟨before.length + 1, depth⟩ depth ((production vocabulary room symbol).result rest) := by
  have split : tokens.body = (before ++ [token]) ++ rest := by
    rw [all, List.append_assoc, List.singleton_append]
  have bounded := symbol.rank_le
  have place : (before ++ [token]).length = before.length + 1 := List.length_append
  rw [List.length_cons] at enough
  rw [← place]
  exact sound.read split total (by omega)

/-- Behind a token a symbol is read one level deeper, as far as there is room. -/
theorem Sound.realizes_nested
    {token : Token}
    {symbol : Nonterminal}
    (all : tokens.body = before ++ token :: rest)
    (total : depth + room = maxDepth)
    (enough : 8 * (token :: rest).length < steps + 1) :
    Realizes tokens source
      (nestedIn tokens.toList source maxDepth .plain entries
        (Parser.read tokens.toList source vocabulary maxDepth (entries + 1) steps symbol))
      ⟨before.length + 1, depth⟩ depth (deeperResult vocabulary token symbol rest room) := by
  cases room with
  | zero =>
      subst total
      exact .error fun part => ⟨_, .bind (yields_enter_error all _ part) (.pure _ _)⟩
  | succ room =>
      have inner : depth + 1 + room = maxDepth := by omega
      refine .after (yields_enter _ (by omega)) ?_
      have read : Realizes tokens source
          (Parser.read tokens.toList source vocabulary maxDepth (entries + 1) steps symbol) _ _
          ((production vocabulary room symbol).result rest) :=
        sound.readPast all inner enough
      have closes (result : Except RuleError Expr) (current : Nat) :
          Yields (do leave; return result) ⟨current, depth + 1⟩ result ⟨current, depth⟩ :=
        .bind (yields_leave _ _) (.pure _ _)
      rw [deeperResult]
      generalize (production vocabulary room symbol).result rest = result at read
      cases read with
      | ok split yields => exact .ok split (.bind yields (closes _ _))
      | error fails =>
          exact .error fun part =>
            (fails part).imp fun current yields => .bind yields (closes _ current)

include all total

/-- A run is realized. -/
theorem realizes_run
    (level : Level)
    (enough : 8 * rest.length + (Nonterminal.run level).rank < steps + 1) :
    Realizes tokens source
      (read tokens.toList source vocabulary maxDepth entries (steps + 1) (.run level))
      ⟨before.length, depth⟩ depth ((production vocabulary room (.run level)).result rest) := by
  rw [Nonterminal.rank_run] at enough
  rw [result_run_eq]
  refine .bind (sound.read all total (Nat.lt_of_succ_lt_succ enough)) (fun _ _ => .pure _ _) ?_
  intro first before remaining found split
  have fewer : remaining.length < rest.length := Production.length_lt found
  have enoughLater : 8 * remaining.length + 7 < steps := by omega
  exact sound.later ⟨first, []⟩ split total enoughLater

include delimited

/-- The rest of a run is realized.  It is empty, or it begins with an operator. -/
theorem realizes_later
    {level : Level}
    (run : Run level.Operator)
    (enough : 8 * rest.length + 7 < steps + 1) :
    Realizes tokens source
      (readLaterIn tokens.toList source vocabulary maxDepth .plain entries (steps + 1) level
        run.operands run.operators)
      ⟨before.length, depth⟩ depth (completion vocabulary room level run rest) := by
  by_cases joined : ∃ token ∈ rest.head?, ∃ operator, level.operator? token.terminal = some operator
  · obtain ⟨token, head, operator, joins⟩ := joined
    obtain ⟨behind, rfl⟩ := List.head?_eq_some_iff.mp head
    rw [completion_cons _ _ _ joins]
    refine .after (yields_operator? delimited all joins) ?_
    have enoughRead := Nat.lt_of_le_of_lt (Nat.le_add_right _ _) enough
    refine .bind (sound.readPast all total enoughRead) (fun _ _ => .pure _ _) ?_
    intro tree before remaining found split
    have fewer : remaining.length < behind.length := Production.length_lt found
    rw [List.length_cons] at enough
    have goes : Realizes tokens source
        (readLaterIn tokens.toList source vocabulary maxDepth .plain entries steps level _ _)
        _ _ _ :=
      sound.later ⟨run.first, run.later ++ [(operator, tree)]⟩ split total (by omega)
    simpa [Run.operands, Run.operators] using goes
  · have separate : ∀ token ∈ rest.head?, level.operator? token.terminal = none := by
      intro token head
      by_contra joins
      obtain ⟨operator, joins⟩ := Option.ne_none_iff_exists'.mp joins
      exact joined ⟨token, head, operator, joins⟩
    rw [completion_of_none _ _ _ separate]
    exact .after (yields_operator?_none delimited all separate)
      (.ok all ((yields_node run _).map _))

/-- A condition is realized.  It denies another one, or it is a comparison. -/
theorem realizes_condition (enough : 8 * rest.length + Nonterminal.condition.rank < steps + 1) :
    Realizes tokens source
      (read tokens.toList source vocabulary maxDepth entries (steps + 1) .condition)
      ⟨before.length, depth⟩ depth ((production vocabulary room .condition).result rest) := by
  by_cases denied : ∃ token ∈ rest.head?, token.terminal = .negation
  · obtain ⟨sign, head, denies⟩ := denied
    obtain ⟨behind, rfl⟩ := List.head?_eq_some_iff.mp head
    have enoughRead := Nat.lt_of_le_of_lt (Nat.le_add_right _ _) enough
    rw [result_condition_eq _ _ denies]
    refine .after (yields_matchToken delimited all (List.mem_singleton.mpr denies)) ?_
    refine .after (yields_previous all) ?_
    refine .bind (sound.realizes_nested all total enoughRead) (fun _ _ => .pure _ _) ?_
    exact fun tree before remaining found split => .ok split (.pure _ _)
  · have affirms : ∀ token ∈ rest.head?, token.terminal ≠ .negation :=
      fun token head denies => denied ⟨token, head, denies⟩
    rw [result_condition_plain _ _ affirms]
    refine .after (yields_matchToken_false delimited all ?_) ?_
    · exact fun token head listed => affirms token head (List.mem_singleton.mp listed)
    · exact sound.read all total (Nat.lt_of_succ_lt_succ enough)

omit sound total in
/-- What stands behind the tree of a group closes it, or an error is made. -/
theorem realizes_closedGroup (opening : Token) (inner : Expr) :
    Realizes tokens source (closeGroup tokens.toList source opening inner)
      ⟨before.length, depth⟩ depth (closedGroup opening inner rest) := by
  by_cases closed : ∃ token ∈ rest.head?, token.terminal = .rightParen
  · obtain ⟨closing, head, closes⟩ := closed
    obtain ⟨behind, rfl⟩ := List.head?_eq_some_iff.mp head
    rw [closedGroup, if_pos closes]
    exact .past all (.bind (yields_matchToken delimited all (List.mem_singleton.mpr closes))
      (.bind (yields_previous all) (.pure _ _)))
  · have unlisted : ∀ token ∈ rest.head?, token.terminal ∉ [Terminal.rightParen] :=
      fun token head listed => closed ⟨token, head, List.mem_singleton.mp listed⟩
    have unclosed : closedGroup opening inner rest =
        .error (.unclosedGroup opening rest.head?) := by
      cases rest with
      | nil => rfl
      | cons token behind => exact if_neg fun closes => closed ⟨token, rfl, closes⟩
    rw [unclosed]
    exact .error fun part => ⟨_, .bind (yields_matchToken_false delimited all unlisted)
      (.bind (yields_peek all) ((yields_malformed _ part).map _))⟩

omit sound total in
/-- Where neither an operand nor a group begins, an operand is missing. -/
theorem realizes_missingOperand
    (absent : ∀ token ∈ rest.head?,
      ¬ token.terminal.isOperand = true ∧ token.terminal ≠ .leftParen) :
    Realizes tokens source
      (read tokens.toList source vocabulary maxDepth entries (steps + 1) .primary)
      ⟨before.length, depth⟩ depth (.error (.missingOperand rest.head?)) := by
  refine .after (yields_matchToken_false delimited all ?_) ?_
  · exact fun token head listed => (absent token head).1 ((Terminal.mem_operands_iff _).mp listed)
  refine .after (yields_matchToken_false delimited all ?_) ?_
  · exact fun token head listed => (absent token head).2 (List.mem_singleton.mp listed)
  refine .after (yields_atEnd delimited all) (.error fun part => ⟨before.length, ?_⟩)
  cases rest <;> exact .bind (yields_peek all) ((yields_malformed _ part).map _)

omit sound all total in
/-- An operand is read from its token. -/
theorem realizes_operand
    {token : Token}
    (all : tokens.body = before ++ token :: rest)
    (isOperand : token.terminal.isOperand = true) :
    Realizes tokens source
      (read tokens.toList source vocabulary maxDepth entries (steps + 1) .primary)
      ⟨before.length, depth⟩ depth
      ((production vocabulary room .primary).result (token :: rest)) := by
  rw [result_primary_cons, if_pos isOperand]
  refine .after (yields_matchToken delimited all ((Terminal.mem_operands_iff _).mpr isOperand)) ?_
  refine .after (yields_previous all) ?_
  cases Operand.ofToken vocabulary token with
  | error error => exact .error fun _ => ⟨_, .pure _ _⟩
  | ok operand => exact .past all (.pure _ _)

omit all in
/-- A group is read one level deeper. -/
theorem realizes_group
    {opening : Token}
    (all : tokens.body = before ++ opening :: rest)
    (opens : opening.terminal = .leftParen)
    (enough : 8 * (opening :: rest).length < steps + 1) :
    Realizes tokens source
      (read tokens.toList source vocabulary maxDepth entries (steps + 1) .primary)
      ⟨before.length, depth⟩ depth
      ((production vocabulary room .primary).result (opening :: rest)) := by
  rw [result_primary_eq _ _ opens]
  refine .after (yields_matchToken_false delimited all ?_) ?_
  · rintro token ⟨⟩ listed
    rw [Terminal.mem_operands_iff, opens] at listed
    exact absurd listed (by decide)
  refine .after (yields_matchToken delimited all (List.mem_singleton.mpr opens)) ?_
  refine .after (yields_previous all) ?_
  refine .bind (sound.realizes_nested all total enough) (fun _ _ => .pure _ _) ?_
  exact fun inner before remaining found split =>
    realizes_closedGroup delimited split opening inner

/-- A primary is realized.  It is an operand, a group or nothing. -/
theorem realizes_primary (enough : 8 * rest.length + Nonterminal.primary.rank < steps + 1) :
    Realizes tokens source
      (read tokens.toList source vocabulary maxDepth entries (steps + 1) .primary)
      ⟨before.length, depth⟩ depth ((production vocabulary room .primary).result rest) := by
  cases rest with
  | nil =>
      refine realizes_missingOperand delimited all ?_
      rintro _ ⟨⟩
  | cons token behind =>
      by_cases isOperand : token.terminal.isOperand = true
      · exact realizes_operand delimited all isOperand
      by_cases opens : token.terminal = .leftParen
      · exact realizes_group delimited sound total all opens enough
      · rw [result_primary_cons, if_neg isOperand, if_neg opens]
        refine realizes_missingOperand delimited all ?_
        rintro _ ⟨⟩
        exact ⟨isOperand, opens⟩

end Productions

section Rules

variable {tokens : Tokens}

/-- The parser realizes all productions, for as many tokens as its steps suffice for. -/
theorem sound
    (delimited : tokens.Delimited)
    (source : String)
    (vocabulary : Vocabulary)
    (maxDepth steps : Nat) :
    Sound tokens source vocabulary maxDepth steps := by
  induction steps with
  | zero =>
      exact ⟨fun _ _ enough => absurd enough (Nat.not_lt_zero _),
        fun _ _ _ enough => absurd enough (Nat.not_lt_zero _)⟩
  | succ steps inductionHypothesis =>
      refine ⟨fun {symbol _ _ _ _ _} all total enough => ?_, fun run all total enough =>
        realizes_later delimited inductionHypothesis all total run enough⟩
      cases symbol with
      | primary => exact realizes_primary delimited inductionHypothesis all total enough
      | condition => exact realizes_condition delimited inductionHypothesis all total enough
      | run level => exact realizes_run inductionHypothesis all total level enough

/-- A rule is read from its tokens, or the error is made that the grammar leads to, when the text
that it quotes can be cut out. -/
theorem exists_yields_parse
    (delimited : tokens.Delimited)
    {source : String}
    {vocabulary : Vocabulary}
    {maxDepth steps : Nat}
    (enough : 8 * tokens.body.length + 6 < steps)
    (quotes : ∀ error, Expr.parseTokens vocabulary maxDepth source tokens = .error error →
      Text.IsPart source.toList error.span) :
    ∃ after,
      Yields (parse tokens.toList source vocabulary maxDepth steps) ⟨0, 0⟩
        (Expr.parseTokens vocabulary maxDepth source tokens) after := by
  have read : Realizes tokens source
      (read tokens.toList source vocabulary maxDepth 0 steps (.run .disjunction)) _ _
      ((production vocabulary maxDepth (.run .disjunction)).result tokens.body) :=
    (sound delimited source vocabulary maxDepth steps).read (List.nil_append _).symm
      (Nat.zero_add _) enough
  rw [Expr.parseTokens, Expr.ofTokens_eq] at quotes ⊢
  generalize (production vocabulary maxDepth (.run .disjunction)).result tokens.body = result
    at read quotes ⊢
  cases read with
  | error fails =>
      obtain ⟨current, yields⟩ := fails (quotes _ rfl)
      exact ⟨_, .bind yields (.pure _ _)⟩
  | @ok tree before rest all yields =>
      refine ⟨⟨before.length, 0⟩, .bind yields (.bind (yields_atEnd delimited all) ?_)⟩
      cases rest with
      | nil => exact .pure _ _
      | cons found later =>
          exact .bind (yields_peek all) ((yields_malformed _ (quotes _ rfl)).map _)

end Rules
end Parser

/-! ## Rule texts -/

namespace Expr

/-- Reads a rule text with a cursor into the text and an index into its tokens, in at most `steps`
steps of each loop and level. -/
def parseChecked
    (vocabulary : Vocabulary)
    (maxDepth : Nat)
    (source : String)
    (steps : Nat) :
    ExceptT Breach Option (Except RuleError Expr) := do
  match ← (Scanner.scan source steps).run' (.ofSource source) with
  | .error error => return .error error
  | .ok tokens => (Parser.parse tokens source vocabulary maxDepth steps).run' ⟨0, 0⟩

/-- Whatever a rule text is, reading it comes to an end without a breach: every range that is cut
out of the text is a part of it, every index is that of a token, a level is open where one is
closed, and a run has an operand where one is taken from it.  What is read is what the grammar makes
of the text.  The steps that suffice are linear in the length of the text. -/
theorem run_parseChecked
    (vocabulary : Vocabulary)
    (maxDepth : Nat)
    {source : String}
    {steps : Nat}
    (enough : 8 * source.toList.length + 6 < steps) :
    (parseChecked vocabulary maxDepth source steps).run =
      some (.ok (parse vocabulary maxDepth source)) := by
  have enoughScan : source.toList.length < steps := by omega
  obtain ⟨_, scans⟩ := Scanner.exists_yields_scan enoughScan
  have quotes := @pointsInto_of_parse vocabulary maxDepth source
  rw [parseChecked, scans.run']
  rw [parse] at quotes ⊢
  cases scanned : Tokens.scan source with
  | error error => rfl
  | ok tokens =>
      rw [scanned] at quotes
      have tiles : Tiles 0 source.toList tokens.body := Tokens.tiles_of_scanAt scanned
      have enoughParse : 8 * tokens.body.length + 6 < steps := by
        have := tiles.length_le
        omega
      obtain ⟨_, yields⟩ := Parser.exists_yields_parse (Tokens.delimited_of_scan scanned)
        enoughParse fun error fails => (quotes fails).isPart
      exact yields.run'

/-- A negation that is nested too deep is quoted up to the end of the text. -/
theorem run_parseChecked_of_denial :
    8 * "(A and not (B".toList.length + 6 < 111 ∧
      (parseChecked .standard 1 "(A and not (B" 111).run =
        some (.ok (.error (.malformed .nestingTooDeep "not (B" ⟨7, 13⟩ ⟨1, 8⟩))) := by
  have deep : parse .standard 1 "(A and not (B" =
      .error (.malformed .nestingTooDeep "not (B" ⟨7, 13⟩ ⟨1, 8⟩) :=
    eq_error_of_errorOf?_eq_some (by decide +kernel)
  rw [← deep]
  exact ⟨by decide, run_parseChecked .standard 1 (by decide)⟩

end Expr
end DecisionRules
