import DecisionRules.Proofs.Checked.Journal
import DecisionRules.Proofs.Checked.Parsing

/-!
# The discipline of a parser

A parser may be started at any place of a list of tokens that has a token for the end of the text,
wherever the tokens come from and however many levels of nesting are open.  When it reads something,
it goes on by a token at least, but not past the first end of the text, and as many levels are open
then as were open before.  In between, as many more levels are open as readings lie within one
another, and never more than the limit.

What happens in between is seen from a journal.  The parser notes before each of its operations
where it stands and how many readings one level deeper it is in.  The journal makes no difference to
what it reads.
-/

namespace DecisionRules
namespace Parser

/-! ## The parser with a journal -/

/-- What is noted before an operation. -/
structure Moment where
  /-- How many readings one level deeper the operation lies in. -/
  entries : Nat
  /-- Where the operation begins. -/
  state : Parser

/-- The operations are carried out, and before each of them a moment is noted. -/
abbrev Execution.noting : Execution (Journaled Parser Moment) :=
  ⟨fun entries operation => .noting (Moment.mk entries) operation, .unfinished⟩

section Noting

open Grammar

variable
  (tokens : List Token) (source : String) (vocabulary : Vocabulary) (maxDepth : Nat)

/-- Reads a phrase of a symbol, which lies in a number of readings one level deeper, and notes each
moment. -/
abbrev readNoting : Nat → Nat → Nonterminal → Journaled Parser Moment (Except RuleError Expr) :=
  readIn tokens source vocabulary maxDepth .noting

end Noting

/-! ## Operations -/

/-- The first token that stands for the end of the text has an index. -/
structure EndsAt (tokens : List Token) (stop : Nat) : Prop where
  /-- The token of the index stands for the end of the text. -/
  finish : ∃ token, tokens[stop]? = some token ∧ token.terminal = .finish
  /-- The tokens before it do not. -/
  body : ∀ index < stop, ∃ token, tokens[index]? = some token ∧ token.terminal ≠ .finish

/-- A parser has come to a place that is no earlier and not behind the end of the text, with as many
levels open. -/
structure Reached (stop : Nat) (start after : Parser) : Prop where
  depth : after.depth = start.depth
  ahead : start.current ≤ after.current
  within : after.current ≤ stop

/-- A parser has passed a token, or stands where it stood. -/
structure Passes (stop : Nat) (start : Parser) (passed : Bool) (after : Parser) : Prop where
  depth : after.depth = start.depth
  current : after.current = start.current + passed.toNat
  within : after.current ≤ stop

/-- A level has been opened below the limit, or none has. -/
inductive Enters (maxDepth : Nat) (start : Parser) : Except RuleError Unit → Parser → Prop
  | error (error : RuleError) : Enters maxDepth start (.error error) start
  | ok (room : start.depth < maxDepth) :
      Enters maxDepth start (.ok ()) ⟨start.current, start.depth + 1⟩

theorem Passes.reached
    {stop : Nat}
    {start after : Parser}
    {passed : Bool}
    (passes : Passes stop start passed after) :
    Reached stop start after :=
  ⟨passes.depth, by rw [passes.current]; exact Nat.le_add_right _ _, passes.within⟩

theorem Reached.trans
    {stop : Nat}
    {start middle after : Parser}
    (first : Reached stop start middle)
    (second : Reached stop middle after) :
    Reached stop start after :=
  ⟨second.depth.trans first.depth, first.ahead.trans second.ahead, second.within⟩

section Operations

open Grammar

variable
  {tokens : List Token}
  {stop : Nat}
  (ends : EndsAt tokens stop)
  {start : Parser}
  (within : start.current ≤ stop)
  {excuse : Prop}

include ends

/-- There is a token at each index up to the first end of the text. -/
theorem EndsAt.exists_token {index : Nat} (within : index ≤ stop) :
    ∃ token, tokens[index]? = some token ∧ (token.terminal = .finish ↔ index = stop) := by
  obtain before | rfl := Nat.lt_or_eq_of_le within
  · obtain ⟨token, found, continues⟩ := ends.body index before
    exact ⟨token, found, iff_of_false continues (Nat.ne_of_lt before)⟩
  · obtain ⟨token, found, finishes⟩ := ends.finish
    exact ⟨token, found, iff_of_true finishes rfl⟩

theorem ends_previous (passed : 0 < start.current) (within : start.current ≤ stop) :
    Ends excuse (fun _ after => after = start) (previous tokens start) := by
  obtain ⟨current, depth⟩ := start
  obtain ⟨before, rfl⟩ := Nat.exists_eq_add_one_of_ne_zero (Nat.ne_of_gt passed)
  obtain ⟨token, found, _⟩ := ends.exists_token (Nat.le_of_succ_le within)
  exact .of_yields (.bind (.get _) (.bind (.pure before _) (.lookup found _))) rfl

include within

theorem ends_peek : Ends excuse (fun _ after => after = start) (peek tokens start) := by
  obtain ⟨token, found, _⟩ := ends.exists_token within
  exact .of_yields (.bind (.get _) (.lookup found _)) rfl

theorem yields_atEnd_iff :
    Yields (atEnd tokens) start (decide (start.current = stop)) start := by
  obtain ⟨token, found, finishes⟩ := ends.exists_token within
  have same : (token.terminal == .finish) = decide (start.current = stop) := by
    rw [Bool.eq_iff_iff, beq_iff_eq, decide_eq_true_iff]
    exact finishes
  rw [← same]
  exact .bind (.bind (.get _) (.lookup found _)) (.pure _ _)

theorem ends_atEnd : Ends excuse (fun _ after => after = start) (atEnd tokens start) :=
  .of_yields (yields_atEnd_iff ends within) rfl

theorem ends_check (terminal : Terminal) :
    Ends excuse (fun found after => after = start ∧ (found = true → start.current < stop))
      (check tokens terminal start) := by
  refine .after (yields_atEnd_iff ends within) ?_
  by_cases finished : start.current = stop
  · rw [decide_eq_true finished]
    exact .of_yields (.pure _ _) ⟨rfl, fun found => absurd found Bool.false_ne_true⟩
  · rw [decide_eq_false finished]
    refine .bind (ends_peek ends within) ?_
    rintro token _ rfl
    exact .of_yields (.pure _ _) ⟨rfl, fun _ => Nat.lt_of_le_of_ne within finished⟩

omit within in
/-- Before the end of the text the parser goes on by a token. -/
theorem ends_advance (before : start.current < stop) :
    Ends excuse (fun _ after => after = ⟨start.current + 1, start.depth⟩)
      (advance tokens start) := by
  have atEnd := yields_atEnd_iff ends (Nat.le_of_lt before)
  rw [decide_eq_false (Nat.ne_of_lt before)] at atEnd
  exact .of_yields (.bind atEnd (.modify rfl)) rfl

/-- A token is passed if it has one of the symbols. -/
theorem ends_matchToken (terminals : List Terminal) :
    Ends excuse (Passes stop start) (matchToken tokens terminals start) := by
  induction terminals with
  | nil => exact .of_yields (.pure _ _) ⟨rfl, rfl, within⟩
  | cons terminal others inductionHypothesis =>
      refine .bind (ends_check ends within terminal) ?_
      rintro found _ ⟨rfl, before⟩
      cases found with
      | false => exact inductionHypothesis
      | true =>
          refine .bind (ends_advance ends (before rfl)) ?_
          rintro _ _ rfl
          exact .of_yields (.pure _ _) ⟨rfl, rfl, before rfl⟩

/-- An operator is passed if one stands there. -/
theorem ends_operator? (level : Level) :
    Ends excuse (fun operator after => Passes stop start operator.isSome after)
      (operator? tokens level start) := by
  -- The operator of a product or a sum is that of the token that has been passed.
  have signed (terminals : List Terminal) (sign : Token → Arithmetic) :
      Ends excuse (fun operator after => Passes stop start operator.isSome after)
        ((do
          if ← matchToken tokens terminals then return some (sign (← previous tokens))
          else return none : Checked Parser (Option Arithmetic)) start) := by
    refine .bind (ends_matchToken ends within terminals) fun passed middle passes => ?_
    cases passed with
    | false => exact .of_yields (.pure _ _) passes
    | true =>
        have behind : 0 < middle.current := passes.current ▸ Nat.succ_pos _
        refine .bind (ends_previous ends behind passes.within) ?_
        rintro token _ rfl
        exact .of_yields (.pure _ _) passes
  have joined (terminals : List Terminal) :
      Ends excuse (fun operator after => Passes stop start operator.isSome after)
        ((do
          if ← matchToken tokens terminals then return some () else return none :
            Checked Parser (Option Unit)) start) := by
    refine .bind (ends_matchToken ends within terminals) fun passed middle passes => ?_
    cases passed <;> exact .of_yields (.pure _ _) passes
  cases level with
  | product => exact signed _ _
  | sum => exact signed _ _
  | comparison =>
      obtain ⟨token, found, finishes⟩ := ends.exists_token within
      refine .after (.bind (.get _) (.lookup found _)) ?_
      cases compares : Terminal.comparison? token.terminal with
      | none => exact .of_yields (.pure _ _) ⟨rfl, rfl, within⟩
      | some operator =>
          have before : start.current < stop := by
            refine Nat.lt_of_le_of_ne within fun finished => ?_
            rw [finishes.mpr finished] at compares
            cases compares
          refine .bind (ends_advance ends before) ?_
          rintro _ _ rfl
          exact .of_yields (.pure _ _) ⟨rfl, rfl, before⟩
  | conjunction => exact joined _
  | disjunction => exact joined _

omit ends within in
/-- An error is made, unless what it quotes is no part of the text. -/
theorem ends_malformed (source : String) (fault : Fault) (span : Span) :
    Ends excuse (fun _ after => after = start) (malformed tokens source fault span start) := by
  have quotes : Ends excuse (fun _ after => after = start)
      (Checked.slice source.toList span start) := by
    rw [Checked.slice]
    split
    · exact .of_yields (.pure _ _) rfl
    · exact .slice span
  refine .bind quotes ?_
  rintro fragment _ rfl
  exact .of_yields (.pure _ _) rfl

/-- A group is closed or an error is made. -/
theorem ends_closeGroup (source : String) (opening : Token) (inner : Expr) :
    Ends excuse (fun _ after => Reached stop start after)
      (closeGroup tokens source opening inner start) := by
  refine .bind (ends_matchToken ends within _) fun passed middle passes => ?_
  cases passed with
  | false =>
      refine .bind (ends_peek ends passes.within) ?_
      rintro found _ rfl
      refine (ends_malformed source _ _).map _ ?_
      rintro error _ rfl
      exact passes.reached
  | true =>
      have behind : 0 < middle.current := passes.current ▸ Nat.succ_pos _
      refine .bind (ends_previous ends behind passes.within) ?_
      rintro closing _ rfl
      exact .of_yields (.pure _ _) passes.reached

/-- Behind a token a level is opened below the limit, and none is opened at it. -/
theorem ends_enter (behind : 0 < start.current) (source : String) (maxDepth : Nat) :
    Ends excuse (Enters maxDepth start) (enter tokens source maxDepth start) := by
  refine .after (.get start) ?_
  by_cases full : maxDepth ≤ start.depth
  · rw [if_pos full]
    refine .bind (ends_previous ends behind within) ?_
    rintro token _ rfl
    refine (ends_malformed source _ _).map _ ?_
    rintro error _ rfl
    exact .error error
  · rw [if_neg full]
    exact .of_yields (.bind (.modify rfl) (.pure _ _)) (.ok (Nat.lt_of_not_le full))

omit ends within in
/-- A level that is open is closed. -/
theorem ends_leave (current depth : Nat) :
    Ends excuse (fun _ after => after = ⟨current, depth⟩) (leave ⟨current, depth + 1⟩) :=
  .of_yields (yields_leave current depth) rfl

omit ends within in
/-- The tree of a run with an operand is made. -/
theorem ends_node
    {level : Level}
    {operands : List Expr}
    (operators : List level.Operator)
    (nonempty : operands ≠ []) :
    Ends excuse (fun _ after => after = start) (node level operands operators start) := by
  obtain ⟨first, rest, rfl⟩ := List.exists_cons_of_ne_nil nonempty
  have removed (made : Expr) (condition : Prop) [Decidable condition] :
      Ends excuse (fun _ after => after = start)
        ((if condition then Checked.removeFirst (first :: rest) else return made :
          Checked Parser Expr) start) := by
    split <;> exact .of_yields (.pure _ _) rfl
  cases level <;> exact removed _ _

end Operations

/-! ## Calls -/

/-- A moment of a call that has begun somewhere: as many more levels are open as readings lie around
the operation, and no more than the limit; and the parser has not gone back, nor past the end of the
text. -/
structure Orderly (stop maxDepth : Nat) (first : Parser) (moment : Moment) : Prop where
  depth : moment.state.depth = first.depth + moment.entries
  shallow : moment.state.depth ≤ maxDepth
  ahead : first.current ≤ moment.state.current
  within : moment.state.current ≤ stop

/-- A call has led to a later place with as many levels open, and if it has read something, to one
that is later by a token at least. -/
structure Advances (stop : Nat) (start : Parser) (result : Except RuleError Expr) (after : Parser) :
    Prop where
  reached : Reached stop start after
  farther : ∀ tree, result = .ok tree → start.current < after.current

theorem Advances.of_error
    {stop : Nat}
    {start after : Parser}
    {error : RuleError}
    (reached : Reached stop start after) :
    Advances stop start (.error error) after :=
  ⟨reached, fun _ read => by cases read⟩

theorem Advances.of_lt
    {stop : Nat}
    {start after : Parser}
    {result : Except RuleError Expr}
    (reached : Reached stop start after)
    (farther : start.current < after.current) :
    Advances stop start result after :=
  ⟨reached, fun _ _ => farther⟩

section Calls

open Grammar

variable
  {tokens : List Token}
  {source : String}
  {vocabulary : Vocabulary}
  {stop maxDepth steps entries : Nat}
  {first start after : Parser}

theorem Orderly.moved
    (orderly : Orderly stop maxDepth first ⟨entries, start⟩)
    (reached : Reached stop start after) :
    Orderly stop maxDepth first ⟨entries, after⟩ :=
  ⟨reached.depth.trans orderly.depth, reached.depth.symm ▸ orderly.shallow,
    orderly.ahead.trans reached.ahead, reached.within⟩

theorem Orderly.entered
    (orderly : Orderly stop maxDepth first ⟨entries, start⟩)
    (room : start.depth < maxDepth) :
    Orderly stop maxDepth first ⟨entries + 1, ⟨start.current, start.depth + 1⟩⟩ :=
  ⟨congrArg Nat.succ orderly.depth, room, orderly.ahead, orderly.within⟩

variable (tokens source vocabulary stop maxDepth first) in
/-- With a number of steps, calls within a call are orderly.  They come to an end if the steps
suffice for the tokens up to the end of the text.  From one token to the next there are at most
eight calls, down from a disjunction to a primary and on to the rest of a run. -/
structure Disciplined (steps : Nat) : Prop where
  /-- A phrase of a symbol is read. -/
  read
    {symbol : Nonterminal}
    {entries : Nat}
    {start : Parser}
    (orderly : Orderly stop maxDepth first ⟨entries, start⟩) :
    Runs (Orderly stop maxDepth first)
      (readNoting tokens source vocabulary maxDepth entries steps symbol)
      (read tokens source vocabulary maxDepth entries steps symbol) start
      (steps ≤ 8 * (stop - start.current) + symbol.rank)
      (Advances stop start)
  /-- A run is read on behind some of its operands. -/
  later
    {level : Level}
    {operands : List Expr}
    {operators : List level.Operator}
    {entries : Nat}
    {start : Parser}
    (nonempty : operands ≠ [])
    (orderly : Orderly stop maxDepth first ⟨entries, start⟩) :
    Runs (Orderly stop maxDepth first)
      (readLaterIn tokens source vocabulary maxDepth .noting entries steps level operands operators)
      (readLaterIn tokens source vocabulary maxDepth .plain entries steps level operands operators)
      start
      (steps ≤ 8 * (stop - start.current) + 7)
      (fun _ after => Reached stop start after)

variable
  (ends : EndsAt tokens stop)
  (disciplined : Disciplined tokens source vocabulary stop maxDepth first steps)
  (orderly : Orderly stop maxDepth first ⟨entries, start⟩)

include ends disciplined in
/-- Behind a token something is read one level deeper, or an error is made. -/
theorem Disciplined.nested
    {symbol : Nonterminal}
    (orderly : Orderly stop maxDepth first ⟨entries, start⟩)
    (behind : 0 < start.current) :
    Runs (Orderly stop maxDepth first)
      (nestedIn tokens source maxDepth .noting entries
        (readNoting tokens source vocabulary maxDepth (entries + 1) steps symbol))
      (nestedIn tokens source maxDepth .plain entries
        (Parser.read tokens source vocabulary maxDepth (entries + 1) steps symbol))
      start (steps ≤ 8 * (stop - start.current) + symbol.rank)
      (fun _ after => Reached stop start after) := by
  refine .bind (.noting orderly (ends_enter ends orderly.within behind source maxDepth)) ?_
  rintro _ _ (⟨error⟩ | ⟨room⟩)
  · exact .pure ⟨rfl, Nat.le_refl _, orderly.within⟩
  · refine .bind (disciplined.read (orderly.entered room)) ?_
    rintro result ⟨current, depth⟩ ⟨reached, _⟩
    obtain rfl : depth = start.depth + 1 := reached.depth
    have orderlyThere := (orderly.entered room).moved reached
    refine .bind (.noting orderlyThere (ends_leave current start.depth)) ?_
    rintro _ _ rfl
    exact .pure ⟨rfl, reached.ahead, reached.within⟩

include disciplined orderly

/-- A run is read from its first operand. -/
theorem Disciplined.run (level : Level) :
    Runs (Orderly stop maxDepth first)
      (readNoting tokens source vocabulary maxDepth entries (steps + 1) (.run level))
      (Parser.read tokens source vocabulary maxDepth entries (steps + 1) (.run level)) start
      (steps + 1 ≤ 8 * (stop - start.current) + (Nonterminal.run level).rank)
      (Advances stop start) := by
  have rank := Nonterminal.rank_run level
  refine .bind ((disciplined.read orderly).imp (fun short => by omega) fun _ _ => id) ?_
  rintro (error | tree) middle ⟨reached, farther⟩
  · exact .pure (.of_error reached)
  · have passed := farther tree rfl
    have within := reached.within
    refine (disciplined.later (List.cons_ne_nil _ _) (orderly.moved reached)).imp
      (fun short => by omega) ?_
    exact fun result after later =>
      .of_lt (reached.trans later) (Nat.lt_of_lt_of_le passed later.ahead)

include ends

/-- The rest of a run is read from its operator, if it has one. -/
theorem Disciplined.laterRun
    {level : Level}
    {operands : List Expr}
    {operators : List level.Operator}
    (nonempty : operands ≠ []) :
    Runs (Orderly stop maxDepth first)
      (readLaterIn tokens source vocabulary maxDepth .noting entries (steps + 1) level operands
        operators)
      (readLaterIn tokens source vocabulary maxDepth .plain entries (steps + 1) level operands
        operators)
      start
      (steps + 1 ≤ 8 * (stop - start.current) + 7)
      (fun _ after => Reached stop start after) := by
  refine .bind (.noting orderly (ends_operator? ends orderly.within level)) ?_
  rintro (_ | operator) middle passes
  · have orderlyThere := orderly.moved passes.reached
    refine .noting orderlyThere ((ends_node operators nonempty).map _ ?_)
    rintro _ _ rfl
    exact passes.reached
  · have passed : middle.current = start.current + 1 := passes.current
    have within := passes.within
    have rank := level.operand.rank_le
    have orderlyThere := orderly.moved passes.reached
    refine .bind ((disciplined.read orderlyThere).imp (fun short => by omega) fun _ _ => id) ?_
    rintro (error | tree) last ⟨reached, farther⟩
    · exact .pure (passes.reached.trans reached)
    · have ahead := reached.ahead
      have withinLast := reached.within
      refine (disciplined.later (by simp) (orderlyThere.moved reached)).imp
        (fun short => by omega) ?_
      exact fun result after later => (passes.reached.trans reached).trans later

/-- A condition is read from its denial, if it has one. -/
theorem Disciplined.condition :
    Runs (Orderly stop maxDepth first)
      (readNoting tokens source vocabulary maxDepth entries (steps + 1) .condition)
      (Parser.read tokens source vocabulary maxDepth entries (steps + 1) .condition) start
      (steps + 1 ≤ 8 * (stop - start.current) + Nonterminal.condition.rank)
      (Advances stop start) := by
  refine .bind (.noting orderly (ends_matchToken ends orderly.within _)) ?_
  rintro passed middle passes
  have orderlyThere := orderly.moved passes.reached
  cases passed with
  | false =>
      refine (disciplined.read orderlyThere).imp (fun short => ?_) fun result after advances =>
        ⟨passes.reached.trans advances.reached, fun tree read =>
          Nat.lt_of_le_of_lt passes.reached.ahead (advances.farther tree read)⟩
      have stays : middle.current = start.current := passes.current
      have rank : Nonterminal.condition.rank = (Nonterminal.run .comparison).rank + 1 := rfl
      omega
  | true =>
      have passed : middle.current = start.current + 1 := passes.current
      have within := passes.within
      have behind : 0 < middle.current := passed ▸ Nat.succ_pos _
      refine .bind (.noting orderlyThere (ends_previous ends behind within)) ?_
      rintro sign _ rfl
      refine .bind ((disciplined.nested ends orderlyThere behind).imp (fun short => ?_)
        fun _ _ => id) ?_
      · have rank : Nonterminal.condition.rank = 4 := rfl
        omega
      rintro (error | tree) last reached
      · exact .pure (.of_error (passes.reached.trans reached))
      · have farther : start.current < last.current :=
          Nat.lt_of_lt_of_le (passed ▸ Nat.lt_succ_self _) reached.ahead
        exact .pure (.of_lt (passes.reached.trans reached) farther)

/-- Behind its parenthesis a group is read one level deeper and closed. -/
theorem Disciplined.group (behind : 0 < start.current) :
    Runs (Orderly stop maxDepth first)
      (groupIn tokens source maxDepth .noting entries
        (readNoting tokens source vocabulary maxDepth (entries + 1) steps (.run .disjunction)))
      (groupIn tokens source maxDepth .plain entries
        (Parser.read tokens source vocabulary maxDepth (entries + 1) steps (.run .disjunction)))
      start (steps ≤ 8 * (stop - start.current) + 6)
      (fun _ after => Reached stop start after) := by
  refine .bind (.noting orderly (ends_previous ends behind orderly.within)) ?_
  rintro opening _ rfl
  refine .bind (disciplined.nested ends orderly behind) ?_
  rintro (error | inner) last reached
  · exact .pure reached
  · refine .noting (orderly.moved reached)
      ((ends_closeGroup ends reached.within source opening inner).imp id ?_)
    exact fun result after closed => reached.trans closed

/-- A primary is read from its operand or from its parenthesis. -/
theorem Disciplined.primary :
    Runs (Orderly stop maxDepth first)
      (readNoting tokens source vocabulary maxDepth entries (steps + 1) .primary)
      (Parser.read tokens source vocabulary maxDepth entries (steps + 1) .primary) start
      (steps + 1 ≤ 8 * (stop - start.current) + Nonterminal.primary.rank)
      (Advances stop start) := by
  refine .bind (.noting orderly (ends_matchToken ends orderly.within _)) ?_
  rintro operand middle passes
  have orderlyThere := orderly.moved passes.reached
  cases operand with
  | true =>
      have passed : middle.current = start.current + 1 := passes.current
      have behind : 0 < middle.current := passed ▸ Nat.succ_pos _
      refine .bind (.noting orderlyThere (ends_previous ends behind passes.within)) ?_
      rintro token _ rfl
      cases Operand.ofToken vocabulary token with
      | error error => exact .pure (.of_error passes.reached)
      | ok operand => exact .pure (.of_lt passes.reached (passed ▸ Nat.lt_succ_self _))
  | false =>
      have stays : middle.current = start.current := passes.current
      refine .bind (.noting orderlyThere (ends_matchToken ends passes.within _)) ?_
      rintro group last passesGroup
      have reached := passes.reached.trans passesGroup.reached
      have orderlyLast := orderly.moved reached
      cases group with
      | true =>
          have passed : last.current = middle.current + 1 := passesGroup.current
          have within := passesGroup.within
          have behind : 0 < last.current := passed ▸ Nat.succ_pos _
          refine (disciplined.group ends orderlyLast behind).imp (fun short => ?_) ?_
          · have rank : Nonterminal.primary.rank = 0 := rfl
            omega
          intro result after closed
          have ahead := closed.ahead
          exact .of_lt (reached.trans closed) (by omega)
      | false =>
          refine .bind (.noting orderlyLast (ends_atEnd ends passesGroup.within)) ?_
          rintro atEnd _ rfl
          refine .bind (.noting orderlyLast (ends_peek ends passesGroup.within)) ?_
          rintro found _ rfl
          refine .noting orderlyLast ((ends_malformed source _ _).map _ ?_)
          rintro error _ rfl
          exact .of_error reached

omit disciplined orderly in
/-- Calls within a call are orderly, however many steps there are. -/
theorem disciplined_of_endsAt (steps : Nat) :
    Disciplined tokens source vocabulary stop maxDepth first steps := by
  induction steps with
  | zero => exact ⟨fun _ => .unfinished (Nat.zero_le _), fun _ _ => .unfinished (Nat.zero_le _)⟩
  | succ steps inductionHypothesis =>
      refine ⟨fun {symbol _ _} orderly => ?_, fun nonempty orderly =>
        inductionHypothesis.laterRun ends orderly nonempty⟩
      cases symbol with
      | primary => exact inductionHypothesis.primary ends orderly
      | condition => exact inductionHypothesis.condition ends orderly
      | run level => exact inductionHypothesis.run orderly level

end Calls

/-- The index of the first token that stands for the end of the text. -/
def firstEnd (tokens : List Token) : Nat :=
  tokens.findIdx (·.terminal == .finish)

/-- Tokens of which the last one stands for the end of the text have a first one that does. -/
theorem endsAt_firstEnd
    {tokens : List Token}
    {last : Token}
    (isLast : tokens.getLast? = some last)
    (finishes : last.terminal = .finish) :
    EndsAt tokens (firstEnd tokens) := by
  have found : firstEnd tokens < tokens.length :=
    List.findIdx_lt_length_of_exists
      ⟨last, List.mem_of_getLast? isLast, beq_iff_eq.mpr finishes⟩
  refine ⟨⟨_, List.getElem?_eq_getElem found, beq_iff_eq.mp (List.findIdx_getElem (w := found))⟩,
    fun index before => ?_⟩
  have there : index < tokens.length := Nat.lt_trans before found
  exact ⟨_, List.getElem?_eq_getElem there,
    beq_eq_false_iff_ne.mp (List.not_of_lt_findIdx before)⟩

section Discipline

open Grammar

/-- The journal of a reading begins with the moment at which the reading starts. -/
theorem head?_readNoting
    (tokens : List Token)
    (source : String)
    (vocabulary : Vocabulary)
    (maxDepth entries : Nat)
    {steps : Nat}
    {symbol : Nonterminal}
    (start : Parser)
    (enough : symbol.rank < steps) :
    (readNoting tokens source vocabulary maxDepth entries steps symbol start).2.head? =
      some ⟨entries, start⟩ := by
  induction steps generalizing symbol with
  | zero => cases enough
  | succ steps inductionHypothesis =>
      cases symbol with
      | primary => exact Journaled.head?_bind rfl
      | condition => exact Journaled.head?_bind rfl
      | run level =>
          have rank := Nonterminal.rank_run level
          exact Journaled.head?_bind (inductionHypothesis (by omega))

/-- A phrase is read from any place up to the first end of the text and at any depth up to the
limit, wherever the tokens come from.

The journal makes no difference.  It begins with the moment at which the reading starts, and at each
of its moments as many more levels are open as readings lie around the operation, which are no more
than the limit leaves.  What is read takes a token at least and stays before the first end of the
text.  All levels that have been opened are closed, also behind an error.  With enough steps the
call comes to an end, unless it quotes a range that is no part of the text. -/
theorem orderly_read
    {tokens : List Token}
    {last : Token}
    (isLast : tokens.getLast? = some last)
    (finishes : last.terminal = .finish)
    (source : String)
    (vocabulary : Vocabulary)
    (maxDepth steps : Nat)
    (symbol : Nonterminal)
    {start : Parser}
    (within : start.current ≤ firstEnd tokens)
    (shallow : start.depth ≤ maxDepth) :
    ∃ moments,
      readNoting tokens source vocabulary maxDepth 0 steps symbol start =
          (read tokens source vocabulary maxDepth 0 steps symbol start, moments) ∧
        (symbol.rank < steps → moments.head? = some ⟨0, start⟩) ∧
        (∀ moment ∈ moments,
          moment.state.depth = start.depth + moment.entries ∧
            moment.state.depth ≤ maxDepth ∧ moment.entries ≤ maxDepth - start.depth) ∧
        (∀ tree after,
          Yields (read tokens source vocabulary maxDepth 0 steps symbol) start (.ok tree) after →
            start.current < after.current ∧ after.current ≤ firstEnd tokens ∧
              after.depth = start.depth) ∧
        (∀ error after,
          Yields (read tokens source vocabulary maxDepth 0 steps symbol) start (.error error)
              after →
            after.current ≤ firstEnd tokens ∧ after.depth = start.depth) ∧
        (8 * (firstEnd tokens - start.current) + symbol.rank < steps →
          (∃ result after,
            Yields (read tokens source vocabulary maxDepth 0 steps symbol) start result after) ∨
          ∃ span,
            read tokens source vocabulary maxDepth 0 steps symbol start =
              some (.error (.slice span))) := by
  have orderly : Orderly (firstEnd tokens) maxDepth start ⟨0, start⟩ :=
    ⟨rfl, shallow, Nat.le_refl _, within⟩
  have disciplined : Disciplined tokens source vocabulary (firstEnd tokens) maxDepth start steps :=
    disciplined_of_endsAt (endsAt_firstEnd isLast finishes) steps
  have runs : Runs (Orderly (firstEnd tokens) maxDepth start)
      (readNoting tokens source vocabulary maxDepth 0 steps symbol)
      (read tokens source vocabulary maxDepth 0 steps symbol) start
      (steps ≤ 8 * (firstEnd tokens - start.current) + symbol.rank)
      (Advances (firstEnd tokens) start) :=
    disciplined.read orderly
  have advances (result : Except RuleError Expr) (after : Parser)
      (yields : Yields (read tokens source vocabulary maxDepth 0 steps symbol) start result after) :
      Advances (firstEnd tokens) start result after :=
    runs.ends.holds_of_yields yields
  refine ⟨_, Prod.ext runs.outcome rfl, head?_readNoting tokens source vocabulary maxDepth 0 start,
    fun moment noted => ?_, fun tree after yields => ?_, fun error after yields => ?_,
    fun enough => ?_⟩
  · have deep := (runs.noted moment noted).depth
    have bounded := (runs.noted moment noted).shallow
    exact ⟨deep, bounded, by omega⟩
  · have advanced := advances _ _ yields
    exact ⟨advanced.farther tree rfl, advanced.reached.within, advanced.reached.depth⟩
  · have reached := (advances _ _ yields).reached
    exact ⟨reached.within, reached.depth⟩
  · exact runs.ends.yields_or_slice (Nat.not_le_of_lt enough)

/-- The tokens may come from nowhere and go on behind the first end of the text. -/
theorem orderly_read_of_foreign_tokens :
    let token (terminal : Terminal) : Token := ⟨terminal, "?", ⟨9, 7⟩, ⟨5, 5⟩⟩
    let tokens : List Token :=
      [token .negation, token .leftParen, token .truth, token .rightParen, token .finish,
        token .leftParen, token .finish]
    firstEnd tokens = 4 ∧
      ∃ tree,
        Yields (read tokens "" .standard 3 0 60 .condition) ⟨0, 1⟩ (.ok tree) ⟨4, 1⟩ ∧
          ∃ moments,
            readNoting tokens "" .standard 3 0 60 .condition ⟨0, 1⟩ =
                (some (.ok (.ok tree, ⟨4, 1⟩)), moments) ∧
              moments.head? = some ⟨0, ⟨0, 1⟩⟩ ∧ ∀ moment ∈ moments, moment.entries ≤ 2 := by
  intro token tokens
  refine ⟨by decide, _, rfl, ?_⟩
  have isLast : tokens.getLast? = some (token .finish) := rfl
  have within : (Parser.mk 0 1).current ≤ firstEnd tokens := by decide
  obtain ⟨moments, came, begins, good, -⟩ :=
    orderly_read isLast rfl "" .standard 3 60 .condition within (by decide)
  exact ⟨moments, came, begins (by decide), fun moment noted => (good moment noted).2.2⟩

-- As many readings as the limit leaves do lie within one another, and one more is an error.
example :
    let token (terminal : Terminal) : Token := ⟨terminal, "?", ⟨0, 0⟩, ⟨1, 1⟩⟩
    let tokens := [token .negation, token .leftParen, token .leftParen, token .finish]
    let run := readNoting tokens "" .standard 3 0 60 .condition ⟨0, 1⟩
    run.1 = some (.ok (.error (.malformed .nestingTooDeep "" ⟨0, 0⟩ ⟨1, 1⟩), ⟨3, 1⟩)) ∧
      run.2.any (·.entries == 2) = true :=
  ⟨rfl, rfl⟩

end Discipline

end Parser
end DecisionRules
