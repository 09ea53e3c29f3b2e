import DecisionRules.Proofs.Grammar.Phrase

/-!
# What the productions read

The productions return readings, which carry a proof that tokens were taken.  This module gives
for each production an equation without these proofs, in which the productions of the next
tighter level and of the next deeper one occur only through what they make of their tokens.
-/

namespace DecisionRules

/-- What a production makes of tokens: a value with the tokens that follow, or an obstacle. -/
def Production.result (production : Production α) (tokens : List Token) :
    Except Obstacle (α × List Token) :=
  (production tokens).map fun reading => (reading.value, reading.rest)

/-- A production that reads a value takes at least one token. -/
theorem Production.length_lt
    {production : Production α}
    {tokens rest : List Token}
    {value : α}
    (read : production.result tokens = .ok (value, rest)) :
    rest.length < tokens.length := by
  obtain ⟨reading, _, same⟩ := exists_ok_of_map_eq_ok read
  cases same
  exact reading.shorter

/-- Putting the value of each reading into another form does so to the results. -/
theorem Production.result_map
    (form : α → β)
    (production : Production α)
    (tokens : List Token) :
    Production.result (fun tokens => (production tokens).map (Reading.map form)) tokens =
      (production.result tokens).map fun read => (form read.1, read.2) := by
  simp only [Production.result]
  cases production tokens <;> rfl

/-- A run is an operand, and where an operator follows, the operator and another run. -/
theorem Run.result_read
    (operator? : Terminal → Option Operator)
    (operand : Production Expr)
    (tokens : List Token) :
    Production.result (Run.read operator? operand) tokens =
      match operand.result tokens with
      | .error obstacle => .error obstacle
      | .ok (first, []) => .ok (⟨first, []⟩, [])
      | .ok (first, token :: rest) =>
        match operator? token.terminal with
        | none => .ok (⟨first, []⟩, token :: rest)
        | some operator =>
          (Production.result (Run.read operator? operand) rest).map fun read =>
            (Run.cons first operator read.1, read.2) := by
  simp only [Production.result]
  rw [Run.read]
  cases operand tokens with
  | error obstacle => rfl
  | ok reading =>
      obtain ⟨first, rest, shorter⟩ := reading
      cases rest with
      | nil => rfl
      | cons token rest =>
          simp only [Except.map]
          cases operator? token.terminal with
          | none => rfl
          | some operator => cases Run.read operator? operand rest <;> rfl

namespace Grammar

/-- The operator that a terminal symbol is at a level. -/
def Level.operator? : (level : Level) → Terminal → Option level.Operator
  | .product => Terminal.multiplicative?
  | .sum => Terminal.additive?
  | .comparison => Terminal.comparison?
  | .conjunction => Terminal.joins? .and
  | .disjunction => Terminal.joins? .or

theorem Level.operator?_eq_some_iff
    (level : Level)
    (terminal : Terminal)
    (operator : level.Operator) :
    level.operator? terminal = some operator ↔ (terminal, operator) ∈ level.operators := by
  cases level <;> cases terminal <;>
    simp [operator?, operators, Terminal.multiplicative?, Terminal.additive?,
      Terminal.comparison?, Terminal.joins?, eq_comm]

theorem Level.operator?_eq_none
    {level : Level}
    {terminal : Terminal}
    (separate : ¬ level.Joins terminal) :
    level.operator? terminal = none := by
  rw [Option.eq_none_iff_forall_ne_some]
  intro operator joins
  exact separate ⟨operator, (level.operator?_eq_some_iff terminal operator).mp joins⟩

/-- The tree of a run that has been read. -/
def Level.form : (level : Level) → Run level.Operator → Expr
  | .product | .sum => Run.arithmetic
  | .comparison => Run.comparison
  | .conjunction => Run.logical .and
  | .disjunction => Run.logical .or

theorem Level.form_eq_node (level : Level) (run : Run level.Operator) :
    level.form run = level.node run.first (run.later.map Prod.snd) (run.later.map Prod.fst) := by
  obtain ⟨first, later⟩ := run
  cases level <;> cases later <;> rfl

/-- The productions of one level deeper, if there is room for them. -/
def below (vocabulary : Vocabulary) : Nat → Option (Entrance → Production Expr)
  | 0 => none
  | room + 1 => some (nested vocabulary room)

/-- The production of a symbol where there is room for a number of deeper levels. -/
def production (vocabulary : Vocabulary) (room : Nat) : Nonterminal → Production Expr
  | .primary => primary vocabulary (below vocabulary room)
  | .condition => condition vocabulary (below vocabulary room)
  | .run .product => product vocabulary (below vocabulary room)
  | .run .sum => sum vocabulary (below vocabulary room)
  | .run .comparison => comparison vocabulary (below vocabulary room)
  | .run .conjunction => conjunction vocabulary (below vocabulary room)
  | .run .disjunction => disjunction vocabulary (below vocabulary room)

/-- The symbol that an entrance leads to. -/
def entered : Entrance → Nonterminal
  | .condition => .condition
  | .disjunction => .run .disjunction

section Level

variable (vocabulary : Vocabulary) (room : Nat) (tokens : List Token)

@[simp] theorem below_zero : below vocabulary 0 = none := rfl

@[simp] theorem below_succ : below vocabulary (room + 1) = some (nested vocabulary room) := rfl

theorem nested_eq (entrance : Entrance) :
    nested vocabulary room entrance = production vocabulary room (entered entrance) := by
  cases room <;> cases entrance <;> rfl

/-- A primary begins with an operand or with a parenthesis. -/
theorem result_primary_cons (token : Token) :
    (production vocabulary room .primary).result (token :: tokens) =
      if token.terminal.isOperand then
        match Operand.ofToken vocabulary token with
        | .error error => .error (.operand error)
        | .ok operand => .ok (.leaf operand token.span, tokens)
      else if token.terminal = .leftParen then
        match room with
        | 0 => .error (.nestingTooDeep token)
        | deeper + 1 =>
          match (production vocabulary deeper (.run .disjunction)).result tokens with
          | .error obstacle => .error obstacle
          | .ok (_, []) => .error (.unclosedGroup token none)
          | .ok (inner, closing :: remaining) =>
            if closing.terminal = .rightParen then
              .ok (.group inner (token.span.join closing.span), remaining)
            else .error (.unclosedGroup token (some closing))
      else .error (.missingOperand (some token)) := by
  simp only [Production.result, production, primary]
  split
  · cases Operand.ofToken vocabulary token <;> rfl
  · split
    · cases room with
      | zero => rfl
      | succ deeper =>
          simp only [below_succ, nested_eq, entered, production]
          cases disjunction vocabulary (below vocabulary deeper) tokens with
          | error obstacle => rfl
          | ok reading =>
              obtain ⟨inner, rest, shorter⟩ := reading
              cases rest with
              | nil => rfl
              | cons closing remaining =>
                  by_cases closes : closing.terminal = .rightParen
                  · simp only [Except.map, closes, if_true]
                  · simp only [Except.map, closes, if_false]
    · rfl

/-- A condition that begins with `not` is denied. -/
theorem result_condition_denial {sign : Token} (denies : sign.terminal = .negation) :
    (production vocabulary room .condition).result (sign :: tokens) =
      match room with
      | 0 => .error (.nestingTooDeep sign)
      | deeper + 1 =>
        ((production vocabulary deeper .condition).result tokens).map fun read =>
          (.negation read.1 (sign.span.join read.1.span), read.2) := by
  change Except.map _ (condition vocabulary (below vocabulary room) (sign :: tokens)) = _
  simp only [condition, denies, if_true]
  cases room with
  | zero => rfl
  | succ deeper =>
      simp only [below_succ, nested_eq, entered, Production.result]
      cases production vocabulary deeper .condition tokens <;> rfl

/-- A condition that does not begin with `not` is a comparison. -/
theorem result_condition_plain
    {tokens : List Token}
    (affirms : ∀ token ∈ tokens.head?, token.terminal ≠ .negation) :
    (production vocabulary room .condition).result tokens =
      (production vocabulary room (.run .comparison)).result tokens := by
  cases tokens with
  | nil => rfl
  | cons token rest =>
      have different := affirms token rfl
      simp only [Production.result, production, condition, different, if_false]

/-- A run of a level is made of operands of the level. -/
theorem result_run (level : Level) :
    (production vocabulary room (.run level)).result tokens =
      (Production.result
          (Run.read level.operator? (production vocabulary room level.operand)) tokens).map
        fun read => (level.form read.1, read.2) := by
  cases level <;> exact Production.result_map _ _ tokens

end Level

end Grammar
end DecisionRules
