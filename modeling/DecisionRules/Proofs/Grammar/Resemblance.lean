import DecisionRules.Proofs.Grammar.Placement
import DecisionRules.Proofs.Grammar.Progress
import DecisionRules.Proofs.Token.Lexing
import Mathlib.Data.List.Forall2

/-!
# Tokens that are read alike

Tokens resemble each other when they have the same symbol, both signs of equality being one, and
when the vocabulary knows both or none of them.  Lists of tokens that resemble each other one by
one lead equally far, and have obstacles at the same places and of the same kind.
-/

namespace DecisionRules
namespace Grammar

/-- A relation that holds between tokens that resemble each other. -/
structure Resembles (vocabulary : Vocabulary) (related : Token → Token → Prop) : Prop where
  /-- Related tokens have the same symbol. -/
  sense : ∀ {left right}, related left right → left.terminal.sense = right.terminal.sense
  /-- The vocabulary knows both of two related tokens or none. -/
  known : ∀ {left right}, related left right →
    (Operand.ofToken vocabulary left).toOption.isSome =
      (Operand.ofToken vocabulary right).toOption.isSome

/-- Obstacles of one kind at related tokens. -/
inductive ObstaclesRelated (vocabulary : Vocabulary) (related : Token → Token → Prop) :
    Obstacle → Obstacle → Prop
  | operand
      {left right : Token}
      {error other : RuleError}
      (tokens : related left right)
      (unreadable : Operand.ofToken vocabulary left = .error error)
      (unreadableOther : Operand.ofToken vocabulary right = .error other) :
      ObstaclesRelated vocabulary related (.operand error) (.operand other)
  | missingOperand
      {left right : Option Token}
      (found : Option.Rel related left right) :
      ObstaclesRelated vocabulary related (.missingOperand left) (.missingOperand right)
  | unclosedGroup
      {opening other : Token}
      {left right : Option Token}
      (openings : related opening other)
      (found : Option.Rel related left right) :
      ObstaclesRelated vocabulary related (.unclosedGroup opening left)
        (.unclosedGroup other right)
  | nestingTooDeep
      {left right : Token}
      (tokens : related left right) :
      ObstaclesRelated vocabulary related (.nestingTooDeep left) (.nestingTooDeep right)
  | trailingInput
      {left right : Token}
      (found : related left right) :
      ObstaclesRelated vocabulary related (.trailingInput left) (.trailingInput right)

/-- As many open levels, opened by related tokens. -/
structure Nesting.Related (related : Token → Token → Prop) (left right : Nesting) : Prop where
  /-- Related parentheses are open, with the same denials around them. -/
  groups : left.groups.Forall₂ (fun one other => related one.1 other.1 ∧ one.2 = other.2)
    right.groups
  /-- The same denials are open within them. -/
  denials : left.denials = right.denials

/-- Rules that have come equally far. -/
structure Progress.Related (related : Token → Token → Prop) (left right : Progress) : Prop where
  /-- The same levels are open. -/
  nesting : left.nesting.Related related right.nesting
  /-- The same has to stand next. -/
  expected : left.expected = right.expected

theorem Nesting.related_start (related : Token → Token → Prop) :
    Nesting.start.Related related .start :=
  ⟨.nil, rfl⟩

theorem Progress.related_start (related : Token → Token → Prop) :
    Progress.start.Related related .start :=
  ⟨Nesting.related_start related, rfl⟩

section Symbols

variable {left right : Terminal}

theorem joined?_congr (same : left.sense = right.sense) : joined? left = joined? right := by
  obtain rfl | ⟨rfl, rfl⟩ | ⟨rfl, rfl⟩ := (Terminal.sense_eq_iff left right).mp same <;> rfl

theorem Expected.after_congr (same : left.sense = right.sense) :
    Expected.after left = Expected.after right := by
  obtain rfl | ⟨rfl, rfl⟩ | ⟨rfl, rfl⟩ := (Terminal.sense_eq_iff left right).mp same <;> rfl

/-- Of two symbols of one sense, both or none are a symbol that has no other sign. -/
theorem terminal_eq_iff
    (same : left.sense = right.sense)
    (terminal : Terminal)
    (sole : terminal ≠ .equal ∧ terminal ≠ .equalEqual) :
    left = terminal ↔ right = terminal := by
  constructor
  · rintro rfl
    exact Terminal.eq_of_sense_eq same.symm sole.1 sole.2
  · rintro rfl
    exact Terminal.eq_of_sense_eq same sole.1 sole.2

end Symbols

section Related

variable
  {vocabulary : Vocabulary}
  {related : Token → Token → Prop}
  (resembles : Resembles vocabulary related)
  {limit : Nat}

/-- Where the same levels are open, no parentheses are open, or the innermost ones are related. -/
theorem Nesting.Related.groups_cases {left right : Nesting} (same : left.Related related right) :
    left.groups = [] ∧ right.groups = [] ∨
      ∃ one outer other others,
        left.groups = one :: outer ∧ right.groups = other :: others ∧ related one.1 other.1 ∧
          Nesting.Related related ⟨outer, one.2⟩ ⟨others, other.2⟩ := by
  obtain ⟨groups, denials⟩ := left
  obtain ⟨groupsOther, denialsOther⟩ := right
  cases same.groups with
  | nil => exact .inl ⟨rfl, rfl⟩
  | cons head outer => exact .inr ⟨_, _, _, _, rfl, rfl, head.1, outer, head.2⟩

theorem Nesting.Related.depth_eq {left right : Nesting} (same : left.Related related right) :
    left.depth = right.depth := by
  have groupDepth {groups others : List (Token × Nat)}
      (same : groups.Forall₂ (fun one other => related one.1 other.1 ∧ one.2 = other.2) others) :
      groupDepth groups = groupDepth others := by
    induction same with
    | nil => rfl
    | cons head _ inductionHypothesis =>
        rw [Nesting.groupDepth, Nesting.groupDepth, head.2, inductionHypothesis]
  rw [depth, depth, same.denials, groupDepth same.groups]

include resembles

/-- Related tokens open and close the same levels. -/
theorem Nesting.Related.after
    {left right : Nesting}
    (same : left.Related related right)
    {token other : Token}
    (tokens : related token other) :
    (left.after token).Related related (right.after other) := by
  have groups := same.groups
  have denials := same.denials
  unfold Nesting.after
  obtain terminal | ⟨one, two⟩ | ⟨one, two⟩ :=
    (Terminal.sense_eq_iff _ _).mp (resembles.sense tokens)
  · rw [terminal]
    cases other.terminal with
    | leftParen => exact ⟨.cons ⟨tokens, denials⟩ groups, rfl⟩
    | negation => exact ⟨groups, congrArg (· + 1) denials⟩
    | conjunction => exact ⟨groups, rfl⟩
    | disjunction => exact ⟨groups, rfl⟩
    | rightParen =>
        obtain ⟨none, noneOther⟩ | ⟨one, outer, other, others, left, right, _, inner⟩ :=
          same.groups_cases
        · rw [none, noneOther]
          exact same
        · rw [left, right]
          exact inner
    | _ => exact ⟨groups, denials⟩
  · rw [one, two]
    exact ⟨groups, denials⟩
  · rw [one, two]
    exact ⟨groups, denials⟩

/-- Related tokens lead equally far. -/
theorem Progress.Related.after
    {left right : Progress}
    (same : left.Related related right)
    {token other : Token}
    (tokens : related token other) :
    (left.after token).Related related (right.after other) :=
  ⟨same.nesting.after resembles tokens, Expected.after_congr (resembles.sense tokens)⟩

theorem Nesting.Related.obstacleToBeginning?
    {left right : Nesting}
    (same : left.Related related right)
    (mayDeny : Bool)
    {found other : Option Token}
    (tokens : Option.Rel related found other) :
    Option.Rel (ObstaclesRelated vocabulary related)
      (left.obstacleToBeginning? vocabulary limit mayDeny found)
      (right.obstacleToBeginning? vocabulary limit mayDeny other) := by
  cases tokens with
  | none => exact .some (.missingOperand .none)
  | @some token other tokens =>
      have sense := resembles.sense tokens
      have known := resembles.known tokens
      have opening := terminal_eq_iff sense .leftParen (by decide)
      have denial := terminal_eq_iff sense .negation (by decide)
      simp only [Nesting.obstacleToBeginning?, Terminal.isOperand_congr sense, opening, denial,
        same.depth_eq]
      split
      · cases read : Operand.ofToken vocabulary token <;>
          cases readOther : Operand.ofToken vocabulary other <;>
          rw [read, readOther] at known
        · exact .some (.operand tokens read readOther)
        · cases known
        · cases known
        · exact .none
      · split
        · split
          · exact .none
          · exact .some (.nestingTooDeep tokens)
        · exact .some (.missingOperand (.some tokens))

theorem Nesting.Related.obstacleToContinuing?
    {left right : Nesting}
    (same : left.Related related right)
    {found other : Option Token}
    (tokens : Option.Rel related found other) :
    Option.Rel (ObstaclesRelated vocabulary related)
      (left.obstacleToContinuing? found)
      (right.obstacleToContinuing? other) := by
  unfold Nesting.obstacleToContinuing?
  cases tokens with
  | none =>
      obtain ⟨left, right⟩ | ⟨one, outer, other, others, left, right, openings, _⟩ :=
        same.groups_cases
      · rw [left, right]
        exact .none
      · rw [left, right]
        exact .some (.unclosedGroup openings .none)
  | @some token other tokens =>
      have sense := resembles.sense tokens
      have closing := terminal_eq_iff sense .rightParen (by decide)
      simp only [joined?_congr sense, closing]
      split
      · exact .none
      · obtain ⟨left, right⟩ | ⟨one, outer, other, others, left, right, openings, _⟩ :=
          same.groups_cases
        · rw [left, right]
          exact .some (.trailingInput tokens)
        · rw [left, right]
          simp only
          split
          · exact .none
          · exact .some (.unclosedGroup openings (.some tokens))

/-- Where rules have come equally far, related tokens are obstacles of one kind or are none. -/
theorem Progress.Related.obstacle?
    {left right : Progress}
    (same : left.Related related right)
    {found other : Option Token}
    (tokens : Option.Rel related found other) :
    Option.Rel (ObstaclesRelated vocabulary related)
      (left.obstacle? vocabulary limit found)
      (right.obstacle? vocabulary limit other) := by
  unfold Progress.obstacle?
  rw [same.expected]
  cases right.expected with
  | beginning mayDeny => exact same.nesting.obstacleToBeginning? resembles mayDeny tokens
  | continuation => exact same.nesting.obstacleToContinuing? resembles tokens

/-- Rules of related tokens have first obstacles of one kind, or have none. -/
theorem Progress.Related.firstObstacle?
    {left right : Progress}
    (same : left.Related related right)
    {tokens others : List Token}
    (pairs : tokens.Forall₂ related others) :
    Option.Rel (ObstaclesRelated vocabulary related)
      (left.firstObstacle? vocabulary limit tokens)
      (right.firstObstacle? vocabulary limit others) := by
  induction pairs generalizing left right with
  | nil => exact same.obstacle? resembles .none
  | @cons token other tokens others head _ inductionHypothesis =>
      have first : Option.Rel (ObstaclesRelated vocabulary related)
          (left.obstacle? vocabulary limit (some token))
          (right.obstacle? vocabulary limit (some other)) :=
        same.obstacle? resembles (.some head)
      rw [Progress.firstObstacle?, Progress.firstObstacle?]
      cases one : left.obstacle? vocabulary limit (some token) <;>
        cases two : right.obstacle? vocabulary limit (some other) <;> rw [one, two] at first
      · exact inductionHypothesis (same.after resembles head)
      · cases first
      · cases first
      · exact first

end Related

end Grammar
end DecisionRules
