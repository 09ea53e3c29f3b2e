import DecisionRules.Proofs.Grammar.Nesting
import DecisionRules.Proofs.Grammar.RuleText

/-!
# Reading from left to right

How far a rule has come after some tokens is known from the levels of nesting that are open and
from what has to stand next: something that begins with an operand, or something that goes on after
one.  One token decides whether a rule can go on with it.  The first token with which it cannot is
the obstacle that the productions of the grammar meet, whatever production they are in, and where
there is no such token they succeed.

The productions are shown to follow the tokens in this way one after another: by induction on the
room for deeper levels, and in each run on the number of tokens.
-/

namespace DecisionRules
namespace Grammar

/-- What has to stand next in a rule. -/
inductive Expected
  /-- An operand or an opening parenthesis, or `not` where a condition may stand. -/
  | beginning (mayDeny : Bool)
  /-- An operator, a closing parenthesis or the end of the rule. -/
  | continuation
  deriving DecidableEq

/-- What has to stand after a token. -/
def Expected.after : Terminal → Expected
  | .leftParen | .negation | .conjunction | .disjunction => .beginning true
  | .star | .slash | .plus | .minus | .less | .lessEqual | .greater | .greaterEqual | .equal
  | .equalEqual | .bangEqual => .beginning false
  | _ => .continuation

/-- How far a rule has come. -/
structure Progress where
  /-- The levels that are open. -/
  nesting : Nesting
  /-- What has to stand next. -/
  expected : Expected
  deriving DecidableEq

/-- The obstacle that something is where a phrase has to begin.  Nothing means the end of the
rule. -/
def Nesting.obstacleToBeginning?
    (vocabulary : Vocabulary)
    (limit : Nat)
    (nesting : Nesting)
    (mayDeny : Bool) :
    Option Token → Option Obstacle
  | none => some (.missingOperand none)
  | some token =>
    if token.terminal.isOperand then
      match Operand.ofToken vocabulary token with
      | .error error => some (.operand error)
      | .ok _ => none
    else if token.terminal = .leftParen ∨ token.terminal = .negation ∧ mayDeny = true then
      if nesting.depth < limit then none else some (.nestingTooDeep token)
    else some (.missingOperand (some token))

/-- The obstacle that something is where a phrase goes on or ends. -/
def Nesting.obstacleToContinuing? (nesting : Nesting) (found : Option Token) : Option Obstacle :=
  match found, nesting.groups with
  | none, [] => none
  | none, group :: _ => some (.unclosedGroup group.1 none)
  | some token, groups =>
    if (joined? token.terminal).isSome then none
    else
      match groups with
      | [] => some (.trailingInput token)
      | group :: _ =>
        if token.terminal = .rightParen then none else some (.unclosedGroup group.1 (some token))

namespace Progress

/-- Nothing of a rule has been read. -/
def start : Progress := ⟨.start, .beginning true⟩

/-- How far a rule has come after one more token. -/
def after (progress : Progress) (token : Token) : Progress :=
  ⟨progress.nesting.after token, .after token.terminal⟩

/-- How far a rule has come after some more tokens. -/
def afterAll (progress : Progress) (tokens : List Token) : Progress :=
  tokens.foldl after progress

theorem nesting_afterAll (progress : Progress) (tokens : List Token) :
    (progress.afterAll tokens).nesting = progress.nesting.afterAll tokens := by
  induction tokens generalizing progress with
  | nil => rfl
  | cons token tokens inductionHypothesis => exact inductionHypothesis (progress.after token)

/-- The obstacle to going on with a token, or to ending the rule. -/
def obstacle?
    (vocabulary : Vocabulary)
    (limit : Nat)
    (progress : Progress)
    (found : Option Token) :
    Option Obstacle :=
  match progress.expected with
  | .beginning mayDeny => progress.nesting.obstacleToBeginning? vocabulary limit mayDeny found
  | .continuation => progress.nesting.obstacleToContinuing? found

/-- The first obstacle among the tokens of a rule and its end. -/
def firstObstacle?
    (vocabulary : Vocabulary)
    (limit : Nat)
    (progress : Progress) :
    List Token → Option Obstacle
  | [] => progress.obstacle? vocabulary limit none
  | token :: rest =>
    match progress.obstacle? vocabulary limit (some token) with
    | some obstacle => some obstacle
    | none => firstObstacle? vocabulary limit (progress.after token) rest

/-- What an obstacle is about: the token with which a rule cannot go on, or the end of the rule, and
a parenthesis that is open there. -/
inductive Meets
    (vocabulary : Vocabulary)
    (limit : Nat)
    (progress : Progress) :
    Option Token → Obstacle → Prop
  /-- The token is an operand that cannot be read. -/
  | unreadable
      {token : Token}
      {error : RuleError}
      (isOperand : token.terminal.isOperand = true)
      (read : Operand.ofToken vocabulary token = .error error) :
      Meets vocabulary limit progress (some token) (.operand error)
  /-- No operand begins there. -/
  | missing
      (found : Option Token) :
      Meets vocabulary limit progress found (.missingOperand found)
  /-- The innermost group is not closed there. -/
  | unclosed
      {group : Token × Nat}
      {outer : List (Token × Nat)}
      (found : Option Token)
      (inside : progress.nesting.groups = group :: outer) :
      Meets vocabulary limit progress found (.unclosedGroup group.1 found)
  /-- The token opens a level for which there is no room. -/
  | tooDeep
      {token : Token}
      (opens : token.terminal = .leftParen ∨ token.terminal = .negation)
      (full : ¬ progress.nesting.depth < limit) :
      Meets vocabulary limit progress (some token) (.nestingTooDeep token)
  /-- The token follows a complete rule. -/
  | trailing
      (token : Token)
      (outside : progress.nesting.groups = []) :
      Meets vocabulary limit progress (some token) (.trailingInput token)

section Obstacles

variable
  {vocabulary : Vocabulary}
  {limit : Nat}
  {progress : Progress}
  {token : Token}
  {rest : List Token}

/-- An obstacle is about what has been found. -/
theorem meets_of_obstacle?
    {found : Option Token}
    {obstacle : Obstacle}
    (stuck : progress.obstacle? vocabulary limit found = some obstacle) :
    progress.Meets vocabulary limit found obstacle := by
  obtain ⟨nesting, expected⟩ := progress
  cases expected with
  | beginning mayDeny =>
      cases found with
      | none =>
          cases stuck
          exact .missing none
      | some token =>
          simp only [obstacle?, Nesting.obstacleToBeginning?] at stuck
          split at stuck
          next isOperand =>
            split at stuck <;> cases stuck
            next read => exact .unreadable isOperand read
          next =>
            split at stuck
            next opens =>
              split at stuck <;> cases stuck
              next full => exact .tooDeep (opens.imp_right And.left) full
            next =>
              cases stuck
              exact .missing (some token)
  | continuation =>
      obtain ⟨groups, denials⟩ := nesting
      cases found with
      | none =>
          cases groups <;> cases stuck
          exact .unclosed none rfl
      | some token =>
          cases groups with
          | nil =>
              simp only [obstacle?, Nesting.obstacleToContinuing?] at stuck
              split at stuck <;> cases stuck
              exact .trailing token rfl
          | cons group outer =>
              simp only [obstacle?, Nesting.obstacleToContinuing?] at stuck
              split at stuck
              · cases stuck
              · split at stuck <;> cases stuck
                exact .unclosed (some token) rfl

theorem firstObstacle?_of_some
    {obstacle : Obstacle}
    (stuck : progress.obstacle? vocabulary limit (some token) = some obstacle) :
    progress.firstObstacle? vocabulary limit (token :: rest) = some obstacle := by
  rw [firstObstacle?, stuck]

theorem firstObstacle?_of_none
    (passes : progress.obstacle? vocabulary limit (some token) = none) :
    progress.firstObstacle? vocabulary limit (token :: rest) =
      (progress.after token).firstObstacle? vocabulary limit rest := by
  rw [firstObstacle?, passes]

end Obstacles

end Progress

/-! ## The productions -/

open Progress

section Beginning

variable
  {vocabulary : Vocabulary}
  {limit : Nat}
  {nesting : Nesting}
  {mayDeny : Bool}
  {token : Token}
  {rest : List Token}

/-- An operand that can be read is passed. -/
theorem firstObstacle?_operand
    {operand : Operand}
    (isOperand : token.terminal.isOperand = true)
    (read : Operand.ofToken vocabulary token = .ok operand) :
    firstObstacle? vocabulary limit ⟨nesting, .beginning mayDeny⟩ (token :: rest) =
      firstObstacle? vocabulary limit ⟨nesting, .continuation⟩ rest := by
  have next : Expected.after token.terminal = .continuation := by
    cases terminal : token.terminal <;> simp_all [Terminal.isOperand, Expected.after]
  rw [firstObstacle?_of_none, Progress.after, next, Nesting.after_operand isOperand]
  simp only [obstacle?, Nesting.obstacleToBeginning?, isOperand, if_true, read]

/-- An operand that cannot be read is an obstacle. -/
theorem firstObstacle?_unreadable
    {error : RuleError}
    (isOperand : token.terminal.isOperand = true)
    (read : Operand.ofToken vocabulary token = .error error) :
    firstObstacle? vocabulary limit ⟨nesting, .beginning mayDeny⟩ (token :: rest) =
      some (.operand error) := by
  apply firstObstacle?_of_some
  simp only [obstacle?, Nesting.obstacleToBeginning?, isOperand, if_true, read]

/-- A level is opened where there is room for it. -/
theorem firstObstacle?_opening
    (opens : token.terminal = .leftParen ∨ token.terminal = .negation ∧ mayDeny = true)
    (room : nesting.depth < limit) :
    firstObstacle? vocabulary limit ⟨nesting, .beginning mayDeny⟩ (token :: rest) =
      firstObstacle? vocabulary limit ⟨nesting.after token, .beginning true⟩ rest := by
  have sign : token.terminal.isOperand = false ∧
      Expected.after token.terminal = .beginning true := by
    obtain opens | ⟨denies, _⟩ := opens
    · rw [opens]
      exact ⟨rfl, rfl⟩
    · rw [denies]
      exact ⟨rfl, rfl⟩
  rw [firstObstacle?_of_none, Progress.after, sign.2]
  simp [obstacle?, Nesting.obstacleToBeginning?, sign.1, opens, room]

/-- No level is opened beyond the limit. -/
theorem firstObstacle?_tooDeep
    (opens : token.terminal = .leftParen ∨ token.terminal = .negation ∧ mayDeny = true)
    (full : ¬ nesting.depth < limit) :
    firstObstacle? vocabulary limit ⟨nesting, .beginning mayDeny⟩ (token :: rest) =
      some (.nestingTooDeep token) := by
  have sign : token.terminal.isOperand = false := by
    obtain opens | ⟨denies, _⟩ := opens
    · rw [opens]
      rfl
    · rw [denies]
      rfl
  apply firstObstacle?_of_some
  simp [obstacle?, Nesting.obstacleToBeginning?, sign, opens, full]

/-- Whatever else stands where a phrase has to begin is an obstacle. -/
theorem firstObstacle?_missing
    (noOperand : token.terminal.isOperand = false)
    (noOpening : ¬ (token.terminal = .leftParen ∨ token.terminal = .negation ∧ mayDeny = true)) :
    firstObstacle? vocabulary limit ⟨nesting, .beginning mayDeny⟩ (token :: rest) =
      some (.missingOperand (some token)) := by
  apply firstObstacle?_of_some
  simp [obstacle?, Nesting.obstacleToBeginning?, noOperand, noOpening]

/-- Where no denial stands, none need be allowed. -/
theorem firstObstacle?_affirmed
    {tokens : List Token}
    (affirms : ∀ token ∈ tokens.head?, token.terminal ≠ .negation) :
    firstObstacle? vocabulary limit ⟨nesting, .beginning true⟩ tokens =
      firstObstacle? vocabulary limit ⟨nesting, .beginning false⟩ tokens := by
  cases tokens with
  | nil => rfl
  | cons token rest =>
      have different : token.terminal ≠ .negation := affirms token rfl
      have same : obstacle? vocabulary limit ⟨nesting, .beginning true⟩ (some token) =
          obstacle? vocabulary limit ⟨nesting, .beginning false⟩ (some token) := by
        simp only [obstacle?, Nesting.obstacleToBeginning?, different, false_and]
      rw [firstObstacle?, firstObstacle?, same]
      rfl

end Beginning

section Continuation

variable
  {vocabulary : Vocabulary}
  {limit : Nat}
  {nesting : Nesting}
  {token : Token}
  {rest : List Token}

/-- An operator is passed, and its operand has to follow. -/
theorem firstObstacle?_sign {level : Level} (joins : level.Joins token.terminal) :
    firstObstacle? vocabulary limit ⟨nesting, .continuation⟩ (token :: rest) =
      firstObstacle? vocabulary limit
        ⟨nesting.after token, .beginning level.operand.denies⟩ rest := by
  rw [Level.joins_iff] at joins
  have next : Expected.after token.terminal = .beginning level.operand.denies := by
    cases terminal : token.terminal <;> cases level <;>
      simp_all [joined?, Expected.after, Level.operand, Nonterminal.denies]
  rw [firstObstacle?_of_none, Progress.after, next]
  cases nesting.groups <;> simp [obstacle?, Nesting.obstacleToContinuing?, joins]

/-- A closing parenthesis is passed within parentheses. -/
theorem firstObstacle?_closing
    {group : Token × Nat}
    {outer : List (Token × Nat)}
    (closes : token.terminal = .rightParen)
    (inside : nesting.groups = group :: outer) :
    firstObstacle? vocabulary limit ⟨nesting, .continuation⟩ (token :: rest) =
      firstObstacle? vocabulary limit ⟨⟨outer, group.2⟩, .continuation⟩ rest := by
  have next : Expected.after token.terminal = .continuation := by
    rw [closes]
    rfl
  rw [firstObstacle?_of_none, Progress.after, next, Nesting.after_closing closes inside]
  simp [obstacle?, Nesting.obstacleToContinuing?, inside, closes, joined?]

/-- What stops a disjunction is no operator. -/
theorem joined?_eq_none_of_stops (stops : Stops (.run .disjunction) (token :: rest)) :
    joined? token.terminal = none := by
  rw [Option.eq_none_iff_forall_ne_some]
  intro level joined
  refine stops level ?_ token rfl ((level.joins_iff _).mpr joined)
  cases level <;> decide

/-- What stands where a disjunction stops is an obstacle if it does not close the group. -/
theorem firstObstacle?_unclosed
    {group : Token × Nat}
    {outer : List (Token × Nat)}
    (inside : nesting.groups = group :: outer)
    (stops : Stops (.run .disjunction) rest)
    (unclosed : ∀ token ∈ rest.head?, token.terminal ≠ .rightParen) :
    firstObstacle? vocabulary limit ⟨nesting, .continuation⟩ rest =
      some (.unclosedGroup group.1 rest.head?) := by
  cases rest with
  | nil => simp [firstObstacle?, obstacle?, Nesting.obstacleToContinuing?, inside]
  | cons token rest =>
      have different : token.terminal ≠ .rightParen := unclosed token rfl
      apply firstObstacle?_of_some
      simp [obstacle?, Nesting.obstacleToContinuing?, inside, different,
        joined?_eq_none_of_stops stops]

/-- Outside of all groups, a disjunction stops at the end or at an obstacle. -/
theorem firstObstacle?_trailing
    (outside : nesting.groups = [])
    (stops : Stops (.run .disjunction) rest) :
    firstObstacle? vocabulary limit ⟨nesting, .continuation⟩ rest =
      rest.head?.map .trailingInput := by
  cases rest with
  | nil => simp [firstObstacle?, obstacle?, Nesting.obstacleToContinuing?, outside]
  | cons token rest =>
      apply firstObstacle?_of_some
      simp [obstacle?, Nesting.obstacleToContinuing?, outside, joined?_eq_none_of_stops stops]

end Continuation

/-- The tokens that a production has taken have been passed, and the production stands where these
tokens lead.  An obstacle that it has met is the first one. -/
def Tracks
    (vocabulary : Vocabulary)
    (limit : Nat)
    (symbol : Nonterminal)
    (nesting : Nesting)
    (tokens : List Token)
    (result : Except Obstacle (α × List Token)) :
    Prop :=
  match result with
  | .error obstacle =>
    firstObstacle? vocabulary limit ⟨nesting, .beginning symbol.denies⟩ tokens = some obstacle
  | .ok (_, rest) =>
    Stops symbol rest ∧
      ∃ left,
        nesting.Leaves symbol left ∧
          firstObstacle? vocabulary limit ⟨nesting, .beginning symbol.denies⟩ tokens =
            firstObstacle? vocabulary limit ⟨left, .continuation⟩ rest

/-- A production for which there is room up to the limit tracks its tokens. -/
def Follows
    (vocabulary : Vocabulary)
    (limit room : Nat)
    (symbol : Nonterminal) :
    Prop :=
  ∀ (nesting : Nesting) (tokens : List Token),
    nesting.depth + room = limit →
    nesting.Fits symbol →
    Tracks vocabulary limit symbol nesting tokens
      ((production vocabulary room symbol).result tokens)

section Follows

variable {vocabulary : Vocabulary} {limit room : Nat}

theorem Tracks.map
    {symbol : Nonterminal}
    {nesting : Nesting}
    {tokens : List Token}
    {result : Except Obstacle (α × List Token)}
    (tracks : Tracks vocabulary limit symbol nesting tokens result)
    (form : α → β) :
    Tracks vocabulary limit symbol nesting tokens
      (result.map fun read => (form read.1, read.2)) := by
  cases result with
  | error obstacle => exact tracks
  | ok read => exact tracks

/-- A group follows the deeper disjunction in it, up to the parenthesis that closes it. -/
theorem tracks_group
    {lower : Nat}
    {nesting : Nesting}
    {token : Token}
    {rest : List Token}
    (deeper : Follows vocabulary limit lower (.run .disjunction))
    (total : nesting.depth + (lower + 1) = limit)
    (opens : token.terminal = .leftParen) :
    Tracks vocabulary limit .primary nesting (token :: rest)
      ((production vocabulary (lower + 1) .primary).result (token :: rest)) := by
  have noOperand : ¬ token.terminal.isOperand = true := by
    rw [opens]
    decide
  have depth := nesting.depth_after_of_opens (.inl opens)
  have inside := nesting.after_opening opens
  have inner := deeper (nesting.after token) rest (by omega)
    (Nesting.fits_of_denials_eq_zero _ (by rw [inside]))
  have entered : firstObstacle? vocabulary limit
      ⟨nesting, .beginning Nonterminal.primary.denies⟩ (token :: rest) =
      firstObstacle? vocabulary limit ⟨nesting.after token, .beginning true⟩ rest :=
    firstObstacle?_opening (.inl opens) (by omega)
  rw [result_primary_cons, if_neg noOperand, if_pos opens]
  simp only
  cases found : (production vocabulary lower (.run .disjunction)).result rest with
  | error obstacle =>
      rw [found] at inner
      exact entered.trans inner
  | ok read =>
      obtain ⟨tree, remaining⟩ := read
      rw [found] at inner
      obtain ⟨stops, left, leaves, same⟩ := inner
      have groups : left.groups = (token, nesting.denials) :: nesting.groups := by
        rw [leaves.groups, inside]
      have reached := entered.trans same
      cases remaining with
      | nil => exact reached.trans (firstObstacle?_unclosed groups stops (by simp))
      | cons closing remaining =>
          by_cases closes : closing.terminal = .rightParen
          · simp only [closes, if_true]
            exact ⟨by simp [Stops, Nonterminal.levels], nesting, nesting.leaves_refl _,
              reached.trans (firstObstacle?_closing closes groups)⟩
          · simp only [closes, if_false]
            exact reached.trans (firstObstacle?_unclosed groups stops (by simpa using closes))

/-- A primary follows an operand or a group of a deeper disjunction. -/
theorem follows_primary
    (deeper : ∀ lower < room, Follows vocabulary limit lower (.run .disjunction)) :
    Follows vocabulary limit room .primary := by
  intro nesting tokens total _
  cases tokens with
  | nil => exact rfl
  | cons token rest =>
      by_cases opens : token.terminal = .leftParen
      · cases room with
        | zero =>
            rw [result_primary_cons, if_neg (by rw [opens]; decide), if_pos opens]
            exact firstObstacle?_tooDeep (.inl opens) (by omega)
        | succ lower => exact tracks_group (deeper lower (Nat.lt_succ_self _)) total opens
      rw [result_primary_cons]
      by_cases isOperand : token.terminal.isOperand = true
      · rw [if_pos isOperand]
        cases read : Operand.ofToken vocabulary token with
        | error error => exact firstObstacle?_unreadable isOperand read
        | ok operand =>
            exact ⟨by simp [Stops, Nonterminal.levels], nesting, nesting.leaves_refl _,
              firstObstacle?_operand isOperand read⟩
      · rw [if_neg isOperand, if_neg opens]
        exact firstObstacle?_missing (by simpa using isOperand)
          (by simp [opens, Nonterminal.denies])

/-- A denial follows the deeper condition that it denies. -/
theorem tracks_denial
    {lower : Nat}
    {nesting : Nesting}
    {sign : Token}
    {rest : List Token}
    (deeper : Follows vocabulary limit lower .condition)
    (total : nesting.depth + (lower + 1) = limit)
    (denies : sign.terminal = .negation) :
    Tracks vocabulary limit .condition nesting (sign :: rest)
      ((production vocabulary (lower + 1) .condition).result (sign :: rest)) := by
  have depth := nesting.depth_after_of_opens (.inr denies)
  have tracks := deeper (nesting.after sign) rest (by omega) trivial
  have groups : (nesting.after sign).groups = nesting.groups := by
    rw [nesting.after_denial denies]
  have entered : firstObstacle? vocabulary limit
      ⟨nesting, .beginning Nonterminal.condition.denies⟩ (sign :: rest) =
      firstObstacle? vocabulary limit ⟨nesting.after sign, .beginning true⟩ rest :=
    firstObstacle?_opening (.inr ⟨denies, rfl⟩) (by omega)
  rw [result_condition_denial vocabulary _ _ denies]
  simp only
  cases found : (production vocabulary lower .condition).result rest with
  | error obstacle =>
      rw [found] at tracks
      exact entered.trans tracks
  | ok read =>
      rw [found] at tracks
      obtain ⟨stops, left, leaves, passed⟩ := tracks
      exact ⟨stops, left, ⟨leaves.groups.trans groups, fun affirms => absurd affirms (by decide)⟩,
        entered.trans passed⟩

/-- A condition follows a comparison or a denied deeper condition. -/
theorem follows_condition
    (deeper : ∀ lower < room, Follows vocabulary limit lower .condition)
    (comparison : Follows vocabulary limit room (.run .comparison)) :
    Follows vocabulary limit room .condition := by
  intro nesting tokens total _
  by_cases affirms : ∀ token ∈ tokens.head?, token.terminal ≠ .negation
  · have tracks := comparison nesting tokens total
      fun connects => absurd connects (by decide)
    rw [result_condition_plain vocabulary room affirms]
    have same : firstObstacle? vocabulary limit
        ⟨nesting, .beginning Nonterminal.condition.denies⟩ tokens = _ :=
      firstObstacle?_affirmed affirms
    cases found : (production vocabulary room (.run .comparison)).result tokens with
    | error obstacle =>
        rw [found] at tracks
        exact same.trans tracks
    | ok read =>
        rw [found] at tracks
        obtain ⟨stops, left, leaves, passed⟩ := tracks
        exact ⟨stops, left, ⟨leaves.groups, fun affirms => absurd affirms (by decide)⟩,
          same.trans passed⟩
  · cases tokens with
    | nil => simp at affirms
    | cons sign rest =>
        have denies : sign.terminal = .negation := by simpa using affirms
        cases room with
        | zero =>
            rw [result_condition_denial vocabulary _ _ denies]
            exact firstObstacle?_tooDeep (.inr ⟨denies, rfl⟩) (by omega)
        | succ lower => exact tracks_denial (deeper lower (Nat.lt_succ_self _)) total denies

/-- A run follows its operands and the operators between them. -/
theorem tracks_read
    {level : Level}
    (operand : Follows vocabulary limit room level.operand)
    (nesting : Nesting)
    (tokens : List Token)
    (total : nesting.depth + room = limit)
    (fits : nesting.Fits (.run level)) :
    Tracks vocabulary limit (.run level) nesting tokens
      (Production.result
        (Run.read level.operator? (production vocabulary room level.operand)) tokens) := by
  have tracks := operand nesting tokens total fits.operand
  unfold Tracks at tracks ⊢
  rw [level.denies_operand] at tracks
  rw [Run.result_read]
  match found : (production vocabulary room level.operand).result tokens with
  | .error obstacle =>
      rw [found] at tracks
      exact tracks
  | .ok (first, []) =>
      rw [found] at tracks
      obtain ⟨_, left, leaves, passed⟩ := tracks
      exact ⟨stops_nil _, left, leaves.run, passed⟩
  | .ok (first, sign :: rest) =>
      rw [found] at tracks
      obtain ⟨stops, left, leaves, passed⟩ := tracks
      cases joins : level.operator? sign.terminal with
      | none =>
          simp only [joins]
          refine ⟨?_, left, leaves.run, passed⟩
          intro looser member token head
          rw [Nonterminal.levels_run, List.mem_cons] at member
          obtain rfl | member := member
          · cases head
            rintro ⟨operator, spelled⟩
            rw [(looser.operator?_eq_some_iff _ _).mpr spelled] at joins
            cases joins
          · exact stops looser member token head
      | some operator =>
          have joinsLevel : level.Joins sign.terminal :=
            ⟨operator, (level.operator?_eq_some_iff _ _).mp joins⟩
          have fewer : rest.length < tokens.length :=
            Nat.lt_trans (Nat.lt_succ_self _) (Production.length_lt found)
          have later := (tracks_read operand nesting rest total fits).map
            (Run.cons first operator)
          have goesOn := passed.trans (firstObstacle?_sign joinsLevel)
          rw [leaves.after_sign fits joinsLevel, level.denies_operand] at goesOn
          simp only [joins]
          unfold Tracks at later
          rwa [← goesOn] at later
termination_by tokens.length

theorem follows_run
    {level : Level}
    (operand : Follows vocabulary limit room level.operand) :
    Follows vocabulary limit room (.run level) := by
  intro nesting tokens total fits
  rw [result_run]
  exact (tracks_read operand nesting tokens total fits).map level.form

/-- Every production follows its tokens. -/
theorem follows (room : Nat) (symbol : Nonterminal) : Follows vocabulary limit room symbol := by
  induction room using Nat.strongRecOn generalizing symbol with
  | ind room deeper =>
      have primary : Follows vocabulary limit room .primary :=
        follows_primary fun lower less => deeper lower less _
      have product : Follows vocabulary limit room (.run .product) := follows_run primary
      have sum : Follows vocabulary limit room (.run .sum) := follows_run product
      have comparison : Follows vocabulary limit room (.run .comparison) := follows_run sum
      have condition : Follows vocabulary limit room .condition :=
        follows_condition (fun lower less => deeper lower less _) comparison
      have conjunction : Follows vocabulary limit room (.run .conjunction) := follows_run condition
      have disjunction : Follows vocabulary limit room (.run .disjunction) :=
        follows_run conjunction
      cases symbol with
      | primary => exact primary
      | condition => exact condition
      | run level => cases level <;> assumption

end Follows

end Grammar

namespace Expr

open Grammar Progress

/-- Tokens are not read as a rule exactly when there is an obstacle among them or at their end, and
reading meets the first one. -/
theorem ofTokens_eq_error_iff
    {vocabulary : Vocabulary}
    {maxDepth : Nat}
    {tokens : List Token}
    {obstacle : Obstacle} :
    ofTokens vocabulary maxDepth tokens = .error obstacle ↔
      Progress.start.firstObstacle? vocabulary maxDepth tokens = some obstacle := by
  have tracks : Tracks vocabulary maxDepth (.run .disjunction) .start tokens _ :=
    follows maxDepth (.run .disjunction) .start tokens (Nat.zero_add maxDepth) fun _ => rfl
  unfold Tracks at tracks
  rw [ofTokens_eq]
  match found : (production vocabulary maxDepth (.run .disjunction)).result tokens with
  | .error first =>
      rw [found] at tracks
      have stuck : Progress.start.firstObstacle? vocabulary maxDepth tokens = some first := tracks
      simp [stuck]
  | .ok (tree, remaining) =>
      rw [found] at tracks
      obtain ⟨stops, left, leaves, passed⟩ := tracks
      have stuck : Progress.start.firstObstacle? vocabulary maxDepth tokens =
          remaining.head?.map .trailingInput :=
        passed.trans (firstObstacle?_trailing leaves.groups stops)
      cases remaining <;> simp [stuck]

/-- Tokens are read as a rule exactly when there is no obstacle among them or at their end. -/
theorem exists_ofTokens_eq_ok_iff
    {vocabulary : Vocabulary}
    {maxDepth : Nat}
    {tokens : List Token} :
    (∃ tree, ofTokens vocabulary maxDepth tokens = .ok tree) ↔
      Progress.start.firstObstacle? vocabulary maxDepth tokens = none := by
  rw [Option.eq_none_iff_forall_ne_some]
  simp only [Ne, ← ofTokens_eq_error_iff]
  cases ofTokens vocabulary maxDepth tokens <;> simp

end Expr
end DecisionRules
