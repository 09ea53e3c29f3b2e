import DecisionRules.Proofs.Grammar.Progress

/-!
# The limit of nesting

The limit of nesting has one effect only.  A rule that can be read at some limit is read as the same
tree at every limit that its tree allows.  At a lower limit it fails at the first parenthesis or
denial that opens a level beyond the limit, for up to there reading goes on as without a limit.  A
text that cannot be read for another reason fails for that reason wherever it does not fail at such
a token.

The levels of tokens are the groups and denials that the tokens of a phrase lie in, so that the
places of a phrase are within a limit when the nesting of its tree is.
-/

namespace DecisionRules
namespace Expr

mutual

/-- The largest number of groups and negations on a path from the root of a tree to a leaf. -/
def nesting : Expr → Nat
  | .leaf _ _ => 0
  | .group inner _ => inner.nesting + 1
  | .negation inner _ => inner.nesting + 1
  | .logical _ operands => nestingAll operands
  | .comparison operands _ => nestingAll operands
  | .arithmetic operands _ => nestingAll operands

/-- The largest number of groups and negations on a path from the root of one of several trees. -/
def nestingAll : List Expr → Nat
  | [] => 0
  | first :: rest => max first.nesting (nestingAll rest)

end

end Expr

namespace Grammar

/-! ## Phrases -/

/-- A run is nested as deep as the deepest of its operands. -/
theorem Level.nesting_node
    (level : Level)
    (first : Expr)
    (later : List Expr)
    (operators : List level.Operator) :
    (level.node first later operators).nesting = max first.nesting (Expr.nestingAll later) := by
  cases later with
  | nil => cases level <;> exact (Nat.max_zero _).symm
  | cons second later => cases level <;> rfl

mutual

/-- The places of a phrase are within a limit when the nesting of its tree is. -/
theorem Phrase.places_le_iff {symbol : Nonterminal} (vocabulary : Vocabulary) (limit : Nat) :
    (phrase : Phrase symbol) →
    (depth : Nat) →
    ((∀ place ∈ phrase.places depth, place.2 ≤ limit) ↔
      depth + (phrase.tree vocabulary).nesting ≤ limit)
  | .operand token isOperand, depth => by
      simp [Phrase.places, Phrase.tree, Expr.nesting]
  | .group opening opens inner closing closes, depth => by
      have within := inner.places_le_iff vocabulary limit (depth + 1)
      rw [Phrase.places, List.forall_mem_cons, List.forall_mem_append, List.forall_mem_singleton,
        within, Phrase.tree, Expr.nesting]
      simp only
      omega
  | .denial sign denies inner, depth => by
      have within := inner.places_le_iff vocabulary limit (depth + 1)
      rw [Phrase.places, List.forall_mem_cons, within, Phrase.tree, Expr.nesting]
      simp only
      omega
  | .plain inner, depth => inner.places_le_iff vocabulary limit depth
  | .run first later, depth => by
      have within := first.places_le_iff vocabulary limit depth
      rw [Phrase.places, List.forall_mem_append, within, Phrase.tree, Level.nesting_node]
      constructor
      · rintro ⟨withinFirst, withinLater⟩
        have withinTrees :=
          (later.places_le_iff vocabulary limit depth (by omega)).mp withinLater
        omega
      · intro withinBoth
        exact ⟨by omega, (later.places_le_iff vocabulary limit depth (by omega)).mpr (by omega)⟩

theorem Later.places_le_iff {level : Level} (vocabulary : Vocabulary) (limit : Nat) :
    (later : Later level) →
    (depth : Nat) →
    depth ≤ limit →
    ((∀ place ∈ later.places depth, place.2 ≤ limit) ↔
      depth + Expr.nestingAll (later.trees vocabulary) ≤ limit)
  | .done, depth, inside => by
      simpa [Later.places, Later.trees, Expr.nestingAll] using inside
  | .more sign operator spelled operand rest, depth, inside => by
      have within := operand.places_le_iff vocabulary limit depth
      have withinRest := rest.places_le_iff vocabulary limit depth inside
      rw [Later.places, List.forall_mem_cons, List.forall_mem_append, within, withinRest,
        Later.trees, Expr.nestingAll]
      simp only
      omega

end

/-! ## Obstacles at two limits -/

namespace Progress

variable {vocabulary : Vocabulary} {limit larger : Nat} {progress : Progress}

/-- A level is too deep only for a token that opens one where there is no room for it. -/
theorem of_obstacle?_eq_tooDeep
    {found : Option Token}
    {token : Token}
    (stuck : progress.obstacle? vocabulary limit found = some (.nestingTooDeep token)) :
    found = some token ∧ (token.terminal = .leftParen ∨ token.terminal = .negation) ∧
      ¬ progress.nesting.depth < limit := by
  cases meets_of_obstacle? stuck with
  | tooDeep opens full => exact ⟨rfl, opens, full⟩

/-- A level is opened only where there is room for it. -/
theorem depth_lt_of_passes
    {token : Token}
    (passes : progress.obstacle? vocabulary limit (some token) = none)
    (opens : token.terminal = .leftParen ∨ token.terminal = .negation) :
    progress.nesting.depth < limit := by
  have noOperand : token.terminal.isOperand = false ∧ joined? token.terminal = none ∧
      token.terminal ≠ .rightParen := by
    obtain opens | denies := opens
    · simp [opens, Terminal.isOperand, joined?]
    · simp [denies, Terminal.isOperand, joined?]
  unfold obstacle? Nesting.obstacleToBeginning? Nesting.obstacleToContinuing? at passes
  cases expected : progress.expected with
  | beginning mayDeny =>
      simp only [expected, noOperand.1] at passes
      by_contra full
      simp [full] at passes
      split at passes <;> cases passes
  | continuation =>
      simp only [expected, noOperand.2.1] at passes
      cases groups : progress.nesting.groups <;> simp [groups, noOperand.2.2] at passes

/-- At a larger limit there is the same obstacle or none, unless a level was too deep. -/
theorem obstacle?_eq_of_le
    (le : limit ≤ larger)
    {found : Option Token}
    (shallow : ∀ token, progress.obstacle? vocabulary limit found ≠ some (.nestingTooDeep token)) :
    progress.obstacle? vocabulary limit found = progress.obstacle? vocabulary larger found := by
  revert shallow
  unfold obstacle? Nesting.obstacleToBeginning?
  split
  · cases found with
    | none => exact fun _ => rfl
    | some token =>
        simp only
        split
        · exact fun _ => rfl
        · split
          · split
            next room =>
              intro _
              rw [if_pos (Nat.lt_of_lt_of_le room le)]
            next => exact fun shallow => absurd rfl (shallow token)
          · exact fun _ => rfl
  · exact fun _ => rfl

/-- Reading goes on at a lower limit as it does at a larger one, up to the first token that opens
a level beyond the lower limit. -/
theorem firstObstacle?_eq_or_tooDeep
    (vocabulary : Vocabulary)
    (progress : Progress)
    (le : limit ≤ larger)
    (tokens : List Token)
    (within : progress.nesting.depth ≤ limit) :
    progress.firstObstacle? vocabulary limit tokens =
        progress.firstObstacle? vocabulary larger tokens ∨
      ∃ token,
        progress.firstObstacle? vocabulary limit tokens = some (.nestingTooDeep token) ∧
          (progress.nesting.openings tokens).find? (fun opening => opening.2 = limit) =
            some (token, limit) := by
  induction tokens generalizing progress with
  | nil =>
      refine .inl (obstacle?_eq_of_le le fun token stuck => ?_)
      cases (of_obstacle?_eq_tooDeep stuck).1
  | cons token rest inductionHypothesis =>
      by_cases shallow : ∀ other,
          progress.obstacle? vocabulary limit (some token) ≠ some (.nestingTooDeep other)
      · have same := obstacle?_eq_of_le le shallow
        cases found : progress.obstacle? vocabulary limit (some token) with
        | some obstacle =>
            rw [firstObstacle?_of_some found, firstObstacle?_of_some (same.symm.trans found)]
            exact .inl rfl
        | none =>
            rw [firstObstacle?_of_none found, firstObstacle?_of_none (same.symm.trans found),
              Nesting.openings]
            by_cases opens : token.terminal = .leftParen ∨ token.terminal = .negation
            · have room := depth_lt_of_passes found opens
              have deeper := progress.nesting.depth_after_of_opens opens
              rw [if_pos opens, List.find?_cons_of_neg (by simpa using Nat.ne_of_lt room)]
              have withinAfter : (progress.after token).nesting.depth ≤ limit :=
                Nat.le_trans (Nat.le_of_eq deeper) room
              exact inductionHypothesis _ withinAfter
            · rw [if_neg opens]
              have withinAfter : (progress.after token).nesting.depth ≤ limit :=
                Nat.le_trans (progress.nesting.depth_after_le opens) within
              exact inductionHypothesis _ withinAfter
      · obtain ⟨other, stuck⟩ := not_forall_not.mp shallow
        obtain ⟨same, opens, full⟩ := of_obstacle?_eq_tooDeep stuck
        obtain rfl := Option.some.inj same
        have depth : progress.nesting.depth = limit := by omega
        refine .inr ⟨token, firstObstacle?_of_some stuck, ?_⟩
        rw [Nesting.openings, if_pos opens, List.find?_cons_of_pos (by simpa using depth), depth]

end Progress

end Grammar

namespace Expr

open Grammar

/-- A rule text fails at the first parenthesis or denial that opens a level beyond the limit.  The
error extends from there to the end of the text. -/
def NestedTooDeep (vocabulary : Vocabulary) (maxDepth : Nat) (source : String) : Prop :=
  ∃ tokens token,
    Tokens.scan source = .ok tokens ∧
      (Nesting.start.openings tokens.body).find? (fun opening => opening.2 = maxDepth) =
        some (token, maxDepth) ∧
      parse vocabulary maxDepth source =
        .error (Obstacle.malformed source tokens .nestingTooDeep
          ⟨token.span.start, Text.byteWidth source.toList⟩)

section Limit

variable {vocabulary : Vocabulary} {maxDepth larger : Nat} {source : String}

/-- Tokens that can be read at one limit and have the same first obstacle at another one are read
alike. -/
theorem ofTokens_eq_of_firstObstacle?_eq
    {tokens : List Token}
    (le : maxDepth ≤ larger)
    (same : Progress.start.firstObstacle? vocabulary maxDepth tokens =
      Progress.start.firstObstacle? vocabulary larger tokens) :
    ofTokens vocabulary larger tokens = ofTokens vocabulary maxDepth tokens := by
  cases read : ofTokens vocabulary maxDepth tokens with
  | error obstacle =>
      rw [ofTokens_eq_error_iff] at read ⊢
      exact same.symm.trans read
  | ok tree =>
      obtain ⟨phrase, spelled, made, readable⟩ := ofTokens_eq_ok_iff.mp read
      refine ofTokens_eq_ok_iff.mpr ⟨phrase, spelled, made, fun place member => ?_⟩
      obtain ⟨known, within⟩ := readable place member
      exact ⟨known, Nat.le_trans within le⟩

/-- Unless a rule text is nested too deep, it is read alike at every larger limit. -/
theorem parse_eq_of_le (vocabulary : Vocabulary) (source : String) (le : maxDepth ≤ larger) :
    parse vocabulary larger source = parse vocabulary maxDepth source ∨
      NestedTooDeep vocabulary maxDepth source := by
  cases scanned : Tokens.scan source with
  | error error => exact .inl (by rw [parse, parse, scanned])
  | ok tokens =>
      obtain same | ⟨token, stuck, first⟩ :=
        Progress.firstObstacle?_eq_or_tooDeep vocabulary .start le tokens.body (Nat.zero_le _)
      · refine .inl ?_
        simp only [parse, scanned, parseTokens]
        rw [ofTokens_eq_of_firstObstacle?_eq le same]
      · refine .inr ⟨tokens, token, scanned, first, ?_⟩
        simp only [parse, scanned, parseTokens]
        rw [ofTokens_eq_error_iff.mpr stuck]
        rfl

/-- No rule text is nested too deep where there is room for as many levels as it has tokens. -/
theorem not_nestedTooDeep
    (enough : ∀ tokens, Tokens.scan source = .ok tokens → tokens.body.length ≤ maxDepth) :
    ¬ NestedTooDeep vocabulary maxDepth source := by
  rintro ⟨tokens, token, scanned, first, _⟩
  have less := Nesting.lt_of_mem_openings _ (List.mem_of_find?_eq_some first)
  exact Nat.lt_irrefl _ (Nat.lt_of_lt_of_le less ((Nat.zero_add _).le.trans (enough _ scanned)))

/-- A rule text is read as a tree where it is read so at some limit and the tree is nested within
the limit, and only there. -/
theorem parse_eq_ok_iff_nesting_le
    {limit : Nat}
    {tree : Expr}
    (read : parse vocabulary limit source = .ok tree)
    (maxDepth : Nat) :
    parse vocabulary maxDepth source = .ok tree ↔ tree.nesting ≤ maxDepth := by
  obtain ⟨tokens, scanned⟩ := exists_scan_of_parse read
  obtain ⟨phrase, spelled, rfl, readable⟩ :=
    ofTokens_eq_ok_iff.mp ((parse_eq_ok_iff scanned).mp read)
  have known := ((readable_iff phrase limit).mp readable).1
  have places := phrase.places_le_iff vocabulary maxDepth 0
  rw [Nat.zero_add] at places
  rw [parse_eq_ok_iff scanned, ofTokens_eq_ok_iff, ← places]
  constructor
  · rintro ⟨other, spelledOther, _, readableOther⟩
    obtain rfl := Phrase.tokens_injective (spelledOther.trans spelled.symm)
    exact ((readable_iff other maxDepth).mp readableOther).2
  · intro within
    exact ⟨phrase, spelled, rfl, (readable_iff phrase maxDepth).mpr ⟨known, within⟩⟩

end Limit

/-- The levels around the tokens of a rule are the groups and negations that they lie in.  Where
there is room for as many levels as there are tokens, a text that is read as a tree is read so at
every limit that the nesting of the tree is within, and is nested too deep at every other one.  A
text with an error there has it at every limit at which it is not nested too deep.  And a text that
is not nested too deep at some limit is read alike at every larger one. -/
theorem parse_at_limit
    {vocabulary : Vocabulary}
    {limit : Nat}
    {source : String}
    (enough : ∀ tokens, Tokens.scan source = .ok tokens → tokens.body.length ≤ limit) :
    (∀ tree,
      parse vocabulary limit source = .ok tree →
        (∃ tokens,
          ∃ phrase : Phrase (.run .disjunction),
            Tokens.scan source = .ok tokens ∧
              phrase.tokens = tokens.body ∧
              phrase.tree vocabulary = tree ∧
              Nesting.start.openings tokens.body = openPlaces (phrase.places 0)) ∧
        ∀ maxDepth,
          (tree.nesting ≤ maxDepth → parse vocabulary maxDepth source = .ok tree) ∧
            (¬ tree.nesting ≤ maxDepth → NestedTooDeep vocabulary maxDepth source)) ∧
    (∀ error,
      parse vocabulary limit source = .error error →
        ∀ maxDepth,
          parse vocabulary maxDepth source = .error error ∨
            NestedTooDeep vocabulary maxDepth source) ∧
    ∀ maxDepth larger,
      maxDepth ≤ larger →
        ¬ NestedTooDeep vocabulary maxDepth source →
          parse vocabulary larger source = parse vocabulary maxDepth source := by
  have deepEnough : ¬ NestedTooDeep vocabulary limit source := not_nestedTooDeep enough
  refine ⟨fun tree read => ⟨?_, fun maxDepth => ?_⟩, fun error fails maxDepth => ?_, ?_⟩
  · obtain ⟨tokens, scanned⟩ := exists_scan_of_parse read
    obtain ⟨phrase, spelled, made, _⟩ :=
      ofTokens_eq_ok_iff.mp ((parse_eq_ok_iff scanned).mp read)
    refine ⟨tokens, phrase, scanned, spelled, made, ?_⟩
    rw [← spelled]
    exact (phrase.openings_tokens .start fun _ => rfl).1
  · have reads := parse_eq_ok_iff_nesting_le read maxDepth
    refine ⟨reads.mpr, fun deeper => ?_⟩
    have within := (parse_eq_ok_iff_nesting_le read limit).mp read
    obtain same | deep :=
      parse_eq_of_le vocabulary source (Nat.le_trans (Nat.le_of_not_le deeper) within)
    · exact absurd (reads.mp (same.symm.trans read)) deeper
    · exact deep
  · obtain le | le := Nat.le_total maxDepth limit
    · obtain same | deep := parse_eq_of_le vocabulary source le
      · exact .inl (same.symm.trans fails)
      · exact .inr deep
    · have same := (parse_eq_of_le vocabulary source le).resolve_right deepEnough
      exact .inl (same.trans fails)
  · intro maxDepth larger le shallow
    exact (parse_eq_of_le vocabulary source le).resolve_right shallow

/-- The rule `not (A < 1) and not B` has nine tokens and two levels: it is read alike with room for
two and for nine levels, and is nested too deep for one. -/
theorem parse_at_limit_of_denied_group :
    (∀ tokens, Tokens.scan "not (A < 1) and not B" = .ok tokens → tokens.body.length ≤ 9) ∧
      ∃ tree,
        parse .standard 9 "not (A < 1) and not B" = .ok tree ∧
          parse .standard 2 "not (A < 1) and not B" = .ok tree ∧
          NestedTooDeep .standard 1 "not (A < 1) and not B" := by
  have enough : ∀ tokens,
      Tokens.scan "not (A < 1) and not B" = .ok tokens → tokens.body.length ≤ 9 := by
    have count : (Tokens.scan "not (A < 1) and not B").map (·.body.length) = .ok 9 := by
      decide +kernel
    intro tokens scanned
    rw [scanned] at count
    exact Nat.le_of_eq (Except.ok.inj count)
  have levels : (parse .standard 9 "not (A < 1) and not B").map nesting = .ok 2 := by
    decide +kernel
  refine ⟨enough, ?_⟩
  cases read : parse .standard 9 "not (A < 1) and not B" with
  | error error =>
      rw [read] at levels
      cases levels
  | ok tree =>
      rw [read] at levels
      have two : tree.nesting = 2 := Except.ok.inj levels
      have atLimit := ((parse_at_limit enough).1 tree read).2
      exact ⟨tree, rfl, (atLimit 2).1 (by omega), (atLimit 1).2 (by omega)⟩

end Expr
end DecisionRules
