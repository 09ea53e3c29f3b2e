import DecisionRules.Proofs.Grammar.Standalone
import DecisionRules.Rule

/-!
# Composed rules

Rules can be composed by their texts: each text is put in parentheses, and one connective stands
between all of them.  Where the texts can be read, so can the composed text, one level deeper; its
tree joins the trees of the rules at their places in it, and its check settles the checks of the
rules one after another.

The texts of the groups and of what follows each of them are tiled on their own and put together.
No lexeme of a text goes on beyond it, as a parenthesis or a blank follows.
-/

namespace DecisionRules

/-! ## Composed texts -/

namespace Connective

/-- Joins the results of checks.  The first error or decisive check settles the result. -/
def settle (connective : Connective) : List (Except RuleError Bool) → Except RuleError Bool
  | [] => .ok !connective.decisive
  | .error error :: _ => .error error
  | .ok verdict :: rest =>
    if verdict = connective.decisive then .ok connective.decisive else connective.settle rest

/-- The tree of conditions with a connective between each two; a single condition is its own
tree. -/
def joined (connective : Connective) : List Expr → Expr
  | [single] => single
  | operands => .logical connective operands

end Connective

namespace Rule

/-- The text of rules in parentheses with a connective between each two. -/
def composition (connective : Connective) (sources : List String) : String :=
  String.intercalate (" " ++ connective.sign ++ " ")
    (sources.map fun source => "(" ++ source ++ ")")

/-- The rules of a composed text, each with the offset at which its parenthesis opens. -/
def placed (connective : Connective) (offset : Nat) : List Rule → List (Nat × Rule)
  | [] => []
  | rule :: rest =>
    let closed := offset + Text.byteWidth rule.source.toList + 2
    let next := closed + Text.byteWidth connective.sign.toList + 2
    (offset, rule) :: placed connective next rest

/-- The tree of a rule in parentheses that open at an offset. -/
def grouped (offset : Nat) (rule : Rule) : Expr :=
  .group (rule.tree.mapSpans (Span.shift (offset + 1)))
    ⟨offset, offset + Text.byteWidth rule.source.toList + 2⟩

/-- The check of a rule in parentheses that open at an offset. -/
def checkAt (context : Context) (offset : Nat) (rule : Rule) : Except RuleError Bool :=
  (rule.check context).mapError (RuleError.mapSpan (Span.shift (offset + 1)))

/-- The text of a rule in parentheses. -/
def groupText (source : String) : List Char :=
  '(' :: (source.toList ++ [')'])

/-- The text of the later rules of a composed text. -/
def laterText (connective : Connective) (sources : List String) : List Char :=
  sources.flatMap fun source => ' ' :: (connective.sign.toList ++ ' ' :: groupText source)

theorem toList_composition (connective : Connective) (first : String) (rest : List String) :
    (composition connective (first :: rest)).toList =
      groupText first ++ laterText connective rest := by
  induction rest generalizing first with
  | nil => simp [composition, groupText, laterText]
  | cons second rest inductionHypothesis =>
      have later := inductionHypothesis second
      rw [composition, List.map_cons] at later ⊢
      rw [List.map_cons, String.intercalate_cons_cons, String.toList_append, later]
      simp [groupText, laterText]

/-- What follows a group makes no lexeme longer. -/
theorem detached_laterText (connective : Connective) (sources : List String) :
    Detached (laterText connective sources) := by
  cases sources with
  | nil => exact detached_nil
  | cons source rest => exact detached_blank _

end Rule

/-! ## Phrases of composed texts -/

namespace Connective

open Grammar

/-- The level of the grammar at which a connective joins operands. -/
def level : Connective → Level
  | .and => .conjunction
  | .or => .disjunction

/-- The terminal symbol of a connective. -/
def terminal : Connective → Terminal
  | .and => .conjunction
  | .or => .disjunction

/-- What the operators of the level tell about the tree. -/
def operator : (connective : Connective) → connective.level.Operator
  | .and => ()
  | .or => ()

theorem mem_operators (connective : Connective) :
    (connective.terminal, connective.operator) ∈ connective.level.operators := by
  cases connective <;> exact List.mem_singleton_self _

theorem ofLexeme?_sign (connective : Connective) :
    Terminal.ofLexeme? connective.sign.toList = some connective.terminal := by
  cases connective <;> decide

/-- The tree of a run at the level of a connective. -/
theorem node_level
    (connective : Connective)
    (first : Expr)
    (later : List Expr)
    (operators : List connective.level.Operator) :
    connective.level.node first later operators = connective.joined (first :: later) := by
  cases connective <;> cases later <;> rfl

/-- A primary as an operand of a connective. -/
def operandOf : (connective : Connective) → Phrase .primary → Phrase connective.level.operand
  | .and, phrase => phrase.asCondition
  | .or, phrase => .run phrase.asCondition .done

theorem places_operandOf (connective : Connective) (phrase : Phrase .primary) (depth : Nat) :
    (connective.operandOf phrase).places depth = phrase.places depth := by
  cases connective with
  | and => exact phrase.places_asCondition depth
  | or =>
      exact (Phrase.places_single .conjunction _ depth).trans (phrase.places_asCondition depth)

theorem tokens_operandOf (connective : Connective) (phrase : Phrase .primary) :
    (connective.operandOf phrase).tokens = phrase.tokens := by
  rw [← Phrase.map_fst_places 0, connective.places_operandOf, phrase.map_fst_places]

theorem tree_operandOf
    (connective : Connective)
    (phrase : Phrase .primary)
    (vocabulary : Vocabulary) :
    (connective.operandOf phrase).tree vocabulary = phrase.tree vocabulary := by
  cases connective <;> rfl

end Connective

namespace Rule

open Grammar

variable {vocabulary : Vocabulary} {maxDepth : Nat}

theorem parse_source_iff {rule : Rule} :
    parse vocabulary maxDepth rule.source = .ok rule ↔
      Expr.parse vocabulary maxDepth rule.source = .ok rule.tree := by
  obtain ⟨source, tree⟩ := rule
  rw [parse]
  cases Expr.parse vocabulary maxDepth source with
  | error error => simp [Except.map]
  | ok tree => simp [Except.map]

/-- A rule in parentheses is a primary, at whatever offset it stands. -/
theorem exists_group
    {rule : Rule}
    (read : parse vocabulary maxDepth rule.source = .ok rule)
    (offset : Nat) :
    ∃ phrase : Phrase .primary,
      Tiles offset (groupText rule.source) phrase.tokens ∧
        phrase.tree vocabulary = rule.grouped offset ∧
        Readable vocabulary (maxDepth + 1) (phrase.places 0) := by
  obtain ⟨inner, tiles, made, readable⟩ :=
    Expr.exists_tiles_of_parse (parse_source_iff.mp read) (offset + 1)
  let last := offset + 1 + Text.byteWidth rule.source.toList
  let opening := Token.ofLexeme .leftParen ['('] offset
  let closing := Token.ofLexeme .rightParen [')'] last
  have tilesClosing : Tiles last ([')'] ++ []) [closing] :=
    .lexeme (by decide) (by simp) .finish
  have tilesInner := tiles.append tilesClosing (detached_closing [])
  refine ⟨.group opening rfl inner closing rfl, ?_, ?_, ?_⟩
  · exact .lexeme (by decide) (fun next _ => Terminal.not_extends_opening next) tilesInner
  · have stop : last + Text.byteWidth [')'] =
        offset + Text.byteWidth rule.source.toList + 2 := by
      have one : Text.byteWidth [')'] = 1 := by decide
      omega
    change Expr.group (inner.tree vocabulary) ⟨offset, last + Text.byteWidth [')']⟩ = _
    rw [made, grouped, stop]
  · have deeper : Readable vocabulary (maxDepth + 1) (inner.places (0 + 1)) :=
      readable_places_add_iff.mpr readable
    have known : Known vocabulary opening ∧ Known vocabulary closing :=
      ⟨known_of_isOperand_eq_false rfl, known_of_isOperand_eq_false rfl⟩
    simpa [Phrase.places, known] using deeper

theorem byteWidth_groupText (source : String) :
    Text.byteWidth (groupText source) = Text.byteWidth source.toList + 2 := by
  have widths : '('.utf8Size = 1 ∧ Text.byteWidth [')'] = 1 := by decide
  rw [groupText, Text.byteWidth_cons, Text.byteWidth_append, widths.1, widths.2]
  omega

/-- The later rules of a composed text are the later operands of a run. -/
theorem exists_later
    (connective : Connective)
    {rules : List Rule}
    (read : ∀ rule ∈ rules, parse vocabulary maxDepth rule.source = .ok rule)
    (offset : Nat) :
    ∃ later : Later connective.level,
      Tiles offset (laterText connective (rules.map source)) later.tokens ∧
        later.trees vocabulary =
          (placed connective (offset + Text.byteWidth connective.sign.toList + 2) rules).map
            (fun place => place.2.grouped place.1) ∧
        Readable vocabulary (maxDepth + 1) (later.places 0) := by
  induction rules generalizing offset with
  | nil => exact ⟨.done, .finish, rfl, readable_nil⟩
  | cons rule rest inductionHypothesis =>
      obtain ⟨readRule, readRest⟩ := List.forall_mem_cons.mp read
      have blank : ' '.utf8Size = 1 := by decide
      -- The parenthesis opens after a blank, the connective and another blank.
      let opens := offset + Text.byteWidth connective.sign.toList + 2
      obtain ⟨group, tilesGroup, treeGroup, readableGroup⟩ := exists_group readRule opens
      obtain ⟨later, tilesLater, treesLater, readableLater⟩ :=
        inductionHypothesis readRest (opens + Text.byteWidth (groupText rule.source))
      let sign := Token.ofLexeme connective.terminal connective.sign.toList (offset + ' '.utf8Size)
      have joins : (sign.terminal, connective.operator) ∈ connective.level.operators :=
        connective.mem_operators
      refine ⟨.more sign connective.operator joins (connective.operandOf group) later, ?_, ?_, ?_⟩
      · have tilesOperand := tilesGroup.append tilesLater (detached_laterText connective _)
        have text : laterText connective ((rule :: rest).map source) =
            ' ' :: (connective.sign.toList ++
              ' ' :: (groupText rule.source ++ laterText connective (rest.map source))) := by
          simp [laterText]
        have start : offset + ' '.utf8Size + Text.byteWidth connective.sign.toList +
            ' '.utf8Size = opens := by
          omega
        rw [text, Later.tokens, connective.tokens_operandOf]
        rw [← start] at tilesOperand
        exact .separator rfl
          (.lexeme connective.ofLexeme?_sign (fun next head => detached_blank _ next head _)
            (.separator rfl tilesOperand))
      · rw [byteWidth_groupText, ← Nat.add_assoc] at treesLater
        rw [Later.trees, connective.tree_operandOf, treeGroup, treesLater]
        rfl
      · have known : Known vocabulary sign :=
          known_of_isOperand_eq_false (Level.isOperand_eq_false joins)
        simp [Later.places, connective.places_operandOf, known, readableGroup, readableLater]

/-- A composed text can be read one level deeper than the texts, as the groups of their trees
joined by the connective. -/
theorem exists_parse_composition
    (connective : Connective)
    {rules : List Rule}
    (nonempty : rules ≠ [])
    (read : ∀ rule ∈ rules, parse vocabulary maxDepth rule.source = .ok rule) :
    Expr.parse vocabulary (maxDepth + 1) (composition connective (rules.map source)) =
      .ok (connective.joined
        ((placed connective 0 rules).map fun place => place.2.grouped place.1)) := by
  obtain ⟨rule, rest, rfl⟩ := List.exists_cons_of_ne_nil nonempty
  obtain ⟨readRule, readRest⟩ := List.forall_mem_cons.mp read
  obtain ⟨group, tilesGroup, treeGroup, readableGroup⟩ := exists_group readRule 0
  obtain ⟨later, tilesLater, treesLater, readableLater⟩ :=
    exists_later connective readRest (0 + Text.byteWidth (groupText rule.source))
  let whole : Phrase (.run connective.level) := .run (connective.operandOf group) later
  have tiles := tilesGroup.append tilesLater (detached_laterText connective _)
  refine Expr.parse_eq_ok_iff_tiles.mpr ⟨whole.alone, ?_, ?_, ?_⟩
  · rw [List.map_cons, toList_composition, whole.tokens_alone, Phrase.tokens,
      connective.tokens_operandOf]
    exact tiles
  · rw [byteWidth_groupText, ← Nat.add_assoc] at treesLater
    rw [whole.tree_alone, Phrase.tree, connective.node_level, connective.tree_operandOf,
      treeGroup, treesLater]
    rfl
  · rw [whole.places_alone]
    simp [whole, Phrase.places, connective.places_operandOf, readableGroup, readableLater]

end Rule

/-! ## Checks of composed rules -/

namespace Connective

/-- One check is settled by itself. -/
theorem settle_singleton (connective : Connective) (result : Except RuleError Bool) :
    connective.settle [result] = result := by
  cases result with
  | error error => rfl
  | ok verdict => cases connective <;> cases verdict <;> rfl

/-- Joined results hold as their checks are settled. -/
theorem map_isTruthy_combine
    (connective : Connective)
    (results : List (Except RuleError Value)) :
    (connective.combine results).map Value.isTruthy =
      connective.settle (results.map (Except.map Value.isTruthy)) := by
  induction results with
  | nil => rfl
  | cons result rest inductionHypothesis =>
      cases result with
      | error error => rfl
      | ok value =>
          by_cases settled : value.isTruthy = connective.decisive
          · simp [combine, settle, Except.map, settled]
          · simpa [combine, settle, Except.map, settled] using inductionHypothesis

/-- Joined conditions hold as their checks are settled. -/
theorem map_isTruthy_eval_joined
    (connective : Connective)
    (operands : List Expr)
    (context : Context) :
    ((connective.joined operands).eval context).map Value.isTruthy =
      connective.settle
        (operands.map fun operand => (operand.eval context).map Value.isTruthy) := by
  have several : ((Expr.logical connective operands).eval context).map Value.isTruthy =
      connective.settle
        (operands.map fun operand => (operand.eval context).map Value.isTruthy) := by
    rw [Expr.eval_logical, map_isTruthy_combine, List.map_map]
    rfl
  match operands with
  | [] => exact several
  | [single] => exact (connective.settle_singleton _).symm
  | _ :: _ :: _ => exact several

end Connective

namespace Rule

variable {vocabulary : Vocabulary} {maxDepth : Nat}

/-- A rule in parentheses holds where the rule does, and fails with its error at the place that
the parentheses move it to. -/
theorem map_isTruthy_eval_grouped
    {rule : Rule}
    (read : parse vocabulary maxDepth rule.source = .ok rule)
    (offset : Nat)
    (context : Context) :
    ((rule.grouped offset).eval context).map Value.isTruthy = rule.checkAt context offset := by
  have aligned := Expr.aligned_of_parse (parse_source_iff.mp read)
  rw [grouped, Expr.eval_group, aligned.eval_mapSpans (Span.respects_shift _), checkAt, check,
    evaluate]
  cases rule.tree.eval context <;> rfl

theorem mem_of_mem_placed
    {connective : Connective}
    {offset : Nat}
    {rules : List Rule}
    {place : Nat × Rule}
    (member : place ∈ placed connective offset rules) :
    place.2 ∈ rules := by
  induction rules generalizing offset with
  | nil => cases member
  | cons rule rest inductionHypothesis =>
      obtain rfl | later := List.mem_cons.mp member
      · exact List.mem_cons_self
      · exact List.mem_cons_of_mem _ (inductionHypothesis later)

/-- Rules in parentheses with a connective between each two are read, one level deeper, as the
groups of their trees joined by the connective.  In every context the rules are checked from the
left until one of them fails or settles the result, and an error is that of the rule at its place
in the composed text. -/
theorem parse_composition
    (connective : Connective)
    {rules : List Rule}
    (nonempty : rules ≠ [])
    (read : ∀ rule ∈ rules, parse vocabulary maxDepth rule.source = .ok rule) :
    ∃ whole,
      parse vocabulary (maxDepth + 1) (composition connective (rules.map source)) = .ok whole ∧
        whole.tree =
          connective.joined
            ((placed connective 0 rules).map fun place => place.2.grouped place.1) ∧
        ∀ context,
          whole.check context =
            connective.settle
              ((placed connective 0 rules).map fun place => place.2.checkAt context place.1) := by
  have readWhole := exists_parse_composition connective nonempty read
  refine ⟨_, by rw [parse, readWhole]; rfl, rfl, ?_⟩
  intro context
  rw [check, evaluate, connective.map_isTruthy_eval_joined, List.map_map]
  apply congrArg
  apply List.map_congr_left
  intro place member
  exact map_isTruthy_eval_grouped (read _ (mem_of_mem_placed member)) place.1 context

/-- The rules `A < 1 or B`, on two lines, and `not B` are composed with `and`. -/
theorem parse_composition_of_lines :
    ∃ first second whole,
      parse .standard 1 "A < 1 or\nB" = .ok first ∧
        parse .standard 1 "not B" = .ok second ∧
        parse .standard 2 "(A < 1 or\nB) and (not B)" = .ok whole ∧
        ∀ context,
          whole.check context =
            Connective.and.settle [first.checkAt context 0, second.checkAt context 17] := by
  have readsFirst : ∃ first, parse .standard 1 "A < 1 or\nB" = .ok first :=
    exists_ok_of_isSome (by decide +kernel)
  have readsSecond : ∃ second, parse .standard 1 "not B" = .ok second :=
    exists_ok_of_isSome (by decide +kernel)
  obtain ⟨first, readFirst⟩ := readsFirst
  obtain ⟨second, readSecond⟩ := readsSecond
  have sourceFirst := source_of_parse readFirst
  have sourceSecond := source_of_parse readSecond
  have read : ∀ rule ∈ [first, second], parse .standard 1 rule.source = .ok rule := by
    simp [sourceFirst, sourceSecond, readFirst, readSecond]
  obtain ⟨whole, readWhole, _, checks⟩ := parse_composition .and (List.cons_ne_nil _ _) read
  have text : composition .and ([first, second].map source) = "(A < 1 or\nB) and (not B)" := by
    simp only [List.map_cons, List.map_nil, sourceFirst, sourceSecond]
    decide +kernel
  have places : placed .and 0 [first, second] = [(0, first), (17, second)] := by
    have widths : Text.byteWidth "A < 1 or\nB".toList = 10 ∧
        Text.byteWidth Connective.and.sign.toList = 3 := by
      decide +kernel
    simp only [placed, sourceFirst, widths.1, widths.2, Nat.zero_add, Nat.reduceAdd]
  rw [text] at readWhole
  rw [places] at checks
  exact ⟨first, second, whole, readFirst, readSecond, readWhole, checks⟩

end Rule
end DecisionRules
