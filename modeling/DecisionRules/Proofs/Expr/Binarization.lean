import DecisionRules.Expr.Evaluation
import DecisionRules.Proofs.Expr.Connective
import DecisionRules.Proofs.Text.Span

/-!
# Binary form of runs

The binary form of a tree has two operands in every run: computations and connectives nest to
the left, and a chain of comparisons becomes the conjunction of the comparisons between
neighbours.  A chain looks at each of its middle operands once and its binary form looks at them
twice, yet both have the same value, or fail with the same error at the same place.

The rewriting is justified run by run.  The results of the operands decide the result of a run,
so each kind of run has a law that splits off its first two operands; the left nesting follows by
induction on the remaining ones.
-/

namespace DecisionRules

/-- A computation with its first two numbers is a first number of the remaining computation. -/
theorem Arithmetic.combine_pair
    (operator : Arithmetic)
    (operators : List Arithmetic)
    (place : Span)
    (first second : Span × Except RuleError Value)
    (rest : List (Span × Except RuleError Value)) :
    Arithmetic.combine operators ((place, Arithmetic.combine [operator] [first, second]) :: rest) =
      Arithmetic.combine (operator :: operators) (first :: second :: rest) := by
  obtain ⟨firstPlace, first⟩ := first
  obtain ⟨secondPlace, second⟩ := second
  cases first with
  | error error => rfl
  | ok first =>
      cases second with
      | error error => rfl
      | ok second =>
          cases applied : operator.apply first.asNumber second.asNumber secondPlace with
          | error error => simp [combine, fold, applied]
          | ok total => simp [combine, fold, applied]

/-- The results of the comparisons between neighbours. -/
def Comparison.neighbours
    (previous : Except RuleError Value) :
    List (Comparison × Except RuleError Value) → List (Except RuleError Value)
  | [] => []
  | (comparison, result) :: rest =>
    Comparison.combine [comparison] [previous, result] :: neighbours result rest

/-- A chain with a value to start from is the conjunction of the comparisons between
neighbours. -/
theorem Comparison.combine_neighbours_ok
    (previous : Value)
    (later : List (Comparison × Except RuleError Value)) :
    Connective.and.combine (neighbours (.ok previous) later) = chain previous later := by
  induction later generalizing previous with
  | nil => rfl
  | cons next rest inductionHypothesis =>
      obtain ⟨comparison, result⟩ := next
      cases result with
      | error error => rfl
      | ok value =>
          by_cases holds : comparison.holds previous value = true
          · simp only [neighbours, Comparison.combine, List.zip_cons_cons, List.zip_nil_right,
              chain, Connective.combine, Connective.decisive, Value.isTruthy_boolean, holds,
              if_true, Bool.true_eq_false, if_false]
            exact inductionHypothesis value
          · simp [neighbours, Comparison.combine, chain, Connective.combine,
              Connective.decisive, holds]

/-- A chain of two operands or more is the conjunction of the comparisons between neighbours. -/
theorem Comparison.combine_neighbours
    (operator : Comparison)
    (operators : List Comparison)
    (first second : Except RuleError Value)
    (rest : List (Except RuleError Value)) :
    Connective.and.combine (neighbours first ((operator :: operators).zip (second :: rest))) =
      Comparison.combine (operator :: operators) (first :: second :: rest) := by
  cases first with
  | error error => rfl
  | ok previous => exact combine_neighbours_ok previous _

namespace Expr

/-- Trees whose runs all have two operands or more, and one operator between neighbours. -/
inductive Aligned : Expr → Prop
  | leaf {operand : Operand} {place : Span} : Aligned (.leaf operand place)
  | group {inner : Expr} {place : Span} : inner.Aligned → Aligned (.group inner place)
  | negation {inner : Expr} {place : Span} : inner.Aligned → Aligned (.negation inner place)
  | logical {connective : Connective} {operands : List Expr} :
      2 ≤ operands.length →
      (∀ operand ∈ operands, operand.Aligned) →
      Aligned (.logical connective operands)
  | comparison {operands : List Expr} {operators : List Comparison} :
      2 ≤ operands.length →
      operators.length + 1 = operands.length →
      (∀ operand ∈ operands, operand.Aligned) →
      Aligned (.comparison operands operators)
  | arithmetic {operands : List Expr} {operators : List Arithmetic} :
      2 ≤ operands.length →
      operators.length + 1 = operands.length →
      (∀ operand ∈ operands, operand.Aligned) →
      Aligned (.arithmetic operands operators)

/-- Trees in which every run has just two operands. -/
inductive Binary : Expr → Prop
  | leaf {operand : Operand} {place : Span} : Binary (.leaf operand place)
  | group {inner : Expr} {place : Span} : inner.Binary → Binary (.group inner place)
  | negation {inner : Expr} {place : Span} : inner.Binary → Binary (.negation inner place)
  | logical {connective : Connective} {left right : Expr} :
      left.Binary → right.Binary → Binary (.logical connective [left, right])
  | comparison {operator : Comparison} {left right : Expr} :
      left.Binary → right.Binary → Binary (.comparison [left, right] [operator])
  | arithmetic {operator : Arithmetic} {left right : Expr} :
      left.Binary → right.Binary → Binary (.arithmetic [left, right] [operator])

/-- Conditions joined two at a time, from the left. -/
def nestLogical (connective : Connective) : List Expr → Expr
  | [] => .logical connective []
  | first :: rest => rest.foldl (fun left right => .logical connective [left, right]) first

/-- Operands computed with two at a time, from the left. -/
def nestArithmetic (operators : List Arithmetic) : List Expr → Expr
  | [] => .arithmetic [] operators
  | first :: rest =>
    (operators.zip rest).foldl (fun left next => .arithmetic [left, next.2] [next.1]) first

/-- The comparisons between neighbours. -/
def neighbours (previous : Expr) : List (Comparison × Expr) → List Expr
  | [] => []
  | (operator, operand) :: rest =>
    .comparison [previous, operand] [operator] :: neighbours operand rest

/-- The comparisons between neighbours, joined two at a time, from the left. -/
def nestComparison (operators : List Comparison) : List Expr → Expr
  | [] => .comparison [] operators
  | first :: rest => nestLogical .and (neighbours first (operators.zip rest))

mutual

/-- The binary form of a tree. -/
def binarize : Expr → Expr
  | .leaf operand place => .leaf operand place
  | .group inner place => .group inner.binarize place
  | .negation inner place => .negation inner.binarize place
  | .logical connective operands => nestLogical connective (binarizeAll operands)
  | .comparison operands operators => nestComparison operators (binarizeAll operands)
  | .arithmetic operands operators => nestArithmetic operators (binarizeAll operands)

/-- The binary forms of several trees. -/
def binarizeAll : List Expr → List Expr
  | [] => []
  | first :: rest => first.binarize :: binarizeAll rest

end

@[simp] theorem binarizeAll_eq_map (operands : List Expr) :
    binarizeAll operands = operands.map binarize := by
  induction operands with
  | nil => rfl
  | cons first rest inductionHypothesis =>
      rw [binarizeAll, inductionHypothesis, List.map_cons]

@[simp] theorem binarize_logical (connective : Connective) (operands : List Expr) :
    (Expr.logical connective operands).binarize =
      nestLogical connective (operands.map binarize) := by
  rw [binarize, binarizeAll_eq_map]

@[simp] theorem binarize_comparison (operands : List Expr) (operators : List Comparison) :
    (Expr.comparison operands operators).binarize =
      nestComparison operators (operands.map binarize) := by
  rw [binarize, binarizeAll_eq_map]

@[simp] theorem binarize_arithmetic (operands : List Expr) (operators : List Arithmetic) :
    (Expr.arithmetic operands operators).binarize =
      nestArithmetic operators (operands.map binarize) := by
  rw [binarize, binarizeAll_eq_map]

/-- A list of two members or more. -/
theorem exists_two {α : Type} {members : List α} (two : 2 ≤ members.length) :
    ∃ first second rest, members = first :: second :: rest := by
  match members, two with
  | first :: second :: rest, _ => exact ⟨first, second, rest, rfl⟩

/-! ## Nested connectives -/

/-- The left nesting of two conditions or more has the value of the run. -/
theorem eval_nestLogical
    (context : Context)
    (connective : Connective)
    {operands : List Expr}
    (two : 2 ≤ operands.length) :
    (nestLogical connective operands).eval context =
      (Expr.logical connective operands).eval context := by
  obtain ⟨first, second, rest, rfl⟩ := exists_two two
  clear two
  induction rest generalizing first second with
  | nil => rfl
  | cons third rest inductionHypothesis =>
      have nested := inductionHypothesis (.logical connective [first, second]) third
      rw [eval_logical, List.map_cons, eval_logical] at nested
      rw [eval_logical]
      exact nested.trans
        (connective.combine_combine_cons [first.eval context, second.eval context] _)

/-- The left nesting of conditions extends as far as the run. -/
theorem span_nestLogical
    (connective : Connective)
    {operands : List Expr}
    (two : 2 ≤ operands.length) :
    (nestLogical connective operands).span = (Expr.logical connective operands).span := by
  obtain ⟨first, second, rest, rfl⟩ := exists_two two
  clear two
  induction rest generalizing first second with
  | nil => rfl
  | cons third rest inductionHypothesis =>
      have nested := inductionHypothesis (.logical connective [first, second]) third
      rw [span_logical, List.map_cons, span_logical] at nested
      rw [span_logical]
      exact nested.trans (Span.joinAll_join first.span second.span _)

/-- The left nesting of binary conditions is binary. -/
theorem binary_nestLogical
    {connective : Connective}
    {first : Expr}
    {rest : List Expr}
    (binary : ∀ operand ∈ first :: rest, operand.Binary) :
    (nestLogical connective (first :: rest)).Binary := by
  induction rest generalizing first with
  | nil => exact binary first (List.mem_singleton_self first)
  | cons second rest inductionHypothesis =>
      apply inductionHypothesis
      simp only [List.mem_cons, forall_eq_or_imp] at binary ⊢
      exact ⟨.logical binary.1 binary.2.1, binary.2.2⟩

/-! ## Nested computations -/

/-- The left nesting of two operands or more has the value of the run. -/
theorem eval_nestArithmetic
    (context : Context)
    {operands : List Expr}
    {operators : List Arithmetic}
    (two : 2 ≤ operands.length)
    (aligned : operators.length + 1 = operands.length) :
    (nestArithmetic operators operands).eval context =
      (Expr.arithmetic operands operators).eval context := by
  obtain ⟨first, second, rest, rfl⟩ := exists_two two
  obtain ⟨operator, operators, rfl⟩ :=
    List.exists_cons_of_length_eq_add_one (Nat.succ.inj aligned)
  clear two
  induction rest generalizing operator operators first second with
  | nil =>
      obtain rfl : operators = [] := by simpa using aligned
      rfl
  | cons third rest inductionHypothesis =>
      obtain ⟨next, operators, rfl⟩ :=
        List.exists_cons_of_length_eq_add_one (Nat.succ.inj (Nat.succ.inj aligned))
      have nested := inductionHypothesis (.arithmetic [first, second] [operator]) third next
        operators (Nat.succ.inj aligned)
      rw [eval_arithmetic, List.map_cons, eval_arithmetic] at nested
      rw [eval_arithmetic]
      exact nested.trans (Arithmetic.combine_pair operator (next :: operators) _
        (first.span, first.eval context) (second.span, second.eval context) _)

/-- The left nesting of computations extends as far as the run. -/
theorem span_nestArithmetic
    {operands : List Expr}
    {operators : List Arithmetic}
    (two : 2 ≤ operands.length)
    (aligned : operators.length + 1 = operands.length) :
    (nestArithmetic operators operands).span = (Expr.arithmetic operands operators).span := by
  obtain ⟨first, second, rest, rfl⟩ := exists_two two
  obtain ⟨operator, operators, rfl⟩ :=
    List.exists_cons_of_length_eq_add_one (Nat.succ.inj aligned)
  clear two
  induction rest generalizing operator operators first second with
  | nil => simp [nestArithmetic]
  | cons third rest inductionHypothesis =>
      obtain ⟨next, operators, rfl⟩ :=
        List.exists_cons_of_length_eq_add_one (Nat.succ.inj (Nat.succ.inj aligned))
      have nested := inductionHypothesis (.arithmetic [first, second] [operator]) third next
        operators (Nat.succ.inj aligned)
      rw [span_arithmetic, List.map_cons, span_arithmetic] at nested
      rw [span_arithmetic]
      exact nested.trans (Span.joinAll_join first.span second.span _)

/-- The left nesting of binary operands is binary. -/
theorem binary_nestArithmetic
    {operators : List Arithmetic}
    {first : Expr}
    {rest : List Expr}
    (binary : ∀ operand ∈ first :: rest, operand.Binary) :
    (nestArithmetic operators (first :: rest)).Binary := by
  induction rest generalizing operators first with
  | nil =>
      rw [nestArithmetic, List.zip_nil_right]
      exact binary first (List.mem_singleton_self first)
  | cons second rest inductionHypothesis =>
      simp only [List.mem_cons, forall_eq_or_imp] at binary
      cases operators with
      | nil => exact binary.1
      | cons operator operators =>
          apply inductionHypothesis
          simp only [List.mem_cons, forall_eq_or_imp]
          exact ⟨.arithmetic binary.1 binary.2.1, binary.2.2⟩

/-! ## Chains of comparisons -/

theorem length_neighbours (previous : Expr) (later : List (Comparison × Expr)) :
    (neighbours previous later).length = later.length := by
  induction later generalizing previous with
  | nil => rfl
  | cons next later inductionHypothesis =>
      rw [neighbours, List.length_cons, List.length_cons, inductionHypothesis]

/-- A chain of three operands or more has two comparisons or more between neighbours. -/
theorem two_le_length_neighbours
    (first second third : Expr)
    {rest : List Expr}
    (operator : Comparison)
    {operators : List Comparison}
    (aligned : operators.length = rest.length + 1) :
    2 ≤ (neighbours first ((operator :: operators).zip (second :: third :: rest))).length := by
  rw [length_neighbours, List.length_zip]
  simp only [List.length_cons]
  omega

/-- The results of the comparisons between neighbours. -/
theorem map_eval_neighbours
    (context : Context)
    (previous : Expr)
    (later : List (Comparison × Expr)) :
    (neighbours previous later).map (eval context) =
      Comparison.neighbours (previous.eval context)
        (later.map (Prod.map id (eval context))) := by
  induction later generalizing previous with
  | nil => rfl
  | cons next later inductionHypothesis =>
      rw [neighbours, List.map_cons, inductionHypothesis, eval_comparison]
      rfl

/-- The comparisons between neighbours extend as far as the chain. -/
theorem joinAll_span_neighbours
    (previous : Expr)
    (next : Comparison × Expr)
    (later : List (Comparison × Expr)) :
    Span.joinAll ((neighbours previous (next :: later)).map span) =
      Span.joinAll ((previous :: (next :: later).map Prod.snd).map span) := by
  induction later generalizing previous next with
  | nil => simp [neighbours]
  | cons third later inductionHypothesis =>
      calc
        Span.joinAll ((neighbours previous (next :: third :: later)).map span) =
            (Expr.comparison [previous, next.2] [next.1]).span.join
              (Span.joinAll ((neighbours next.2 (third :: later)).map span)) :=
          Span.joinAll_cons_cons _ _ _
        _ = (Expr.comparison [previous, next.2] [next.1]).span.join
              (Span.joinAll ((next.2 :: (third :: later).map Prod.snd).map span)) := by
          rw [inductionHypothesis]
        _ = Span.joinAll ((previous :: (next :: third :: later).map Prod.snd).map span) :=
          (Span.joinAll_cons_cons _ _ _).symm

/-- The comparisons between binary neighbours are binary. -/
theorem binary_neighbours
    {previous : Expr}
    {later : List (Comparison × Expr)}
    (binaryPrevious : previous.Binary)
    (binary : ∀ next ∈ later, next.2.Binary) :
    ∀ operand ∈ neighbours previous later, operand.Binary := by
  induction later generalizing previous with
  | nil => simp [neighbours]
  | cons next later inductionHypothesis =>
      simp only [List.mem_cons, forall_eq_or_imp] at binary
      simp only [neighbours, List.mem_cons, forall_eq_or_imp]
      exact ⟨.comparison binaryPrevious binary.1, inductionHypothesis binary.1 binary.2⟩

/-- The conjunction of the comparisons between neighbours has the value of the chain. -/
theorem eval_nestComparison
    (context : Context)
    {operands : List Expr}
    {operators : List Comparison}
    (two : 2 ≤ operands.length)
    (aligned : operators.length + 1 = operands.length) :
    (nestComparison operators operands).eval context =
      (Expr.comparison operands operators).eval context := by
  obtain ⟨first, second, rest, rfl⟩ := exists_two two
  obtain ⟨operator, operators, rfl⟩ :=
    List.exists_cons_of_length_eq_add_one (Nat.succ.inj aligned)
  cases rest with
  | nil =>
      -- One comparison is its own conjunction.
      obtain rfl : operators = [] := by simpa using aligned
      rfl
  | cons third rest =>
      let later := (operator :: operators).zip (second :: third :: rest)
      have several : 2 ≤ (neighbours first later).length :=
        two_le_length_neighbours first second third operator
          (Nat.succ.inj (Nat.succ.inj aligned))
      calc
        (nestLogical .and (neighbours first later)).eval context =
            Connective.and.combine ((neighbours first later).map (eval context)) :=
          (eval_nestLogical context .and several).trans (eval_logical context .and _)
        _ = Connective.and.combine (Comparison.neighbours (first.eval context)
              ((operator :: operators).zip ((second :: third :: rest).map (eval context)))) := by
          rw [map_eval_neighbours, List.zip_map_right]
        _ = Comparison.combine (operator :: operators)
              ((first :: second :: third :: rest).map (eval context)) :=
          Comparison.combine_neighbours operator operators _ _ _
        _ = (Expr.comparison (first :: second :: third :: rest)
              (operator :: operators)).eval context :=
          (eval_comparison context _ _).symm

/-- The conjunction of the comparisons between neighbours extends as far as the chain. -/
theorem span_nestComparison
    {operands : List Expr}
    {operators : List Comparison}
    (two : 2 ≤ operands.length)
    (aligned : operators.length + 1 = operands.length) :
    (nestComparison operators operands).span = (Expr.comparison operands operators).span := by
  obtain ⟨first, second, rest, rfl⟩ := exists_two two
  obtain ⟨operator, operators, rfl⟩ :=
    List.exists_cons_of_length_eq_add_one (Nat.succ.inj aligned)
  have operandsOfPairs :
      ((operator :: operators).zip (second :: rest)).map Prod.snd = second :: rest := by
    apply List.map_snd_zip
    simp only [List.length_cons] at aligned ⊢
    omega
  have joined := joinAll_span_neighbours first (operator, second) (operators.zip rest)
  rw [← List.zip_cons_cons, operandsOfPairs] at joined
  rw [span_comparison, ← joined]
  cases rest with
  | nil => simp [nestComparison, nestLogical, neighbours]
  | cons third rest =>
      have several := two_le_length_neighbours first second third operator
        (Nat.succ.inj (Nat.succ.inj aligned))
      exact (span_nestLogical .and several).trans (span_logical .and _)

/-! ## Whole trees -/

/-- A tree and its binary form were read from the same part of the text. -/
theorem Aligned.span_binarize {tree : Expr} (aligned : tree.Aligned) :
    tree.binarize.span = tree.span := by
  induction aligned with
  | leaf => rfl
  | group => rfl
  | negation => rfl
  | logical two _ inductionHypothesis =>
      rw [binarize_logical, span_nestLogical _ (by simpa using two), span_logical, span_logical,
        List.map_map]
      exact congrArg Span.joinAll (List.map_congr_left inductionHypothesis)
  | comparison two between _ inductionHypothesis =>
      rw [binarize_comparison, span_nestComparison (by simpa using two) (by simpa using between),
        span_comparison, span_comparison, List.map_map]
      exact congrArg Span.joinAll (List.map_congr_left inductionHypothesis)
  | arithmetic two between _ inductionHypothesis =>
      rw [binarize_arithmetic, span_nestArithmetic (by simpa using two) (by simpa using between),
        span_arithmetic, span_arithmetic, List.map_map]
      exact congrArg Span.joinAll (List.map_congr_left inductionHypothesis)

/-- The binary form of an aligned tree is binary. -/
theorem Aligned.binary_binarize {tree : Expr} (aligned : tree.Aligned) :
    tree.binarize.Binary := by
  induction aligned with
  | leaf => exact .leaf
  | group _ inductionHypothesis => exact .group inductionHypothesis
  | negation _ inductionHypothesis => exact .negation inductionHypothesis
  | logical two _ inductionHypothesis =>
      obtain ⟨first, second, rest, rfl⟩ := exists_two two
      rw [binarize_logical]
      apply binary_nestLogical
      simpa using inductionHypothesis
  | comparison two between _ inductionHypothesis =>
      obtain ⟨first, second, rest, rfl⟩ := exists_two two
      obtain ⟨operator, operators, rfl⟩ :=
        List.exists_cons_of_length_eq_add_one (Nat.succ.inj between)
      have binaryOperands :
          ∀ operand ∈ (first :: second :: rest).map binarize, operand.Binary := by
        simpa using inductionHypothesis
      have binaryComparisons :
          ∀ operand ∈ neighbours first.binarize
            ((operator :: operators).zip ((second :: rest).map binarize)), operand.Binary := by
        apply binary_neighbours (binaryOperands _ (List.mem_cons_self ..))
        intro next member
        exact binaryOperands _ (List.mem_cons_of_mem _ (List.of_mem_zip member).2)
      rw [binarize_comparison]
      exact binary_nestLogical binaryComparisons
  | arithmetic two _ _ inductionHypothesis =>
      obtain ⟨first, second, rest, rfl⟩ := exists_two two
      rw [binarize_arithmetic]
      apply binary_nestArithmetic
      simpa using inductionHypothesis

/-- A tree has the value of its binary form in every context, and fails with the same error at
the same place. -/
theorem Aligned.eval_binarize
    {tree : Expr}
    (aligned : tree.Aligned)
    (context : Context) :
    tree.binarize.eval context = tree.eval context := by
  induction aligned with
  | leaf => rfl
  | group _ inductionHypothesis => exact inductionHypothesis
  | negation _ inductionHypothesis =>
      rw [binarize, eval_negation, eval_negation, inductionHypothesis]
  | logical two _ inductionHypothesis =>
      rw [binarize_logical, eval_nestLogical _ _ (by simpa using two), eval_logical,
        eval_logical, List.map_map]
      exact congrArg _ (List.map_congr_left inductionHypothesis)
  | comparison two between _ inductionHypothesis =>
      rw [binarize_comparison,
        eval_nestComparison _ (by simpa using two) (by simpa using between),
        eval_comparison, eval_comparison, List.map_map]
      exact congrArg _ (List.map_congr_left inductionHypothesis)
  | arithmetic two between alignedOperands inductionHypothesis =>
      rw [binarize_arithmetic,
        eval_nestArithmetic _ (by simpa using two) (by simpa using between),
        eval_arithmetic, eval_arithmetic, List.map_map]
      -- An error of a division tells where the divisor stands, so places have to agree too.
      apply congrArg
      apply List.map_congr_left
      intro operand member
      exact Prod.ext (alignedOperands operand member).span_binarize
        (inductionHypothesis operand member)

/-- Each run of a binary form has two operands, and the binary form has the value of the tree in
every context, and fails with the same error at the same place. -/
theorem Aligned.binary_and_eval_binarize
    {tree : Expr}
    (aligned : tree.Aligned) :
    tree.binarize.Binary ∧ ∀ context, tree.binarize.eval context = tree.eval context :=
  ⟨aligned.binary_binarize, aligned.eval_binarize⟩

/-- The chain `true < 8 / false < 3` is a conjunction of two comparisons in its binary form, and
divides by zero there as well. -/
theorem binary_and_eval_binarize_of_division :
    let chain := Expr.comparison
      [.leaf (.literal (.boolean true)) ⟨0, 4⟩,
        .arithmetic
          [.leaf (.literal (.number 8)) ⟨7, 8⟩, .leaf (.literal (.boolean false)) ⟨11, 16⟩]
          [.divide],
        .leaf (.literal (.number 3)) ⟨19, 20⟩]
      [.less, .less]
    chain.binarize.Binary ∧
      chain.binarize.eval (fun _ => none) = .error (.divisionByZero ⟨11, 16⟩) := by
  intro chain
  have alignedQuotient : (Expr.arithmetic
      [.leaf (.literal (.number 8)) ⟨7, 8⟩, .leaf (.literal (.boolean false)) ⟨11, 16⟩]
      [.divide]).Aligned := by
    refine .arithmetic (by decide) rfl ?_
    simp only [List.mem_cons, forall_eq_or_imp, List.not_mem_nil, false_implies, implies_true,
      and_true]
    exact ⟨.leaf, .leaf⟩
  have aligned : chain.Aligned := by
    refine .comparison (by decide) rfl ?_
    simp only [List.mem_cons, forall_eq_or_imp, List.not_mem_nil, false_implies, implies_true,
      and_true]
    exact ⟨.leaf, alignedQuotient, .leaf⟩
  have divided : chain.eval (fun _ => none) = .error (.divisionByZero ⟨11, 16⟩) :=
    eq_error_of_errorOf?_eq_some (by decide +kernel)
  obtain ⟨binary, same⟩ := aligned.binary_and_eval_binarize
  exact ⟨binary, (same _).trans divided⟩

end Expr
end DecisionRules
