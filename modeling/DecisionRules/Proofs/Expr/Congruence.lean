import DecisionRules.Expr.Evaluation
import DecisionRules.Proofs.Expr.Nodes
import Mathlib.Data.List.Forall2

/-!
# Related results

Two evaluations are compared by a relation between their results.  Runs respect the relation when
related values count for the same and when an error that is made good for is made good for however
the evaluation goes on: then the results of two runs are related as soon as those of their operands
are, one by one.  So two trees that are the same but for some parts have related results when these
parts have, and the results of one tree in two contexts are related when those of its variables are.
-/

namespace DecisionRules

/-- A relation between results that runs of operands respect.  What divisors are told apart by is
another relation, between their places. -/
structure Respected
    (places : Span → Span → Prop)
    (related : Except RuleError Value → Except RuleError Value → Prop) :
    Prop where
  /-- A value is related to itself. -/
  refl : ∀ value, related (.ok value) (.ok value)
  /-- What a value is related to is a value that counts for the same. -/
  exists_value : ∀ {value result},
    related (.ok value) result →
      ∃ other,
        result = .ok other ∧
          other.asNumber = value.asNumber ∧ other.isTruthy = value.isTruthy
  /-- An error that is related to a value is related to whatever may come of that value. -/
  made_good : ∀ {error value},
    related (.error error) (.ok value) → ∀ result, related (.error error) result
  /-- Divisions by zero are related where their divisors are. -/
  division : ∀ {place other},
    places place other →
      related (.error (.divisionByZero place)) (.error (.divisionByZero other))

/-! ## Results of runs -/

/-- Whether a comparison holds depends on what its values count for. -/
theorem Comparison.holds_congr
    (comparison : Comparison)
    {left right otherLeft otherRight : Value}
    (sameLeft : otherLeft.asNumber = left.asNumber)
    (sameRight : otherRight.asNumber = right.asNumber) :
    comparison.holds otherLeft otherRight = comparison.holds left right := by
  simp only [holds, sameLeft, sameRight]

/-- A step of a computation has a result that does not depend on the place, or divides by zero. -/
theorem Arithmetic.apply_cases (operator : Arithmetic) (total number : Float) :
    (∃ next, ∀ place, operator.apply total number place = .ok next) ∨
      ∀ place, operator.apply total number place = .error (.divisionByZero place) := by
  cases operator with
  | multiply => exact .inl ⟨total * number, fun _ => rfl⟩
  | divide =>
      by_cases zero : (number == 0) = true
      · exact .inr fun _ => if_pos zero
      · exact .inl ⟨total / number, fun _ => if_neg zero⟩
  | add => exact .inl ⟨total + number, fun _ => rfl⟩
  | subtract => exact .inl ⟨total - number, fun _ => rfl⟩

namespace Respected

variable
  {places : Span → Span → Prop}
  {related : Except RuleError Value → Except RuleError Value → Prop}
  (respected : Respected places related)

include respected

/-- Related results stay related when they are denied. -/
theorem map_not
    {result other : Except RuleError Value}
    (results : related result other) :
    related
      (result.map fun value => .boolean !value.isTruthy)
      (other.map fun value => .boolean !value.isTruthy) := by
  cases result with
  | error error =>
      cases other with
      | error otherError => exact results
      | ok value => exact respected.made_good results _
  | ok value =>
      obtain ⟨otherValue, rfl, _, truthy⟩ := respected.exists_value results
      simp only [Except.map, truthy]
      exact respected.refl _

/-- Conditions with related results are joined to related ones. -/
theorem connective_combine
    (connective : Connective)
    {results others : List (Except RuleError Value)}
    (pairs : results.Forall₂ related others) :
    related (connective.combine results) (connective.combine others) := by
  induction pairs with
  | nil => exact respected.refl _
  | @cons result other results others head _ inductionHypothesis =>
      cases result with
      | error error =>
          cases other with
          | error otherError => exact head
          | ok value => exact respected.made_good head _
      | ok value =>
          obtain ⟨otherValue, rfl, _, truthy⟩ := respected.exists_value head
          rw [Connective.combine, Connective.combine, truthy]
          split
          · exact respected.refl _
          · exact inductionHypothesis

/-- Chains that start from values with one number and go on with related results are related. -/
theorem comparison_chain
    {previous otherPrevious : Value}
    (start : otherPrevious.asNumber = previous.asNumber)
    (operators : List Comparison)
    {results others : List (Except RuleError Value)}
    (pairs : results.Forall₂ related others) :
    related
      (Comparison.chain previous (operators.zip results))
      (Comparison.chain otherPrevious (operators.zip others)) := by
  induction pairs generalizing previous otherPrevious operators with
  | nil =>
      rw [List.zip_nil_right]
      exact respected.refl _
  | @cons result other results others head _ inductionHypothesis =>
      cases operators with
      | nil => exact respected.refl _
      | cons operator operators =>
          rw [List.zip_cons_cons, List.zip_cons_cons]
          cases result with
          | error error =>
              cases other with
              | error otherError => exact head
              | ok value => exact respected.made_good head _
          | ok value =>
              obtain ⟨otherValue, rfl, number, _⟩ := respected.exists_value head
              rw [Comparison.chain, Comparison.chain, operator.holds_congr start number]
              split
              · exact inductionHypothesis number operators
              · exact respected.refl _

/-- Chains of operands with related results are related. -/
theorem comparison_combine
    (operators : List Comparison)
    {results others : List (Except RuleError Value)}
    (pairs : results.Forall₂ related others) :
    related (Comparison.combine operators results) (Comparison.combine operators others) := by
  cases pairs with
  | nil => exact respected.refl _
  | @cons result other results others head pairs =>
      cases result with
      | error error =>
          cases other with
          | error otherError => exact head
          | ok value => exact respected.made_good head _
      | ok value =>
          obtain ⟨otherValue, rfl, number, _⟩ := respected.exists_value head
          exact respected.comparison_chain number operators pairs

/-- Computations that start from one number and go on with related results at related places are
related. -/
theorem arithmetic_fold
    (total : Float)
    (operators : List Arithmetic)
    {results others : List (Span × Except RuleError Value)}
    (pairs : results.Forall₂ (fun one other => places one.1 other.1 ∧ related one.2 other.2)
      others) :
    related
      (Arithmetic.fold total (operators.zip results))
      (Arithmetic.fold total (operators.zip others)) := by
  induction pairs generalizing total operators with
  | nil =>
      rw [List.zip_nil_right]
      exact respected.refl _
  | @cons result other results others head _ inductionHypothesis =>
      cases operators with
      | nil => exact respected.refl _
      | cons operator operators =>
          rw [List.zip_cons_cons, List.zip_cons_cons]
          obtain ⟨place, result⟩ := result
          obtain ⟨otherPlace, other⟩ := other
          obtain ⟨samePlace, sameResult⟩ := head
          cases result with
          | error error =>
              cases other with
              | error otherError => exact sameResult
              | ok value => exact respected.made_good sameResult _
          | ok value =>
              obtain ⟨otherValue, rfl, number, _⟩ := respected.exists_value sameResult
              rw [Arithmetic.fold, Arithmetic.fold, number]
              obtain ⟨next, applied⟩ | divides := operator.apply_cases total value.asNumber
              · simp only [applied]
                exact inductionHypothesis next operators
              · simp only [divides]
                exact respected.division samePlace

/-- Computations with related results at related places are related. -/
theorem arithmetic_combine
    (operators : List Arithmetic)
    {results others : List (Span × Except RuleError Value)}
    (pairs : results.Forall₂ (fun one other => places one.1 other.1 ∧ related one.2 other.2)
      others) :
    related (Arithmetic.combine operators results) (Arithmetic.combine operators others) := by
  cases pairs with
  | nil => exact respected.refl _
  | @cons result other results others head pairs =>
      obtain ⟨place, result⟩ := result
      obtain ⟨otherPlace, other⟩ := other
      obtain ⟨_, sameResult⟩ := head
      cases result with
      | error error =>
          cases other with
          | error otherError => exact sameResult
          | ok value => exact respected.made_good sameResult _
      | ok value =>
          obtain ⟨otherValue, rfl, number, _⟩ := respected.exists_value sameResult
          rw [Arithmetic.combine, Arithmetic.combine, number]
          exact respected.arithmetic_fold _ operators pairs

end Respected

/-! ## Whole trees -/

namespace Expr

/-- Two trees are built alike from related parts when they are the same but for these parts. -/
inductive BuiltAlike (parts : Expr → Expr → Prop) : Expr → Expr → Prop
  | part {tree other : Expr} (related : parts tree other) : BuiltAlike parts tree other
  | group {inner other : Expr} {place : Span} :
      BuiltAlike parts inner other →
      BuiltAlike parts (.group inner place) (.group other place)
  | negation {inner other : Expr} {place : Span} :
      BuiltAlike parts inner other →
      BuiltAlike parts (.negation inner place) (.negation other place)
  | logical {connective : Connective} {operands others : List Expr} :
      operands.length = others.length →
      (∀ pair ∈ operands.zip others, BuiltAlike parts pair.1 pair.2) →
      BuiltAlike parts (.logical connective operands) (.logical connective others)
  | comparison {operands others : List Expr} {operators : List Comparison} :
      operands.length = others.length →
      (∀ pair ∈ operands.zip others, BuiltAlike parts pair.1 pair.2) →
      BuiltAlike parts (.comparison operands operators) (.comparison others operators)
  | arithmetic {operands others : List Expr} {operators : List Arithmetic} :
      operands.length = others.length →
      (∀ pair ∈ operands.zip others, BuiltAlike parts pair.1 pair.2) →
      BuiltAlike parts (.arithmetic operands operators) (.arithmetic others operators)

section Parts

variable {parts : Expr → Expr → Prop}

mutual

/-- A tree is built like itself from leaves that are related to themselves. -/
theorem builtAlike_self :
    (tree : Expr) →
      (∀ operand place,
        .leaf operand place ∈ tree.nodes → parts (.leaf operand place) (.leaf operand place)) →
      BuiltAlike parts tree tree
  | .leaf operand place, leaves => .part (leaves operand place List.mem_cons_self)
  | .group inner _, leaves =>
      .group (inner.builtAlike_self fun operand place member =>
        leaves operand place (List.mem_cons_of_mem _ member))
  | .negation inner _, leaves =>
      .negation (inner.builtAlike_self fun operand place member =>
        leaves operand place (List.mem_cons_of_mem _ member))
  | .logical _ operands, leaves =>
      .logical rfl (builtAlike_zip_self operands fun operand place member =>
        leaves operand place (List.mem_cons_of_mem _ member))
  | .comparison operands _, leaves =>
      .comparison rfl (builtAlike_zip_self operands fun operand place member =>
        leaves operand place (List.mem_cons_of_mem _ member))
  | .arithmetic operands _, leaves =>
      .arithmetic rfl (builtAlike_zip_self operands fun operand place member =>
        leaves operand place (List.mem_cons_of_mem _ member))

theorem builtAlike_zip_self :
    (operands : List Expr) →
      (∀ operand place,
        .leaf operand place ∈ nodesAll operands →
          parts (.leaf operand place) (.leaf operand place)) →
      ∀ pair ∈ operands.zip operands, BuiltAlike parts pair.1 pair.2
  | [], _ => by simp
  | first :: rest, leaves =>
      List.forall_mem_cons.mpr
        ⟨first.builtAlike_self fun operand place member =>
            leaves operand place (List.mem_append_left _ member),
          builtAlike_zip_self rest fun operand place member =>
            leaves operand place (List.mem_append_right _ member)⟩

end

/-- Trees that are built alike from parts at the same places stand at the same place. -/
theorem BuiltAlike.span_eq
    {tree other : Expr}
    (alike : BuiltAlike parts tree other)
    (same : ∀ {tree other}, parts tree other → tree.span = other.span) :
    tree.span = other.span := by
  have spans {operands others : List Expr} (length : operands.length = others.length)
      (equal : ∀ pair ∈ operands.zip others, pair.1.span = pair.2.span) :
      operands.map span = others.map span := by
    rw [← List.forall₂_eq_eq_eq, List.forall₂_map_left_iff, List.forall₂_map_right_iff]
    exact List.forall₂_iff_zip.mpr ⟨length, equal _⟩
  induction alike with
  | part related => exact same related
  | group => rfl
  | negation => rfl
  | logical length _ inductionHypothesis =>
      rw [span_logical, span_logical, spans length inductionHypothesis]
  | comparison length _ inductionHypothesis =>
      rw [span_comparison, span_comparison, spans length inductionHypothesis]
  | arithmetic length _ inductionHypothesis =>
      rw [span_arithmetic, span_arithmetic, spans length inductionHypothesis]

end Parts

section Results

variable
  {places : Span → Span → Prop}
  {related : Except RuleError Value → Except RuleError Value → Prop}
  {context otherContext : Context}

/-- Trees that are built alike have related results when their parts have, provided that trees
which are built alike stand at related places. -/
theorem BuiltAlike.eval_related
    {parts : Expr → Expr → Prop}
    {tree other : Expr}
    (alike : BuiltAlike parts tree other)
    (respected : Respected places related)
    (stands : ∀ {tree other}, BuiltAlike parts tree other → places tree.span other.span)
    (results : ∀ {tree other},
      parts tree other → related (tree.eval context) (other.eval otherContext)) :
    related (tree.eval context) (other.eval otherContext) := by
  have evaluated {operands others : List Expr} (length : operands.length = others.length)
      (pairs : ∀ pair ∈ operands.zip others,
        related (pair.1.eval context) (pair.2.eval otherContext)) :
      (operands.map (eval context)).Forall₂ related (others.map (eval otherContext)) := by
    rw [List.forall₂_map_left_iff, List.forall₂_map_right_iff]
    exact List.forall₂_iff_zip.mpr ⟨length, pairs _⟩
  induction alike with
  | part same => exact results same
  | group _ inductionHypothesis => exact inductionHypothesis
  | negation _ inductionHypothesis =>
      rw [eval_negation, eval_negation]
      exact respected.map_not inductionHypothesis
  | logical length _ inductionHypothesis =>
      rw [eval_logical, eval_logical]
      exact respected.connective_combine _ (evaluated length inductionHypothesis)
  | comparison length _ inductionHypothesis =>
      rw [eval_comparison, eval_comparison]
      exact respected.comparison_combine _ (evaluated length inductionHypothesis)
  | arithmetic length alike inductionHypothesis =>
      rw [eval_arithmetic, eval_arithmetic]
      refine respected.arithmetic_combine _ ?_
      rw [List.forall₂_map_left_iff, List.forall₂_map_right_iff]
      exact List.forall₂_iff_zip.mpr
        ⟨length, fun member => ⟨stands (alike _ member), inductionHypothesis _ member⟩⟩

/-- The results of a tree in two contexts are related when those of its variables are. -/
theorem eval_related
    (respected : Respected places related)
    (stays : ∀ place, places place place)
    (tree : Expr)
    (named : ∀ name place,
      .leaf (.variable name) place ∈ tree.nodes →
        related ((Operand.variable name).value context place)
          ((Operand.variable name).value otherContext place)) :
    related (tree.eval context) (tree.eval otherContext) := by
  let parts (tree other : Expr) : Prop :=
    tree = other ∧ related (tree.eval context) (other.eval otherContext)
  have alike : BuiltAlike parts tree tree := by
    refine tree.builtAlike_self fun operand place member => ⟨rfl, ?_⟩
    cases operand with
    | literal value => exact respected.refl value
    | «variable» name => exact named name place member
  refine alike.eval_related respected (fun alike => ?_) And.right
  rw [alike.span_eq fun same => congrArg span same.1]
  exact stays _

end Results

end Expr
end DecisionRules
