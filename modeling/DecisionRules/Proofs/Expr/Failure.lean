import DecisionRules.Expr.Evaluation
import DecisionRules.Proofs.Expr.Nodes

/-!
# Why trees fail

A tree fails in a context for one of two reasons: one of its variables is not bound, or one of its
divisors is zero.  The results of a run fail with the error of an operand, or else at a division;
that a failure has one of the two reasons follows by induction on the tree.
-/

namespace DecisionRules

/-! ## Results of runs -/

section Results

variable {error : RuleError}

/-- Joined results fail with the error of an operand. -/
theorem Connective.mem_of_combine_eq_error
    {connective : Connective}
    {results : List (Except RuleError Value)}
    (fails : connective.combine results = .error error) :
    .error error ∈ results := by
  induction results with
  | nil => cases fails
  | cons result rest inductionHypothesis =>
      cases result with
      | error found =>
          cases fails
          exact List.mem_cons_self
      | ok value =>
          rw [combine] at fails
          split at fails
          · cases fails
          · exact List.mem_cons_of_mem _ (inductionHypothesis fails)

/-- A chain with a value to start from fails with the error of an operand. -/
theorem Comparison.exists_of_chain_eq_error
    {previous : Value}
    {later : List (Comparison × Except RuleError Value)}
    (fails : chain previous later = .error error) :
    ∃ operator, (operator, .error error) ∈ later := by
  induction later generalizing previous with
  | nil => cases fails
  | cons next rest inductionHypothesis =>
      obtain ⟨operator, result⟩ := next
      cases result with
      | error found =>
          cases fails
          exact ⟨operator, List.mem_cons_self⟩
      | ok value =>
          rw [chain] at fails
          split at fails
          · obtain ⟨other, member⟩ := inductionHypothesis fails
            exact ⟨other, List.mem_cons_of_mem _ member⟩
          · cases fails

/-- A chain fails with the error of an operand. -/
theorem Comparison.mem_of_combine_eq_error
    {operators : List Comparison}
    {results : List (Except RuleError Value)}
    (fails : Comparison.combine operators results = .error error) :
    .error error ∈ results := by
  cases results with
  | nil => cases fails
  | cons result rest =>
      cases result with
      | error found =>
          cases fails
          exact List.mem_cons_self
      | ok first =>
          obtain ⟨operator, member⟩ := exists_of_chain_eq_error fails
          exact List.mem_cons_of_mem _ (List.of_mem_zip member).2

/-- A step of a computation fails where it divides by zero. -/
theorem Arithmetic.eq_of_apply_eq_error
    {operator : Arithmetic}
    {total number : Float}
    {place : Span}
    (fails : operator.apply total number place = .error error) :
    operator = .divide ∧ (number == 0) = true ∧ error = .divisionByZero place := by
  cases operator with
  | divide =>
      rw [apply] at fails
      split at fails
      next zero => exact ⟨rfl, zero, (Except.error.inj fails).symm⟩
      next => cases fails
  | _ => cases fails

/-- A computation with a number to start from fails with the error of an operand or at a
division by zero. -/
theorem Arithmetic.exists_of_fold_eq_error
    {total : Float}
    {later : List (Arithmetic × Span × Except RuleError Value)}
    (fails : fold total later = .error error) :
    (∃ operator place, (operator, place, .error error) ∈ later) ∨
      ∃ place value,
        (.divide, place, .ok value) ∈ later ∧
          (value.asNumber == 0) = true ∧ error = .divisionByZero place := by
  induction later generalizing total with
  | nil => cases fails
  | cons next rest inductionHypothesis =>
      obtain ⟨operator, place, result⟩ := next
      cases result with
      | error found =>
          cases fails
          exact .inl ⟨operator, place, List.mem_cons_self⟩
      | ok value =>
          rw [fold] at fails
          split at fails
          next found applied =>
            cases fails
            obtain ⟨rfl, zero, same⟩ := eq_of_apply_eq_error applied
            exact .inr ⟨place, value, List.mem_cons_self, zero, same⟩
          next =>
            obtain ⟨other, otherPlace, member⟩ | ⟨otherPlace, other, member, zero, same⟩ :=
              inductionHypothesis fails
            · exact .inl ⟨other, otherPlace, List.mem_cons_of_mem _ member⟩
            · exact .inr ⟨otherPlace, other, List.mem_cons_of_mem _ member, zero, same⟩

end Results

/-! ## Whole trees -/

namespace Expr

/-- A tree is a divisor in another one when it stands after a sign of division there. -/
def HasDivisor (tree divisor : Expr) : Prop :=
  ∃ first rest operators,
    .arithmetic (first :: rest) operators ∈ tree.nodes ∧ (.divide, divisor) ∈ operators.zip rest

/-- The reasons for which a tree fails in a context. -/
inductive Failure (context : Context) (tree : Expr) : RuleError → Prop
  /-- A variable of the tree is not bound. -/
  | unbound
      {name : String}
      {place : Span}
      (member : .leaf (.variable name) place ∈ tree.nodes)
      (unbound : context name = none) :
      Failure context tree (.unknownVariable name place)
  /-- A divisor of the tree is zero. -/
  | division
      {divisor : Expr}
      {value : Value}
      (divides : tree.HasDivisor divisor)
      (evaluates : divisor.eval context = .ok value)
      (zero : (value.asNumber == 0) = true) :
      Failure context tree (.divisionByZero divisor.span)

variable {context : Context} {error : RuleError}

/-- A part of a tree fails for a reason in the tree. -/
theorem Failure.mono
    {part tree : Expr}
    (failure : Failure context part error)
    (within : part.nodes ⊆ tree.nodes) :
    Failure context tree error := by
  cases failure with
  | unbound member unbound => exact .unbound (within member) unbound
  | division divides evaluates zero =>
      obtain ⟨first, rest, operators, member, stands⟩ := divides
      exact .division ⟨first, rest, operators, within member, stands⟩ evaluates zero

/-- The nodes of an operand are nodes of its run. -/
theorem nodes_subset_of_mem_operands
    {tree operand : Expr}
    (member : operand ∈ tree.operands) :
    operand.nodes ⊆ tree.nodes := by
  have inside {operands : List Expr} (member : operand ∈ operands) :
      operand.nodes ⊆ nodesAll operands := by
    rw [nodesAll_eq_flatMap]
    exact fun node inside => List.mem_flatMap.mpr ⟨operand, member, inside⟩
  cases tree with
  | logical connective operands => exact List.subset_cons_of_subset _ (inside member)
  | comparison operands operators => exact List.subset_cons_of_subset _ (inside member)
  | arithmetic operands operators => exact List.subset_cons_of_subset _ (inside member)
  | _ => cases member

/-- A run of computations fails with an operand or at a division by zero. -/
theorem failure_of_eval_arithmetic
    {operands : List Expr}
    {operators : List Arithmetic}
    (inner : ∀ operand ∈ operands,
      operand.eval context = .error error → Failure context operand error)
    (fails : (arithmetic operands operators).eval context = .error error) :
    Failure context (arithmetic operands operators) error := by
  rw [eval_arithmetic] at fails
  cases operands with
  | nil => cases fails
  | cons first rest =>
      have failsInner (operand : Expr) (member : operand ∈ first :: rest)
          (fails : operand.eval context = .error error) :
          Failure context (arithmetic (first :: rest) operators) error :=
        (inner operand member fails).mono (nodes_subset_of_mem_operands member)
      cases result : first.eval context with
      | error found =>
          rw [List.map_cons, result] at fails
          cases fails
          exact failsInner first List.mem_cons_self result
      | ok value =>
          rw [List.map_cons, result, Arithmetic.combine, List.zip_map_right] at fails
          obtain ⟨operator, place, member⟩ | ⟨place, value, member, zero, rfl⟩ :=
            Arithmetic.exists_of_fold_eq_error fails
          · obtain ⟨⟨_, operand⟩, memberZip, same⟩ := List.mem_map.mp member
            simp only [Prod.map, Prod.mk.injEq] at same
            obtain ⟨_, _, failsOperand⟩ := same
            exact failsInner operand (List.mem_cons_of_mem _ (List.of_mem_zip memberZip).2)
              failsOperand
          · obtain ⟨⟨_, divisor⟩, memberZip, same⟩ := List.mem_map.mp member
            simp only [Prod.map, id, Prod.mk.injEq] at same
            obtain ⟨rfl, rfl, evaluates⟩ := same
            exact .division ⟨first, rest, operators, List.mem_cons_self, memberZip⟩ evaluates zero

mutual

/-- A tree fails for one of the two reasons. -/
theorem failure_of_eval_eq_error :
    (tree : Expr) → tree.eval context = .error error → Failure context tree error
  | .leaf operand place, fails => by
      cases operand with
      | literal value => cases fails
      | «variable» name =>
          cases bound : context name with
          | some value =>
              simp only [eval_leaf, Operand.value, bound] at fails
              cases fails
          | none =>
              simp only [eval_leaf, Operand.value, bound] at fails
              cases fails
              exact .unbound List.mem_cons_self bound
  | .group inner place, fails =>
      (failure_of_eval_eq_error inner fails).mono (List.subset_cons_self ..)
  | .negation inner place, fails => by
      cases result : inner.eval context with
      | error found =>
          rw [eval_negation, result] at fails
          cases fails
          exact (failure_of_eval_eq_error inner result).mono (List.subset_cons_self ..)
      | ok value =>
          rw [eval_negation, result] at fails
          cases fails
  | .logical connective operands, fails => by
      rw [eval_logical] at fails
      obtain ⟨operand, member, failsInner⟩ :=
        List.mem_map.mp (Connective.mem_of_combine_eq_error fails)
      exact (failure_of_mem operands operand member failsInner).mono
        (nodes_subset_of_mem_operands member)
  | .comparison operands operators, fails => by
      rw [eval_comparison] at fails
      obtain ⟨operand, member, failsInner⟩ :=
        List.mem_map.mp (Comparison.mem_of_combine_eq_error fails)
      exact (failure_of_mem operands operand member failsInner).mono
        (nodes_subset_of_mem_operands member)
  | .arithmetic operands operators, fails =>
      failure_of_eval_arithmetic (failure_of_mem operands) fails

theorem failure_of_mem :
    (operands : List Expr) →
      ∀ operand ∈ operands, operand.eval context = .error error → Failure context operand error
  | [] => by simp
  | first :: rest =>
      List.forall_mem_cons.mpr ⟨failure_of_eval_eq_error first, failure_of_mem rest⟩

end

end Expr
end DecisionRules
