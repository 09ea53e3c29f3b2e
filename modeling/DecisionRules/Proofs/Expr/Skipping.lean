import DecisionRules.Proofs.Expr.Congruence

/-!
# Skipped operands

Joined conditions are settled by the first decisive one, and a chain of comparisons is settled by
the first two neighbours that fail to compare.  The operands behind them are skipped, so that any
others may stand there.  The tree around such a run has the same result then.  Only where a division
by zero stands can change, because a divisor extends over its skipped operands, too.
-/

namespace DecisionRules

/-! ## Results of runs -/

/-- The result at an index is the first decisive one, and those before it are values. -/
structure Connective.SettledAt
    (connective : Connective)
    (results : List (Except RuleError Value))
    (index : Nat) : Prop where
  /-- The earlier results are values that are not decisive. -/
  undecided : ∀ earlier < index, ∃ value,
    results[earlier]? = some (.ok value) ∧ value.isTruthy ≠ connective.decisive
  /-- The result at the index is a decisive value. -/
  decided : ∃ value, results[index]? = some (.ok value) ∧ value.isTruthy = connective.decisive

/-- The results at an index and after it are values, and the operator between them holds or fails,
as is said. -/
def Comparison.Compares
    (operators : List Comparison)
    (results : List (Except RuleError Value))
    (index : Nat)
    (holds : Bool) : Prop :=
  ∃ operator left right,
    operators[index]? = some operator ∧
      results[index]? = some (.ok left) ∧
      results[index + 1]? = some (.ok right) ∧
      operator.holds left right = holds

/-- The result at an index and the one after it are the first neighbours that fail to compare, and
those before them are values. -/
structure Comparison.FailsAt
    (operators : List Comparison)
    (results : List (Except RuleError Value))
    (index : Nat) : Prop where
  /-- The earlier neighbours compare. -/
  compared : ∀ earlier < index, Compares operators results earlier true
  /-- The neighbours at the index do not. -/
  fails : Compares operators results index false

/-- A list with a first member begins with it. -/
theorem exists_eq_cons_of_getElem?_zero
    {members : List α}
    {first : α}
    (begins : members[0]? = some first) :
    ∃ rest, members = first :: rest :=
  List.head?_eq_some_iff.mp (List.head?_eq_getElem?.trans begins)

/-- What follows the first decisive condition is skipped. -/
theorem Connective.SettledAt.combine_eq
    {connective : Connective}
    {results : List (Except RuleError Value)}
    {index : Nat}
    (settled : connective.SettledAt results index)
    (others : List (Except RuleError Value)) :
    connective.combine (results.take (index + 1) ++ others) =
      .ok (.boolean connective.decisive) := by
  induction index generalizing results with
  | zero =>
      obtain ⟨value, begins, decisive⟩ := settled.decided
      obtain ⟨rest, rfl⟩ := exists_eq_cons_of_getElem?_zero begins
      exact if_pos decisive
  | succ index inductionHypothesis =>
      obtain ⟨value, begins, indecisive⟩ := settled.undecided 0 (Nat.succ_pos index)
      obtain ⟨rest, rfl⟩ := exists_eq_cons_of_getElem?_zero begins
      have later : connective.SettledAt rest index :=
        ⟨fun earlier before => settled.undecided (earlier + 1) (Nat.succ_lt_succ before),
          settled.decided⟩
      exact (if_neg indecisive).trans (inductionHypothesis later)

/-- What follows the first neighbours that fail to compare is skipped. -/
theorem Comparison.FailsAt.combine_eq
    {operators : List Comparison}
    {results : List (Except RuleError Value)}
    {index : Nat}
    (settled : FailsAt operators results index)
    (others : List (Except RuleError Value)) :
    Comparison.combine operators (results.take (index + 2) ++ others) = .ok (.boolean false) := by
  induction index generalizing operators results with
  | zero =>
      obtain ⟨operator, left, right, stands, begins, next, fails⟩ := settled.fails
      obtain ⟨operators, rfl⟩ := exists_eq_cons_of_getElem?_zero stands
      obtain ⟨rest, rfl⟩ := exists_eq_cons_of_getElem?_zero begins
      obtain ⟨rest, rfl⟩ := exists_eq_cons_of_getElem?_zero next
      exact if_neg (Bool.eq_false_iff.mp fails)
  | succ index inductionHypothesis =>
      obtain ⟨operator, left, right, stands, begins, next, holds⟩ :=
        settled.compared 0 (Nat.succ_pos index)
      obtain ⟨operators, rfl⟩ := exists_eq_cons_of_getElem?_zero stands
      obtain ⟨rest, rfl⟩ := exists_eq_cons_of_getElem?_zero begins
      obtain ⟨rest, rfl⟩ := exists_eq_cons_of_getElem?_zero next
      -- The chain goes on from the second value with the remaining operators.
      have later : FailsAt operators (.ok right :: rest) index :=
        ⟨fun earlier before => settled.compared (earlier + 1) (Nat.succ_lt_succ before),
          settled.fails⟩
      exact (if_pos holds).trans (inductionHypothesis later)

/-! ## Trees -/

/-- Results that are the same, except that divisions by zero may stand at different places. -/
inductive SameButDivisor : Except RuleError Value → Except RuleError Value → Prop
  | same (result : Except RuleError Value) : SameButDivisor result result
  | division (place other : Span) :
      SameButDivisor (.error (.divisionByZero place)) (.error (.divisionByZero other))

/-- Runs respect that results are the same but for places of divisions by zero, wherever their
operands stand. -/
theorem respected_sameButDivisor : Respected (fun _ _ => True) SameButDivisor := by
  refine ⟨fun value => .same (.ok value), ?_, ?_, fun _ => .division _ _⟩
  · intro value result same
    cases same
    exact ⟨value, rfl, rfl, rfl⟩
  · intro error value same
    cases same

namespace Expr

/-- The operands of a run as far as an index settle it in a context. -/
inductive SettledAt (context : Context) : Expr → Nat → Prop
  /-- The condition at the index is the first decisive one. -/
  | logical
      {connective : Connective}
      {operands : List Expr}
      {index : Nat}
      (settled : connective.SettledAt (operands.map (eval context)) index) :
      SettledAt context (.logical connective operands) index
  /-- The operand at the index is the second one of the first neighbours that fail to compare. -/
  | comparison
      {operands : List Expr}
      {operators : List Comparison}
      {index : Nat}
      (settled : Comparison.FailsAt operators (operands.map (eval context)) index) :
      SettledAt context (.comparison operands operators) (index + 1)

/-- A run of conditions or comparisons with other operands after the one at an index. -/
def exchangeAfter (index : Nat) (others : List Expr) : Expr → Expr
  | .logical connective operands => .logical connective (operands.take (index + 1) ++ others)
  | .comparison operands operators => .comparison (operands.take (index + 1) ++ others) operators
  | tree => tree

/-- A run may have any operands after those that settle it. -/
theorem SettledAt.eval_exchangeAfter
    {context : Context}
    {tree : Expr}
    {index : Nat}
    (settled : tree.SettledAt context index)
    (others : List Expr) :
    (tree.exchangeAfter index others).eval context = tree.eval context := by
  cases settled with
  | @logical connective operands _ settled =>
      rw [exchangeAfter, eval_logical, eval_logical, List.map_append, List.map_take,
        settled.combine_eq, ← List.take_append_drop (index + 1) (operands.map (eval context)),
        settled.combine_eq]
  | @comparison operands operators index settled =>
      rw [exchangeAfter, eval_comparison, eval_comparison, List.map_append, List.map_take,
        settled.combine_eq, ← List.take_append_drop (index + 2) (operands.map (eval context)),
        settled.combine_eq]

/-- Two trees of which the second one is the first one, or the same run with other operands after
those that settle it. -/
inductive Exchanged (context : Context) : Expr → Expr → Prop
  | same (tree : Expr) : Exchanged context tree tree
  | skipped
      {tree : Expr}
      {index : Nat}
      (settled : tree.SettledAt context index)
      (others : List Expr) :
      Exchanged context tree (tree.exchangeAfter index others)

/-- Skipped operands do not matter.  When some runs of a tree are settled in a context by their
operands as far as an index, and other operands stand behind these, whichever and however many, then
the result of the tree stays the same there.  Only a division by zero may stand somewhere else. -/
theorem sameButDivisor_of_exchanged
    {context : Context}
    {tree other : Expr}
    (exchanged : BuiltAlike (Exchanged context) tree other) :
    SameButDivisor (tree.eval context) (other.eval context) := by
  refine exchanged.eval_related respected_sameButDivisor (fun _ => trivial) fun exchanged => ?_
  cases exchanged with
  | same => exact .same _
  | skipped settled others =>
      rw [settled.eval_exchangeAfter others]
      exact .same _

/-- A division by the chain `2 < 1 < q`, of which `q` is skipped, fails as the one by
`2 < 1 < karma` does, but stands somewhere else. -/
theorem sameButDivisor_of_exchanged_of_chain :
    (Expr.arithmetic
        [.leaf (.literal (.number 8)) ⟨0, 1⟩,
          .comparison
            [.leaf (.literal (.number 2)) ⟨4, 5⟩, .leaf (.literal (.number 1)) ⟨8, 9⟩,
              .leaf (.variable "q") ⟨12, 13⟩]
            [.less, .less]]
        [.divide]).eval (fun _ => none) = .error (.divisionByZero ⟨4, 13⟩) ∧
      SameButDivisor (.error (.divisionByZero ⟨4, 13⟩))
        ((Expr.arithmetic
          [.leaf (.literal (.number 8)) ⟨0, 1⟩,
            .comparison
              [.leaf (.literal (.number 2)) ⟨4, 5⟩, .leaf (.literal (.number 1)) ⟨8, 9⟩,
                .leaf (.variable "karma") ⟨12, 17⟩]
              [.less, .less]]
          [.divide]).eval fun _ => none) := by
  have divides : (Expr.arithmetic
      [.leaf (.literal (.number 8)) ⟨0, 1⟩,
        .comparison
          [.leaf (.literal (.number 2)) ⟨4, 5⟩, .leaf (.literal (.number 1)) ⟨8, 9⟩,
            .leaf (.variable "q") ⟨12, 13⟩]
          [.less, .less]]
      [.divide]).eval (fun _ => none) = .error (.divisionByZero ⟨4, 13⟩) :=
    eq_error_of_errorOf?_eq_some (by decide +kernel)
  refine ⟨divides, ?_⟩
  rw [← divides]
  apply sameButDivisor_of_exchanged
  refine .arithmetic rfl ?_
  simp only [List.zip_cons_cons, List.zip_nil_right, List.mem_cons, List.not_mem_nil, or_false,
    forall_eq_or_imp, forall_eq]
  refine ⟨.part (.same _), .part (@Exchanged.skipped _ _ 1 (.comparison ⟨?_, ?_⟩)
    [.leaf (.variable "karma") ⟨12, 17⟩])⟩
  · simp
  · exact ⟨.less, .number 2, .number 1, rfl, rfl, rfl, by decide +kernel⟩

end Expr
end DecisionRules
