import DecisionRules.Proofs.Engine.Fallback
import DecisionRules.Proofs.Expr.Congruence

/-!
# Truth values as numbers

Rules compare and compute with what values count for, and whether a value is true depends on nothing
else.  So a rule does not tell a truth value from the number that it counts as, be it a literal of
the rule or a fact: the results count for the same, and errors are the same errors.
-/

namespace DecisionRules

/-- Whether a value is true depends on the number that it counts as. -/
theorem Value.isTruthy_eq (value : Value) : value.isTruthy = (value.asNumber != 0) := by
  cases value with
  | number value => rfl
  | boolean value => exact (ofBool_ne_zero value).symm

/-- Results that fail with the same error, or count for the same. -/
def CountAlike (result other : Except RuleError Value) : Prop :=
  result.map Value.asNumber = other.map Value.asNumber

namespace CountAlike

variable {result other : Except RuleError Value}

/-- What counts for the same as an error is that error. -/
theorem eq_error_iff (alike : CountAlike result other) (error : RuleError) :
    result = .error error ↔ other = .error error := by
  constructor
  · rintro rfl
    exact eq_error_of_map_eq_error alike.symm
  · rintro rfl
    exact eq_error_of_map_eq_error alike

/-- What counts for the same as a value is a value that is true where that one is. -/
theorem exists_value
    (alike : CountAlike result other)
    {value : Value}
    (succeeds : result = .ok value) :
    ∃ otherValue,
      other = .ok otherValue ∧
        otherValue.asNumber = value.asNumber ∧ otherValue.isTruthy = value.isTruthy := by
  subst succeeds
  obtain ⟨otherValue, succeeds, number⟩ := exists_ok_of_map_eq_ok alike.symm
  refine ⟨otherValue, succeeds, number, ?_⟩
  rw [Value.isTruthy_eq, Value.isTruthy_eq, number]

/-- Results that count for the same are checked alike. -/
theorem map_isTruthy_eq (alike : CountAlike result other) :
    result.map Value.isTruthy = other.map Value.isTruthy := by
  cases result with
  | error error => rw [(alike.eq_error_iff error).mp rfl]
  | ok value =>
      obtain ⟨otherValue, rfl, _, truthy⟩ := alike.exists_value rfl
      exact congrArg Except.ok truthy.symm

end CountAlike

/-- Runs respect what results count for. -/
theorem respected_countAlike : Respected Eq CountAlike := by
  refine ⟨fun value => rfl, fun alike => alike.exists_value rfl, ?_, ?_⟩
  · intro error value alike
    cases alike
  · rintro place _ rfl
    rfl

/-- A context that differs from another one in that some truth values are numbers. -/
def Context.Counts (counted context : Context) : Prop :=
  ∀ name,
    counted name = context name ∨
      ∃ value,
        context name = some (.boolean value) ∧
          counted name = some (.number (Value.ofBool value))

namespace Expr

/-- Two leaves of which the second one is the first one, or a number for a truth value. -/
inductive Counted : Expr → Expr → Prop
  | same (operand : Operand) (place : Span) :
      Counted (.leaf operand place) (.leaf operand place)
  | counted (value : Bool) (place : Span) :
      Counted
        (.leaf (.literal (.boolean value)) place)
        (.leaf (.literal (.number (Value.ofBool value))) place)

/-- Leaves count for the same when truth values are numbers. -/
theorem Counted.eval_countAlike
    {context counted : Context}
    (facts : counted.Counts context)
    {leaf other : Expr}
    (leaves : Counted leaf other) :
    CountAlike (leaf.eval context) (other.eval counted) := by
  cases leaves with
  | same operand place =>
      cases operand with
      | literal value => rfl
      | «variable» name =>
          rw [eval_leaf, eval_leaf, Operand.value, Operand.value]
          obtain same | ⟨value, bound, number⟩ := facts name
          · rw [same]
            rfl
          · rw [bound, number]
            rfl
  | counted value place => rfl

/-- Trees count for the same when truth values are numbers. -/
theorem BuiltAlike.eval_countAlike
    {context counted : Context}
    (facts : counted.Counts context)
    {tree other : Expr}
    (alike : BuiltAlike Counted tree other) :
    CountAlike (tree.eval context) (other.eval counted) := by
  refine alike.eval_related respected_countAlike (fun alike => ?_) fun leaves =>
    leaves.eval_countAlike facts
  refine alike.span_eq fun leaves => ?_
  cases leaves <;> rfl

end Expr

namespace Engine

/-- Truth values and the numbers one and zero can be exchanged.  When some truth values among the
literals of a rule and some among the facts are numbers instead, the rule fails with the same error
at the same place, or it has a value that counts for the same number and is true in the same cases.
So a check comes out the same, and every engine comes to the same decision on a text, with the same
verdict, reached in the same way. -/
theorem interchange_of_counted
    {context counted : Context}
    (facts : counted.Counts context) :
    (∀ tree other : Expr,
      Expr.BuiltAlike Expr.Counted tree other →
        (∀ error, tree.eval context = .error error ↔ other.eval counted = .error error) ∧
        ∀ value,
          tree.eval context = .ok value →
            ∃ otherValue,
              other.eval counted = .ok otherValue ∧
                otherValue.asNumber = value.asNumber ∧
                otherValue.isTruthy = value.isTruthy) ∧
    (∀ rule other : Rule,
      Expr.BuiltAlike Expr.Counted rule.tree other.tree →
        rule.check context = other.check counted) ∧
    ∀ (engine : Engine) (source : String),
      engine.decide source context = engine.decide source counted := by
  refine ⟨fun tree other alike => ?_, fun rule other alike => ?_, fun engine source => ?_⟩
  · have counts := alike.eval_countAlike facts
    exact ⟨counts.eq_error_iff, fun value => counts.exists_value⟩
  · exact (alike.eval_countAlike facts).map_isTruthy_eq
  · refine engine.decide_congr (fun text => ?_) source
    rw [check_eq, check_eq]
    cases Expr.parse engine.settings.vocabulary engine.settings.maxDepth text with
    | error error => rfl
    | ok tree =>
        have itself := tree.builtAlike_self fun operand place _ => Expr.Counted.same operand place
        exact (itself.eval_countAlike facts).map_isTruthy_eq

/-- The quotient `true / A` divides by zero where `A` is false, and so does `1 / A` where `A` is
zero.  The rule `days < true` is decided in the same way in both contexts. -/
theorem interchange_of_counted_of_quotient :
    (Expr.arithmetic
        [.leaf (.literal (.boolean true)) ⟨0, 4⟩, .leaf (.variable "A") ⟨7, 8⟩]
        [.divide]).eval (fun _ => some (.boolean false)) = .error (.divisionByZero ⟨7, 8⟩) ∧
      (Expr.arithmetic
        [.leaf (.literal (.number 1)) ⟨0, 4⟩, .leaf (.variable "A") ⟨7, 8⟩]
        [.divide]).eval (fun _ => some (.number 0)) = .error (.divisionByZero ⟨7, 8⟩) ∧
      standard.decide "days < true" (fun _ => some (.boolean false)) =
        standard.decide "days < true" fun _ => some (.number 0) := by
  have facts : Context.Counts (fun _ => some (.number 0)) fun _ => some (.boolean false) :=
    fun _ => .inr ⟨false, rfl, rfl⟩
  have alike : Expr.BuiltAlike Expr.Counted
      (.arithmetic
        [.leaf (.literal (.boolean true)) ⟨0, 4⟩, .leaf (.variable "A") ⟨7, 8⟩] [.divide])
      (.arithmetic
        [.leaf (.literal (.number 1)) ⟨0, 4⟩, .leaf (.variable "A") ⟨7, 8⟩] [.divide]) := by
    refine .arithmetic rfl ?_
    simp only [List.zip_cons_cons, List.zip_nil_right, List.mem_cons, List.not_mem_nil, or_false,
      forall_eq_or_imp, forall_eq]
    exact ⟨.part (.counted true _), .part (.same _ _)⟩
  have divides : (Expr.arithmetic
      [.leaf (.literal (.boolean true)) ⟨0, 4⟩, .leaf (.variable "A") ⟨7, 8⟩]
      [.divide]).eval (fun _ => some (.boolean false)) = .error (.divisionByZero ⟨7, 8⟩) :=
    eq_error_of_errorOf?_eq_some (by decide +kernel)
  obtain ⟨results, _, decisions⟩ := interchange_of_counted facts
  exact ⟨divides, ((results _ _ alike).1 _).mp divides, decisions standard _⟩

end Engine
end DecisionRules
