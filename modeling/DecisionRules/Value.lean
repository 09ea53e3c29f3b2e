import DecisionRules.Decimal.Shortest

/-!
# Values of facts

A fact is a number or a truth value.  Each kind can be taken for the other: a truth value
counts as one or zero, and every number but zero counts as true, what is not a number included.
-/

namespace DecisionRules

/-- What a rule sees of a fact. -/
inductive Value
  /-- A double. -/
  | number (value : Float)
  /-- A truth value. -/
  | boolean (value : Bool)
  deriving DecidableEq

namespace Value

/-- The number that a truth value counts as. -/
def ofBool (value : Bool) : Float :=
  if value then 1 else 0

/-- A value taken as a number. -/
def asNumber : Value → Float
  | .number value => value
  | .boolean value => ofBool value

/-- A value taken as a truth value. -/
def isTruthy : Value → Bool
  | .number value => value != 0
  | .boolean value => value

/-- The text of a value. -/
def text : Value → String
  | .number value => String.ofList (Decimal.text value)
  | .boolean value => if value then "true" else "false"

@[simp] theorem asNumber_number (value : Float) : (number value).asNumber = value := rfl

@[simp] theorem asNumber_boolean (value : Bool) : (boolean value).asNumber = ofBool value := rfl

@[simp] theorem isTruthy_number (value : Float) : (number value).isTruthy = (value != 0) := rfl

@[simp] theorem isTruthy_boolean (value : Bool) : (boolean value).isTruthy = value := rfl

/-- Both ways to take a truth value agree. -/
theorem ofBool_ne_zero (value : Bool) : (ofBool value != 0) = value := by
  cases value <;> decide +kernel

end Value
end DecisionRules
