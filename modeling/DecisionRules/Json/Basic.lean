import DecisionRules.Decimal.Numeral

/-!
# JSON values

A JSON value as it is written: numbers keep their spelling, and the members of an object keep
their order, repeated names included.
-/

namespace DecisionRules

/-- A JSON value. -/
inductive Json
  | null
  | boolean (value : Bool)
  /-- A number, in the characters that spell it. -/
  | number (literal : List Char)
  /-- A string; it has no text when an escaped surrogate in it has no partner. -/
  | string (text : Option String)
  | array (elements : List Json)
  /-- An object; the names of its members are strings. -/
  | object (members : List (Option String × Json))

namespace Json

/-- The text of a JSON string. -/
def text? : Json → Option String
  | .string text => text
  | _ => none

/-- The elements of a JSON array. -/
def elements? : Json → Option (List Json)
  | .array elements => some elements
  | _ => none

/-- The natural number that a JSON number spells without sign, point or exponent. -/
def natural? : Json → Option Nat
  | .number literal =>
    if literal.all Char.isDigit then some (Decimal.digitsValue literal) else none
  | _ => none

end Json
end DecisionRules
