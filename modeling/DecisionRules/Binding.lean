import DecisionRules.Decimal.Numeral
import DecisionRules.Facts
import DecisionRules.Text.Blank
import DecisionRules.Text.LetterCase

/-!
# Bindings

A binding is a text `name=value` that binds a name to a truth value or a number.  The first
equals sign parts the name from the value, and blanks around either are of no account.
-/

namespace DecisionRules

/-- Why a text is no binding. -/
inductive BindingError
  /-- There is no equals sign. -/
  | noSeparator (argument : String)
  /-- Nothing stands before the equals sign. -/
  | noName (argument : String)
  /-- What stands after the equals sign is no value. -/
  | noValue (name value : String)
  deriving DecidableEq

/-- The wording of what is wrong with a binding. -/
def BindingError.message : BindingError → String
  | .noSeparator argument => "Expected name=value, got '" ++ argument ++ "'"
  | .noName argument => "Missing variable name in '" ++ argument ++ "'"
  | .noValue name value => "Invalid value for '" ++ name ++ "': '" ++ value ++ "'"

namespace Binding

/-- The value that a text spells: a truth value in any letter case, or a number. -/
def value? (text : String) : Option Value :=
  if Text.sameLetters text "true" then some (.boolean true)
  else if Text.sameLetters text "false" then some (.boolean false)
  else (Decimal.read? text.toList).map .number

/-- The characters before the first equals sign and those after it. -/
def split? : List Char → Option (List Char × List Char)
  | [] => none
  | char :: rest =>
    if char = '=' then some ([], rest)
    else (split? rest).map fun parts => (char :: parts.1, parts.2)

/-- Reads a binding. -/
def read (argument : String) : Except BindingError (String × Value) :=
  match split? argument.toList with
  | none => .error (.noSeparator argument)
  | some (before, after) =>
    let name := String.ofList (Text.trim before)
    let text := String.ofList (Text.trim after)
    if name = "" then .error (.noName argument)
    else
      match value? text with
      | none => .error (.noValue name text)
      | some value => .ok (name, value)

/-- Reads bindings one after another; the first one that is none is the error. -/
def readEach : List String → Except BindingError (List (String × Value))
  | [] => .ok []
  | argument :: rest =>
    match read argument with
    | .error error => .error error
    | .ok binding => (readEach rest).map (binding :: ·)

/-- The facts that bindings state, where the last binding of a name counts. -/
def readAll (arguments : List String) : Except BindingError Facts :=
  (readEach arguments).map Facts.ofList

end Binding
end DecisionRules
