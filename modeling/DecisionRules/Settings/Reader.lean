import DecisionRules.Json.Reader
import DecisionRules.Settings.Basic

/-!
# Settings in JSON

Settings are written as an object with a member for each setting, or as an array of the
settings in order.  What is not written has its default.  Members with other names are of no
account, but a setting may be written only once.
-/

namespace DecisionRules
namespace Settings

/-- The number after the largest limit of nesting. -/
def depthBound : Nat := Nat.pow 2 64

/-- The names of a vocabulary in JSON: an array of strings. -/
def vocabulary? (json : Json) : Option Vocabulary :=
  (json.elements?.bind fun elements => elements.mapM Json.text?).map Vocabulary.mk

/-- The limit of nesting in JSON: a natural number below the bound. -/
def maxDepth? (json : Json) : Option Nat :=
  json.natural?.filter (· < depthBound)

/-- A setting, which has its default when it is not written. -/
def settingOr (standard : α) (read? : Json → Option α) : Option Json → Option α
  | none => some standard
  | some json => read? json

/-- The settings of which some are written. -/
def ofParts? (defaultRule vocabulary maxDepth : Option Json) : Option Settings := do
  let defaultRule ← settingOr standard.defaultRule Json.text? defaultRule
  let vocabulary ← settingOr standard.vocabulary vocabulary? vocabulary
  let maxDepth ← settingOr standard.maxDepth maxDepth? maxDepth
  return ⟨defaultRule, vocabulary, maxDepth⟩

/-- The member of an object with a name, if there is one; more than one are refused. -/
def member? (name : String) (members : List (Option String × Json)) : Option (Option Json) :=
  match members.filter fun member => member.1 == some name with
  | [] => some none
  | [member] => some (some member.2)
  | _ => none

/-- The settings in JSON. -/
def ofJson? : Json → Option Settings
  | .array [] => ofParts? none none none
  | .array [defaultRule] => ofParts? (some defaultRule) none none
  | .array [defaultRule, vocabulary] => ofParts? (some defaultRule) (some vocabulary) none
  | .array [defaultRule, vocabulary, maxDepth] =>
    ofParts? (some defaultRule) (some vocabulary) (some maxDepth)
  | .object members => do
    if members.any fun member => member.1.isNone then none
    else
      let defaultRule ← member? "default_rule" members
      let vocabulary ← member? "vocabulary" members
      let maxDepth ← member? "max_depth" members
      ofParts? defaultRule vocabulary maxDepth
  | _ => none

/-- The settings that a JSON text spells. -/
def read? (text : String) : Option Settings :=
  (Json.read? text.toList).bind ofJson?

end Settings
end DecisionRules
