import DecisionRules.Rule

/-!
# Settings of an engine

Settings name the rule to fall back on, the variables that rules may use, and how deep rules
may be nested.
-/

namespace DecisionRules

/-- The settings of an engine, each with its default. -/
structure Settings where
  /-- The rule that decides when another one cannot be read or evaluated. -/
  defaultRule : String := "(followers_count < 5) or (days < 180)"
  /-- The variables that rules may name. -/
  vocabulary : Vocabulary := .standard
  /-- How deep parentheses and negations may be nested. -/
  maxDepth : Nat := 64
  deriving DecidableEq

namespace Settings

/-- The settings in which nothing departs from its default. -/
def standard : Settings := {}

/-- Reads a rule as the settings ask for. -/
def parse (settings : Settings) (source : String) : Except RuleError Rule :=
  Rule.parse settings.vocabulary settings.maxDepth source

end Settings
end DecisionRules
