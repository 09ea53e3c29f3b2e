import DecisionRules.Settings.Basic

/-!
# Decisions

An engine decides on rule texts in contexts and always reaches a verdict: where a rule cannot
be read or evaluated, the default rule decides in its place, and where that fails too, the
verdict is negative.  The default rule of an engine is known to be readable, so that it can
only fail on the facts.
-/

namespace DecisionRules

/-- How a verdict was reached. -/
inductive Outcome
  /-- The rule was evaluated. -/
  | rule
  /-- The rule failed, and the default rule was evaluated. -/
  | fallback (cause : RuleError)
  /-- The rule and the default rule both failed. -/
  | defect (cause defaultCause : RuleError)
  deriving DecidableEq

/-- A verdict and how it was reached. -/
structure Decision where
  /-- Whether the facts satisfy what decided. -/
  verdict : Bool
  /-- What decided. -/
  outcome : Outcome
  deriving DecidableEq

/-- Settings whose default rule is readable. -/
structure Engine where
  /-- The settings. -/
  settings : Settings
  /-- The default rule, read as the settings ask for. -/
  fallback : Rule
  /-- The default rule is readable. -/
  readable : settings.parse settings.defaultRule = .ok fallback

namespace Engine

/-- The engine of some settings; the default rule's error where it cannot be read. -/
def ofSettings (settings : Settings) : Except RuleError Engine :=
  match readable : settings.parse settings.defaultRule with
  | .ok fallback => .ok ⟨settings, fallback, readable⟩
  | .error error => .error error

/-- The tree of the default rule of the standard settings. -/
def standardTree : Expr :=
  .logical .or
    [.group
      (.comparison
        [.leaf (.variable "followers_count") ⟨1, 16⟩, .leaf (.literal (.number 5)) ⟨19, 20⟩]
        [.less])
      ⟨0, 21⟩,
    .group
      (.comparison
        [.leaf (.variable "days") ⟨26, 30⟩, .leaf (.literal (.number 180)) ⟨33, 36⟩]
        [.less])
      ⟨25, 37⟩]

set_option maxRecDepth 10000 in
/-- The default rule of the standard settings is readable. -/
theorem parse_standard :
    Settings.standard.parse Settings.standard.defaultRule =
      .ok ⟨Settings.standard.defaultRule, standardTree⟩ :=
  eq_ok_of_toOption_eq_some (by decide +kernel)

/-- The engine of the standard settings. -/
def standard : Engine :=
  ⟨.standard, ⟨Settings.standard.defaultRule, standardTree⟩, parse_standard⟩

/-- Reads a rule and checks it in a context. -/
def check (engine : Engine) (source : String) (context : Context) : Except RuleError Bool :=
  match engine.settings.parse source with
  | .ok rule => rule.check context
  | .error error => .error error

/-- Decides on a rule in a context. -/
def decide (engine : Engine) (source : String) (context : Context) : Decision :=
  match engine.check source context with
  | .ok verdict => ⟨verdict, .rule⟩
  | .error cause =>
    match engine.fallback.check context with
    | .ok verdict => ⟨verdict, .fallback cause⟩
    | .error defaultCause => ⟨false, .defect cause defaultCause⟩

/-- The verdict on a rule in a context. -/
def evaluate (engine : Engine) (source : String) (context : Context) : Bool :=
  (engine.decide source context).verdict

/-- Checking the text of the default rule is checking the default rule. -/
theorem check_defaultRule (engine : Engine) (context : Context) :
    engine.check engine.settings.defaultRule context = engine.fallback.check context := by
  rw [check, engine.readable]

end Engine

/-- The verdict on a rule in a context, with the standard settings. -/
def evaluate (source : String) (context : Context) : Bool :=
  Engine.standard.evaluate source context

end DecisionRules
