import DecisionRules.Engine
import DecisionRules.Report

/-!
# Events

While an engine decides on a rule it tells a log what happens.  An event has a severity, values
with their names and a message.  What becomes of an event, and when, is a matter of the log.
-/

namespace DecisionRules

/-- How grave an event is. -/
inductive Severity
  | debug
  | warning
  | error
  deriving DecidableEq

/-- A value that is recorded with an event. -/
inductive Recorded
  /-- A text, which is quoted. -/
  | quoted (text : String)
  /-- What is shown of something. -/
  | shown (text : String)
  /-- A truth value. -/
  | truth (value : Bool)
  deriving DecidableEq

/-- Something that has happened. -/
structure Event where
  /-- How grave it is. -/
  severity : Severity
  /-- The values that belong to it, with their names. -/
  values : List (String × Recorded)
  /-- What has happened. -/
  message : String
  deriving DecidableEq

/-- The events of a decision on a rule. -/
def Engine.events
    (engine : Engine)
    (renderer : Renderer)
    (source : String)
    (decision : Decision) :
    List Event :=
  let rule := ("rule", Recorded.quoted source)
  let verdict := ("verdict", Recorded.truth decision.verdict)
  let defaultRule := ("default_rule", Recorded.shown engine.settings.defaultRule)
  let failed (cause : RuleError) : List Event :=
    [⟨.warning, [rule, ("error", .shown cause.message), defaultRule],
        "rule failed, using default rule"⟩,
      ⟨.debug, [], "\n" ++ cause.report renderer source⟩]
  match decision.outcome with
  | .rule => [⟨.debug, [rule, verdict], "rule evaluated"⟩]
  | .fallback cause => failed cause ++ [⟨.debug, [verdict], "default rule evaluated"⟩]
  | .defect cause defaultCause =>
    failed cause ++
      [⟨.error, [defaultRule, ("error", .shown defaultCause.message)], "default rule failed"⟩]

end DecisionRules
