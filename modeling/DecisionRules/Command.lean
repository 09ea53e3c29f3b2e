import DecisionRules.Binding
import DecisionRules.Canvas
import DecisionRules.Log

/-!
# The command line

The command takes a rule and bindings, shows the rule in its canonical text and states the
verdict on the bound facts.  Where the rule fails, it reports why, and states the verdict of
the default rule if there is one.  Reports and what is logged go to the standard error.
-/

namespace DecisionRules

/-- What the command leaves behind. -/
structure CommandResult where
  /-- The exit status. -/
  status : Nat
  /-- What is written to the standard output. -/
  output : String
  /-- What is written to the standard error. -/
  errors : String
  deriving DecidableEq

/-- What the command leaves to others. -/
structure Libraries where
  /-- What draws the reports. -/
  renderer : Renderer
  /-- What is logged of some events, at the time at which they happen. -/
  log : List Event → String

/-- Reports are drawn on a canvas, and nothing is logged. -/
def Libraries.plain : Libraries :=
  ⟨Canvas.plain, fun _ => ""⟩

namespace Command

/-- How the command is used. -/
def usage : String :=
  "usage: rule-check <rule> [name=value ...]\n"

/-- A verdict in words. -/
def verdictText (verdict : Bool) : String :=
  if verdict then "true" else "false"

section Libraries

variable (libraries : Libraries)

/-- What the command leaves behind of a decision on a rule that could be read. -/
def conclude (engine : Engine) (source : String) (rule : Rule) (decision : Decision) :
    CommandResult :=
  let shown := "rule: " ++ rule.text ++ "\n"
  let logged := libraries.log (engine.events libraries.renderer source decision)
  match decision.outcome with
  | .rule => ⟨0, shown ++ "verdict: " ++ verdictText decision.verdict ++ "\n", logged⟩
  | .fallback cause =>
    ⟨1, shown ++ "verdict (default rule): " ++ verdictText decision.verdict ++ "\n",
      logged ++ cause.printed libraries.renderer source⟩
  | .defect cause defaultCause =>
    ⟨1, shown,
      logged ++ cause.printed libraries.renderer source ++
        defaultCause.printed libraries.renderer engine.settings.defaultRule⟩

/-- Reads a rule and decides on it. -/
def decide (engine : Engine) (source : String) (facts : Facts) : CommandResult :=
  match engine.settings.parse source with
  | .error error => ⟨1, "", error.printed libraries.renderer source⟩
  | .ok rule => conclude libraries engine source rule (engine.decide source facts.context)

/-- Runs the command on its arguments. -/
def runWith : List String → CommandResult
  | [] => ⟨2, "", usage⟩
  | source :: bindings =>
    match Binding.readAll bindings with
    | .error error => ⟨2, "", error.message ++ "\n" ++ usage⟩
    | .ok facts => decide libraries .standard source facts

end Libraries

/-- Runs the command on its arguments, with reports on a canvas and without a log. -/
def run (arguments : List String) : CommandResult :=
  runWith .plain arguments

end Command
end DecisionRules
