import DecisionRules.Command
import DecisionRules.Proofs.Binding.Reading
import DecisionRules.Proofs.Expr.Failure
import DecisionRules.Proofs.Engine.Fallback
import DecisionRules.Proofs.Facts.Order

/-!
# What the command leaves behind

The command looks at its arguments first, then at the rule, and then at what an engine decides on
it.  The engine reads the rule once more.  It reads the same, so that an error which the command
reports after it has shown the rule is one of evaluation.  Each way to end has a status and an
output of its own.
-/

namespace DecisionRules

/-! ## Errors of evaluation -/

/-- The text that the error is about is not a rule. -/
def RuleError.IsMalformed (error : RuleError) : Prop :=
  ∃ fault fragment span position, error = .malformed fault fragment span position

/-- A rule that has been read is not malformed. -/
theorem Rule.not_isMalformed_of_evaluate
    {rule : Rule}
    {context : Context}
    {error : RuleError}
    (fails : rule.evaluate context = .error error) :
    ¬ error.IsMalformed := by
  rintro ⟨_, _, _, _, rfl⟩
  cases Expr.failure_of_eval_eq_error rule.tree fails

/-! ## Events -/

/-- An error is among the events of a decision exactly when the rule and the default rule fail. -/
theorem Engine.exists_error_event_iff
    (engine : Engine)
    (renderer : Renderer)
    (source : String)
    (context : Context) :
    (∃ event ∈ engine.events renderer source (engine.decide source context),
        event.severity = .error) ↔
      ∃ cause defaultCause,
        engine.check source context = .error cause ∧
          engine.check engine.settings.defaultRule context = .error defaultCause := by
  cases checked : engine.check source context with
  | ok verdict => simp [decide_of_ok checked, events]
  | error cause =>
      cases default : engine.check engine.settings.defaultRule context with
      | ok verdict => simp [decide_of_error_of_ok checked default, events]
      | error defaultCause => simp [decide_of_error_of_error checked default, events]

/-! ## Decisions on rules that have been read -/

namespace Command

variable (libraries : Libraries)

/-- What is logged of a decision on a rule in a context. -/
def logged (engine : Engine) (source : String) (context : Context) : String :=
  libraries.log (engine.events libraries.renderer source (engine.decide source context))

section Decide

variable
  {engine : Engine}
  {source : String}
  {facts : Facts}
  {rule : Rule}
  {cause : RuleError}

/-- A rule that cannot be read is reported and not shown. -/
theorem decide_of_unread (unread : engine.settings.parse source = .error cause) :
    decide libraries engine source facts =
      ⟨1, "", cause.printed libraries.renderer source⟩ := by
  rw [decide, unread]

variable (read : engine.settings.parse source = .ok rule)

include read

/-- A rule that has a value is shown with its verdict. -/
theorem decide_of_value
    {value : Value}
    (evaluates : rule.evaluate facts.context = .ok value) :
    decide libraries engine source facts =
      ⟨0,
        "rule: " ++ rule.tree.text ++ "\n" ++ "verdict: " ++
          (if (engine.decide source facts.context).verdict then "true" else "false") ++ "\n",
        logged libraries engine source facts.context⟩ := by
  rw [decide, logged, read, Engine.decide_of_ok (Engine.check_of_value read evaluates)]
  simp only [conclude, verdictText, Rule.text, String.append_assoc]

variable (fails : rule.evaluate facts.context = .error cause)

include fails

/-- A rule that fails is shown with the verdict of the default rule, and its failure is reported. -/
theorem decide_of_failure
    {value : Value}
    (evaluates : engine.fallback.evaluate facts.context = .ok value) :
    decide libraries engine source facts =
      ⟨1,
        "rule: " ++ rule.tree.text ++ "\n" ++ "verdict (default rule): " ++
          (if (engine.decide source facts.context).verdict then "true" else "false") ++ "\n",
        logged libraries engine source facts.context ++
          cause.printed libraries.renderer source⟩ := by
  have failed := Engine.check_of_failure read fails
  have succeeds := Engine.check_of_value engine.readable evaluates
  rw [decide, logged, read, Engine.decide_of_error_of_ok failed succeeds]
  simp only [conclude, verdictText, Rule.text, String.append_assoc]

/-- A rule that fails together with the default rule is shown alone, and both failures are
reported. -/
theorem decide_of_failures
    {defaultCause : RuleError}
    (defaultFails : engine.fallback.evaluate facts.context = .error defaultCause) :
    decide libraries engine source facts =
      ⟨1,
        "rule: " ++ rule.tree.text ++ "\n",
        logged libraries engine source facts.context ++
          cause.printed libraries.renderer source ++
          defaultCause.printed libraries.renderer engine.settings.defaultRule⟩ := by
  have failed := Engine.check_of_failure read fails
  have defaultFailed := Engine.check_of_failure engine.readable defaultFails
  rw [decide, logged, read, Engine.decide_of_error_of_error failed defaultFailed]
  simp only [conclude, Rule.text]

end Decide

/-- What the command has to leave behind when an engine decides on a rule in a context. -/
structure Concludes
    (engine : Engine)
    (source : String)
    (context : Context)
    (result : CommandResult) : Prop where
  /-- The status is that of success exactly when the rule is read and has a value. -/
  success :
    result.status = 0 ↔
      ∃ rule value, engine.settings.parse source = .ok rule ∧ rule.evaluate context = .ok value
  /-- There is one status of failure. -/
  failure : result.status ≠ 0 → result.status = 1
  /-- A rule that has a value is shown with the verdict, and nothing is reported. -/
  value :
    ∀ rule value,
      engine.settings.parse source = .ok rule →
        rule.evaluate context = .ok value →
          result.output =
              "rule: " ++ rule.tree.text ++ "\n" ++ "verdict: " ++
                (if (engine.decide source context).verdict then "true" else "false") ++ "\n" ∧
            result.errors = logged libraries engine source context
  /-- Nothing is shown of a rule that is not read, which is reported. -/
  unread :
    ∀ cause,
      engine.settings.parse source = .error cause →
        result.output = "" ∧ result.errors = cause.printed libraries.renderer source
  /-- A rule that fails is shown, with a verdict exactly when the default rule has a value.  The
  failures that are reported then are none of the text. -/
  failed :
    ∀ rule cause,
      engine.settings.parse source = .ok rule →
        rule.evaluate context = .error cause →
          ¬ cause.IsMalformed ∧
            ((∃ value,
                engine.fallback.evaluate context = .ok value ∧
                  result.output =
                    "rule: " ++ rule.tree.text ++ "\n" ++ "verdict (default rule): " ++
                      (if (engine.decide source context).verdict then "true" else "false") ++
                      "\n" ∧
                  result.errors =
                    logged libraries engine source context ++
                      cause.printed libraries.renderer source) ∨
              ∃ defaultCause,
                engine.fallback.evaluate context = .error defaultCause ∧
                  ¬ defaultCause.IsMalformed ∧
                  result.output = "rule: " ++ rule.tree.text ++ "\n" ∧
                  result.errors =
                    logged libraries engine source context ++
                      cause.printed libraries.renderer source ++
                      defaultCause.printed libraries.renderer engine.settings.defaultRule)

/-- The status of a decision says whether the rule was read and has a value. -/
theorem status_decide
    (engine : Engine)
    (source : String)
    (facts : Facts) :
    (∃ rule value,
        engine.settings.parse source = .ok rule ∧ rule.evaluate facts.context = .ok value) ∧
      (decide libraries engine source facts).status = 0 ∨
    (¬ ∃ rule value,
        engine.settings.parse source = .ok rule ∧ rule.evaluate facts.context = .ok value) ∧
      (decide libraries engine source facts).status = 1 := by
  cases read : engine.settings.parse source with
  | error cause =>
      refine .inr ⟨?_, by rw [decide_of_unread libraries read]⟩
      rintro ⟨_, _, found, _⟩
      cases found
  | ok rule =>
      cases evaluated : rule.evaluate facts.context with
      | ok value =>
          exact .inl ⟨⟨rule, value, rfl, evaluated⟩,
            by rw [decide_of_value libraries read evaluated]⟩
      | error cause =>
          refine .inr ⟨?_, ?_⟩
          · rintro ⟨_, _, found, value⟩
            obtain rfl := Except.ok.inj found
            rw [evaluated] at value
            cases value
          · cases evaluatedDefault : engine.fallback.evaluate facts.context with
            | ok value => rw [decide_of_failure libraries read evaluated evaluatedDefault]
            | error defaultCause =>
                rw [decide_of_failures libraries read evaluated evaluatedDefault]

/-- The command leaves behind what it has to. -/
theorem concludes_decide
    (engine : Engine)
    (source : String)
    (facts : Facts) :
    Concludes libraries engine source facts.context (decide libraries engine source facts) where
  success := by
    obtain ⟨succeeds, status⟩ | ⟨fails, status⟩ := status_decide libraries engine source facts
    · exact ⟨fun _ => succeeds, fun _ => status⟩
    · rw [status]
      exact ⟨fun zero => absurd zero (by decide), fun succeeds => absurd succeeds fails⟩
  failure := by
    intro nonzero
    obtain ⟨_, status⟩ | ⟨_, status⟩ := status_decide libraries engine source facts
    · exact absurd status nonzero
    · exact status
  value := by
    intro rule value read evaluated
    rw [decide_of_value libraries read evaluated]
    exact ⟨rfl, rfl⟩
  unread := by
    intro cause unread
    rw [decide_of_unread libraries unread]
    exact ⟨rfl, rfl⟩
  failed := by
    intro rule cause read evaluated
    refine ⟨Rule.not_isMalformed_of_evaluate evaluated, ?_⟩
    cases evaluatedDefault : engine.fallback.evaluate facts.context with
    | ok value =>
        rw [decide_of_failure libraries read evaluated evaluatedDefault]
        exact .inl ⟨value, rfl, rfl, rfl⟩
    | error defaultCause =>
        rw [decide_of_failures libraries read evaluated evaluatedDefault]
        exact .inr ⟨defaultCause, rfl, Rule.not_isMalformed_of_evaluate evaluatedDefault, rfl, rfl⟩

/-! ## Runs -/

/-- The rule is missing, or an argument after it states no binding. -/
def Refused : List String → Prop
  | [] => True
  | _ :: rest => ∃ argument ∈ rest, ∀ binding, ¬ Binding.States argument binding

/-- Arguments after a rule that state bindings are facts for it. -/
theorem runWith_of_states
    {source : String}
    {rest : List String}
    {bindings : List (String × Value)}
    (states : List.Forall₂ Binding.States rest bindings) :
    runWith libraries (source :: rest) =
      decide libraries .standard source (Facts.ofList bindings) := by
  rw [runWith, Binding.readAll, Binding.readEach_of_states states]
  rfl

/-- Arguments after a rule of which one states no binding are refused in the same way for every
rule. -/
theorem exists_runWith_of_stateless
    {rest : List String}
    {argument : String}
    (member : argument ∈ rest)
    (stateless : ∀ binding, ¬ Binding.States argument binding) :
    ∃ errors, ∀ source, runWith libraries (source :: rest) = ⟨2, "", errors⟩ := by
  obtain ⟨error, fails⟩ := Binding.exists_readEach_eq_error member stateless
  refine ⟨error.message ++ "\n" ++ usage, fun source => ?_⟩
  rw [runWith, Binding.readAll, fails]
  rfl

/-- Refused arguments leave an error of usage and no output. -/
theorem runWith_of_refused {arguments : List String} (refused : Refused arguments) :
    (runWith libraries arguments).status = 2 ∧ (runWith libraries arguments).output = "" := by
  cases arguments with
  | nil => exact ⟨rfl, rfl⟩
  | cons source rest =>
      obtain ⟨argument, member, stateless⟩ := refused
      obtain ⟨errors, answer⟩ := exists_runWith_of_stateless libraries member stateless
      rw [answer source]
      exact ⟨rfl, rfl⟩

/-- Arguments that are read after a rule are not refused. -/
theorem not_refused_of_readEach
    {source : String}
    {rest : List String}
    {bindings : List (String × Value)}
    (found : Binding.readEach rest = .ok bindings) :
    ¬ Refused (source :: rest) := by
  rintro ⟨argument, member, stateless⟩
  obtain ⟨error, fails⟩ := Binding.exists_readEach_eq_error member stateless
  rw [found] at fails
  cases fails

/-- Arguments that are not refused are a rule and facts, on which the standard engine decides. -/
theorem exists_concludes_of_not_refused
    {arguments : List String}
    (accepted : ¬ Refused arguments) :
    ∃ source rest bindings,
      arguments = source :: rest ∧
        List.Forall₂ Binding.States rest bindings ∧
        Concludes libraries .standard source (Facts.ofList bindings).context
          (runWith libraries arguments) := by
  cases arguments with
  | nil => exact absurd trivial accepted
  | cons source rest =>
      have each : ∀ argument ∈ rest, ∃ binding, Binding.States argument binding := by
        intro argument member
        by_contra stateless
        exact accepted ⟨argument, member, not_exists.mp stateless⟩
      obtain ⟨bindings, states⟩ := Binding.exists_states each
      refine ⟨source, rest, bindings, rfl, states, ?_⟩
      rw [runWith_of_states libraries states]
      exact concludes_decide libraries .standard source (Facts.ofList bindings)

/-- What the command leaves behind of all arguments, whatever its reports look like and whatever is
logged.  Its status is 2, without output, exactly when the rule is missing or an argument after it
states no binding, whatever the rule is.  Otherwise the arguments state facts, where the last
binding of a name counts, and the command leaves behind what it has to when the standard engine
decides on the rule with these facts. -/
theorem run_contract (arguments : List String) :
    ((runWith libraries arguments).status = 2 ↔ Refused arguments) ∧
    (Refused arguments → (runWith libraries arguments).output = "") ∧
    (∀ source rest other,
      arguments = source :: rest →
        Refused arguments → runWith libraries (other :: rest) = runWith libraries arguments) ∧
    (¬ Refused arguments →
      ∃ source rest bindings,
        arguments = source :: rest ∧
          List.Forall₂ Binding.States rest bindings ∧
          (∀ name,
            (Facts.ofList bindings).context name = bindings.reverse.lookup name) ∧
          Concludes libraries .standard source (Facts.ofList bindings).context
            (runWith libraries arguments)) := by
  refine ⟨⟨fun status => ?_, fun refused => (runWith_of_refused libraries refused).1⟩,
    fun refused => (runWith_of_refused libraries refused).2, ?_, fun accepted => ?_⟩
  · by_contra accepted
    obtain ⟨_, _, _, _, _, concludes⟩ := exists_concludes_of_not_refused libraries accepted
    have failure := concludes.failure
    rw [status] at failure
    exact absurd (failure (by decide)) (by decide)
  · rintro source rest other rfl ⟨argument, member, stateless⟩
    obtain ⟨errors, answer⟩ := exists_runWith_of_stateless libraries member stateless
    rw [answer source, answer other]
  · obtain ⟨source, rest, bindings, split, states, concludes⟩ :=
      exists_concludes_of_not_refused libraries accepted
    exact ⟨source, rest, bindings, split, states, Facts.context_ofList bindings, concludes⟩

variable {libraries} in
/-- Without a value of the rule, the status is that of failure. -/
theorem Concludes.status_eq_one
    {engine : Engine}
    {source : String}
    {context : Context}
    {result : CommandResult}
    (concludes : Concludes libraries engine source context result)
    (fails :
      ∀ rule value, engine.settings.parse source = .ok rule → rule.evaluate context ≠ .ok value) :
    result.status = 1 := by
  refine concludes.failure fun zero => ?_
  obtain ⟨rule, value, read, evaluated⟩ := concludes.success.mp zero
  exact fails rule value read evaluated

variable {libraries} in
/-- A rule that is read and fails has the status of failure. -/
theorem Concludes.status_of_failure
    {engine : Engine}
    {source : String}
    {context : Context}
    {result : CommandResult}
    {rule : Rule}
    {cause : RuleError}
    (concludes : Concludes libraries engine source context result)
    (read : engine.settings.parse source = .ok rule)
    (fails : rule.evaluate context = .error cause) :
    result.status = 1 := by
  refine concludes.status_eq_one fun other value found evaluated => ?_
  obtain rfl := Except.ok.inj (read.symm.trans found)
  rw [fails] at evaluated
  cases evaluated

/-- A rule that is cut off is not looked at next to an argument without an equals sign, and is not
shown next to a binding.  A rule with a value is shown with its verdict.  One with a name that is
not bound is shown with the verdict of the default rule, or alone where there is none. -/
theorem run_contract_of_each_end :
    ((run ["days <", "days"]).status = 2 ∧ (run ["days <", "days"]).output = "") ∧
      ((run ["days <", "days=7"]).status = 1 ∧ (run ["days <", "days=7"]).output = "") ∧
      ((run ["days>9", "days=7"]).status = 0 ∧
        (run ["days>9", "days=7"]).output = "rule: days > 9\nverdict: false\n") ∧
      ((run ["A", "followers_count=2"]).status = 1 ∧
        (run ["A", "followers_count=2"]).output =
          "rule: A\nverdict (default rule): true\n") ∧
      (run ["A"]).status = 1 ∧ (run ["A"]).output = "rule: A\n" := by
  have concludes {rest : List String} (source : String) (bindings : List (String × Value))
      (found : Binding.readEach rest = .ok bindings) :
      Concludes .plain .standard source (Facts.ofList bindings).context (run (source :: rest)) := by
    obtain ⟨_, _, _, decided⟩ := run_contract .plain (source :: rest)
    obtain ⟨_, _, others, split, states, _, concludes⟩ := decided (not_refused_of_readEach found)
    obtain ⟨rfl, rfl⟩ := List.cons.inj split
    obtain rfl := Except.ok.inj (found.symm.trans (Binding.readEach_of_states states))
    exact concludes
  have bound : Binding.readEach ["days=7"] = .ok [("days", .number 7)] :=
    eq_ok_of_toOption_eq_some (by decide +kernel)
  have named : Engine.standard.settings.parse "A" = .ok ⟨"A", .leaf (.variable "A") ⟨0, 1⟩⟩ :=
    eq_ok_of_toOption_eq_some (by decide +kernel)
  refine ⟨?refused, ?unread, ?value, ?fallback, ?defect⟩
  case refused =>
    obtain ⟨status, output, _⟩ := run_contract .plain ["days <", "days"]
    have refused : Refused ["days <", "days"] :=
      ⟨"days", List.mem_cons_self, ne_ok_of_toOption_eq_none (by decide +kernel)⟩
    exact ⟨status.mpr refused, output refused⟩
  case unread =>
    have ended := concludes "days <" _ bound
    have cut : Engine.standard.settings.parse "days <" =
        .error (.malformed .missingOperand "" ⟨6, 6⟩ ⟨1, 7⟩) :=
      eq_error_of_errorOf?_eq_some (by decide +kernel)
    refine ⟨ended.status_eq_one fun rule value read _ => ?_, (ended.unread _ cut).1⟩
    rw [cut] at read
    cases read
  case value =>
    have ended := concludes "days>9" _ bound
    let rule : Rule :=
      ⟨"days>9",
        .comparison [.leaf (.variable "days") ⟨0, 4⟩, .leaf (.literal (.number 9)) ⟨5, 6⟩]
          [.greater]⟩
    have read : Engine.standard.settings.parse "days>9" = .ok rule :=
      eq_ok_of_toOption_eq_some (by decide +kernel)
    have evaluates : rule.evaluate (Facts.ofList [("days", .number 7)]).context =
        .ok (.boolean false) :=
      eq_ok_of_toOption_eq_some (by decide +kernel)
    exact ⟨ended.success.mpr ⟨_, _, read, evaluates⟩,
      (ended.value _ _ read evaluates).1.trans (by decide +kernel)⟩
  case fallback =>
    have followed : Binding.readEach ["followers_count=2"] =
        .ok [("followers_count", .number 2)] :=
      eq_ok_of_toOption_eq_some (by decide +kernel)
    have ended := concludes "A" _ followed
    have decided : Engine.standard.fallback.evaluate
        (Facts.ofList [("followers_count", .number 2)]).context = .ok (.boolean true) :=
      eq_ok_of_toOption_eq_some (by decide +kernel)
    obtain ⟨_, ⟨_, _, output, _⟩ | ⟨_, fails, _⟩⟩ := ended.failed _ _ named rfl
    · exact ⟨ended.status_of_failure named rfl, output.trans (by decide +kernel)⟩
    · rw [decided] at fails
      cases fails
  case defect =>
    have unbound : Binding.readEach [] = .ok [] := rfl
    have ended := concludes "A" _ unbound
    have undecided : Engine.standard.fallback.evaluate (Facts.ofList []).context =
        .error (.unknownVariable "followers_count" ⟨1, 16⟩) :=
      eq_error_of_errorOf?_eq_some (by decide +kernel)
    obtain ⟨_, ⟨_, decided, _⟩ | ⟨_, _, _, output, _⟩⟩ := ended.failed _ _ named rfl
    · rw [undecided] at decided
      cases decided
    · exact ⟨ended.status_of_failure named rfl, output.trans (by decide +kernel)⟩

end Command
end DecisionRules
