import DecisionRules.Proofs.Engine.Fallback
import DecisionRules.Proofs.Expr.Congruence
import DecisionRules.Proofs.Grammar.Culprit

/-!
# Facts that matter to a decision

A rule asks a context for nothing but its variables, and these are names of the vocabulary and
single letters, since it was read with that vocabulary.  So a decision does not depend on any other
fact.

Facts that are added to a context do not change what has been settled without them.  They can only
make up for a variable that was missing.
-/

namespace DecisionRules

/-- A word stands for a name of the vocabulary or for a single letter. -/
theorem Vocabulary.mem_names_or_letter
    {vocabulary : Vocabulary}
    {word name : String}
    (resolved : vocabulary.resolve? word = some name) :
    name ∈ vocabulary.names ∨
      ∃ char : Char, char.isAlpha = true ∧ name = String.singleton char := by
  rw [resolve?] at resolved
  split at resolved
  next spelling canonical =>
    obtain rfl := Option.some.inj resolved
    exact .inl (List.mem_of_find?_eq_some canonical)
  next =>
    split at resolved
    next letter =>
      obtain rfl := Option.some.inj resolved
      rw [isSingleLetter] at letter
      split at letter
      next char spelled =>
        refine .inr ⟨char, letter, ?_⟩
        rw [← String.toList_inj, spelled, String.toList_singleton]
      next => cases letter
    next => cases resolved

/-! ## Facts outside of the vocabulary -/

namespace Expr

/-- A tree has one result in contexts that agree on its variables. -/
theorem eval_congr
    {tree : Expr}
    {context other : Context}
    (agree : ∀ name place, .leaf (.variable name) place ∈ tree.nodes → context name = other name) :
    tree.eval context = tree.eval other := by
  have respected : Respected Eq (Eq (α := Except RuleError Value)) := by
    refine ⟨fun _ => rfl, ?_, ?_, ?_⟩
    · rintro value _ rfl
      exact ⟨value, rfl, rfl, rfl⟩
    · intro _ _ same
      cases same
    · rintro _ _ rfl
      rfl
  refine tree.eval_related respected (fun _ => rfl) fun name place member => ?_
  rw [Operand.value, Operand.value, agree name place member]

end Expr

namespace Engine

/-- A rule has one result in contexts that agree on the vocabulary and on single letters. -/
theorem check_congr_of_agree
    (engine : Engine)
    (source : String)
    {context other : Context}
    (names : ∀ name ∈ engine.settings.vocabulary.names, context name = other name)
    (letters : ∀ char : Char, char.isAlpha = true →
      context (String.singleton char) = other (String.singleton char)) :
    engine.check source context = engine.check source other := by
  rw [check_eq, check_eq]
  cases read : Expr.parse engine.settings.vocabulary engine.settings.maxDepth source with
  | error error => rfl
  | ok tree =>
      obtain ⟨tokens, scanned⟩ := Expr.exists_scan_of_parse read
      have agree (name : String) (place : Span)
          (member : .leaf (.variable name) place ∈ tree.nodes) : context name = other name := by
        obtain ⟨token, _, _, _, _, resolved⟩ := Expr.exists_name_of_variable scanned read member
        obtain listed | ⟨char, letter, rfl⟩ := Vocabulary.mem_names_or_letter resolved
        · exact names name listed
        · exact letters char letter
      simp only [Expr.eval_congr agree]

/-- A decision is the same in any two contexts that agree on the names of the vocabulary, in the
vocabulary's own spelling, and on the names that are single letters.  So nothing else that a
context binds has an influence on it, be it on the verdict or on how it was reached. -/
theorem decide_eq_of_agree
    (engine : Engine)
    (source : String)
    {context other : Context}
    (names : ∀ name ∈ engine.settings.vocabulary.names, context name = other name)
    (letters : ∀ char : Char, char.isAlpha = true →
      context (String.singleton char) = other (String.singleton char)) :
    engine.decide source context = engine.decide source other :=
  engine.decide_congr (fun text => check_congr_of_agree engine text names letters) source

/-- That a context also binds `DAYS` makes no difference to the rule `Days < 30`. -/
theorem decide_eq_of_agree_of_capitals :
    (∀ name ∈ standard.settings.vocabulary.names,
      (Facts.ofList [("days", .number 10)]).context name =
        (Facts.ofList [("days", .number 10), ("DAYS", .number 50)]).context name) ∧
      standard.decide "Days < 30" (Facts.ofList [("days", .number 10)]).context =
        standard.decide "Days < 30"
          (Facts.ofList [("days", .number 10), ("DAYS", .number 50)]).context := by
  have names : ∀ name ∈ standard.settings.vocabulary.names,
      (Facts.ofList [("days", .number 10)]).context name =
        (Facts.ofList [("days", .number 10), ("DAYS", .number 50)]).context name := by
    decide +kernel
  refine ⟨names, decide_eq_of_agree standard "Days < 30" names fun char _ => ?_⟩
  have long : String.singleton char ≠ "DAYS" := by
    rw [Ne, ← String.toList_inj, String.toList_singleton]
    simp
  exact ((Facts.context_insert ..).trans (if_neg long)).symm

end Engine

/-! ## Facts that are added -/

/-- A context binds what another one binds, to the same values, and possibly more. -/
def Context.Extends (wider context : Context) : Prop :=
  ∀ name value, context name = some value → wider name = some value

/-- Facts about one more name extend what is known. -/
theorem Facts.extends_insert
    (facts : Facts)
    (name : String)
    (value : Value)
    (unbound : facts.context name = none) :
    (facts.insert name value).context.Extends facts.context := by
  intro query known bound
  rw [context_insert, if_neg, bound]
  rintro rfl
  rw [unbound] at bound
  cases bound

/-- A result either stays as it is in a wider context or was a variable that is bound there. -/
inductive Persists (wider : Context) : Except RuleError Value → Except RuleError Value → Prop
  | stays (result : Except RuleError Value) : Persists wider result result
  | supplied
      {name : String}
      {place : Span}
      {later : Except RuleError Value}
      (bound : (wider name).isSome = true) :
      Persists wider (.error (.unknownVariable name place)) later

namespace Persists

variable {wider : Context} {result later : Except RuleError Value}

/-- A value stays as it is. -/
theorem of_ok
    (persists : Persists wider result later)
    {value : Value}
    (succeeds : result = .ok value) :
    later = .ok value := by
  cases persists with
  | stays => exact succeeds
  | supplied bound => cases succeeds

/-- A division by zero stays as it is. -/
theorem of_divisionByZero
    (persists : Persists wider result later)
    {place : Span}
    (divides : result = .error (.divisionByZero place)) :
    later = .error (.divisionByZero place) := by
  cases persists with
  | stays => exact divides
  | supplied bound => cases divides

/-- A variable that is not bound stays so, unless it is bound in the wider context. -/
theorem of_unknownVariable
    (persists : Persists wider result later)
    {name : String}
    {place : Span}
    (fails : result = .error (.unknownVariable name place))
    (unbound : wider name = none) :
    later = .error (.unknownVariable name place) := by
  cases persists with
  | stays => exact fails
  | supplied bound =>
      cases fails
      rw [unbound] at bound
      cases bound

end Persists

/-- Runs respect that results persist. -/
theorem respected_persists (wider : Context) : Respected Eq (Persists wider) := by
  refine ⟨fun value => .stays (.ok value), ?_, ?_, ?_⟩
  · intro value result persists
    cases persists
    exact ⟨value, rfl, rfl, rfl⟩
  · intro error value persists result
    cases persists with
    | supplied bound => exact .supplied bound
  · rintro place _ rfl
    exact .stays _

namespace Expr

variable {context wider : Context}

/-- The result of a tree persists in a wider context. -/
theorem eval_persists (extended : wider.Extends context) (tree : Expr) :
    Persists wider (tree.eval context) (tree.eval wider) := by
  refine tree.eval_related (respected_persists wider) (fun _ => rfl) fun name place _ => ?_
  rw [Operand.value, Operand.value]
  cases bound : context name with
  | some value =>
      rw [extended name value bound]
      exact .stays _
  | none =>
      cases supplied : wider name with
      | none => exact .stays _
      | some value => exact .supplied (by rw [supplied]; rfl)

end Expr

namespace Engine

/-- A rule that holds or not in a context does so in a wider one. -/
theorem check_of_extends
    {context wider : Context}
    (extended : wider.Extends context)
    {engine : Engine}
    {source : String}
    {verdict : Bool}
    (checked : engine.check source context = .ok verdict) :
    engine.check source wider = .ok verdict := by
  rw [check_eq] at checked ⊢
  cases read : Expr.parse engine.settings.vocabulary engine.settings.maxDepth source with
  | error error =>
      rw [read] at checked
      cases checked
  | ok tree =>
      rw [read] at checked
      obtain ⟨value, evaluated, rfl⟩ := exists_ok_of_map_eq_ok checked
      have later := (tree.eval_persists extended).of_ok evaluated
      simp only [later]
      rfl

/-- Facts that are added never change a settled result.  A value and a division by zero stay as
they are, and so does a variable that is not bound, as long as it stays unbound.  Hence an engine's
decision for which the rule itself was evaluated stays the same. -/
theorem settled_of_extends
    {context wider : Context}
    (extended : wider.Extends context) :
    (∀ tree : Expr,
      (∀ value, tree.eval context = .ok value → tree.eval wider = .ok value) ∧
      (∀ place,
        tree.eval context = .error (.divisionByZero place) →
          tree.eval wider = .error (.divisionByZero place)) ∧
      ∀ name place,
        tree.eval context = .error (.unknownVariable name place) →
          wider name = none →
            tree.eval wider = .error (.unknownVariable name place)) ∧
    ∀ (engine : Engine) (source : String),
      (engine.decide source context).outcome = .rule →
        engine.decide source wider = engine.decide source context := by
  constructor
  · intro tree
    have persists := tree.eval_persists extended
    exact ⟨fun value => persists.of_ok, fun place => persists.of_divisionByZero,
      fun name place => persists.of_unknownVariable⟩
  · intro engine source evaluated
    cases checked : engine.check source context with
    | error cause =>
        rw [decide, checked] at evaluated
        cases default : engine.fallback.check context <;> simp [default] at evaluated
    | ok verdict => rw [decide_of_ok checked, decide_of_ok (check_of_extends extended checked)]

/-- That it is also known that there are no tweets makes no difference to a rule that holds for the
number of days. -/
theorem settled_of_extends_of_disjunction :
    (Facts.ofList [("days", .number 10), ("tweet_count", .number 0)]).context.Extends
        (Facts.ofList [("days", .number 10)]).context ∧
      (standard.decide "days < 30 or 1 / tweet_count > 2"
        (Facts.ofList [("days", .number 10)]).context).outcome = .rule ∧
      standard.decide "days < 30 or 1 / tweet_count > 2"
          (Facts.ofList [("days", .number 10), ("tweet_count", .number 0)]).context =
        standard.decide "days < 30 or 1 / tweet_count > 2"
          (Facts.ofList [("days", .number 10)]).context := by
  have extended := (Facts.ofList [("days", .number 10)]).extends_insert "tweet_count" (.number 0)
    (by decide +kernel)
  have evaluated : (standard.decide "days < 30 or 1 / tweet_count > 2"
      (Facts.ofList [("days", .number 10)]).context).outcome = .rule := by
    decide +kernel
  exact ⟨extended, evaluated, (settled_of_extends extended).2 standard _ evaluated⟩

end Engine
end DecisionRules
