import DecisionRules.Expr.Printer
import DecisionRules.Proofs.Grammar.CanonicalToken

/-!
# Canonical texts of phrases

The canonical text of a tree that was read from a phrase consists of the canonical spellings of
the phrase's tokens.  No two of them can be taken for one, since there is a blank or a parenthesis
between them, so that scanning the text gives these spellings again.
-/

namespace DecisionRules

namespace Expr

/-- A sign and an operand, as they go on a run. -/
def laterText (next : String × String) : List Char :=
  ' ' :: (next.1.toList ++ ' ' :: next.2.toList)

/-- The characters of a run: its first operand and then each sign with the operand after it. -/
theorem toList_runText (first : String) (rest signs : List String) :
    (runText (first :: rest) signs).toList =
      first.toList ++ (signs.zip rest).flatMap laterText := by
  have fold (pairs : List (String × String)) (text : String) :
      (pairs.foldl (fun text next => text ++ " " ++ next.1 ++ " " ++ next.2) text).toList =
        text.toList ++ pairs.flatMap laterText := by
    induction pairs generalizing text with
    | nil => simp
    | cons next pairs inductionHypothesis =>
        rw [List.foldl_cons, inductionHypothesis]
        simp [laterText]
  exact fold (signs.zip rest) first

/-- A sign that is given once too often has no part in the text. -/
theorem runText_replicate
    {α : Type}
    (sign : String)
    (operands : List String)
    (operators : List α)
    (aligned : operators.length + 1 = operands.length) :
    runText operands (List.replicate operands.length sign) =
      runText operands (operators.map fun _ => sign) := by
  cases operands with
  | nil => rfl
  | cons first rest =>
      have lengths : operators.length = rest.length := Nat.succ.inj aligned
      have signs : (List.replicate (rest.length + 1) sign).zip rest =
          (operators.map fun _ => sign).zip rest := by
        rw [List.map_const', lengths, List.replicate_succ', ← List.append_nil rest,
          List.zip_append (by simp)]
        simp
      rw [runText, runText, List.length_cons, signs]

end Expr

namespace Grammar

/-- The sign of an operator of a level. -/
def Level.sign : (level : Level) → level.Operator → String
  | .product, operator => Arithmetic.sign operator
  | .sum, operator => Arithmetic.sign operator
  | .comparison, operator => Comparison.sign operator
  | .conjunction, _ => Connective.and.sign
  | .disjunction, _ => Connective.or.sign

/-- The sign of an operator is the canonical spelling of its token. -/
theorem Level.toList_sign
    {level : Level}
    {terminal : Terminal}
    {operator : level.Operator}
    (spelled : (terminal, operator) ∈ level.operators) :
    (level.sign operator).toList = terminal.sign := by
  have conjunction : Connective.and.sign.toList = Terminal.conjunction.sign := by decide
  have disjunction : Connective.or.sign.toList = Terminal.disjunction.sign := by decide
  cases level <;> cases terminal <;> simp_all [Level.operators] <;>
    first | decide | exact conjunction | exact disjunction

/-- The canonical text of a run. -/
theorem Level.text_node
    (level : Level)
    (first : Expr)
    (later : List Expr)
    (operators : List level.Operator)
    (aligned : operators.length = later.length) :
    (level.node first later operators).text =
      Expr.runText (first.text :: later.map Expr.text) (operators.map level.sign) := by
  cases later with
  | nil =>
      rw [Expr.runText, List.map_nil, List.zip_nil_right]
      cases level <;> rfl
  | cons second later =>
      cases level with
      | product => exact Expr.text_arithmetic _ _
      | sum => exact Expr.text_arithmetic _ _
      | comparison => exact Expr.text_comparison _ _
      | conjunction =>
          have text := Expr.text_logical .and (first :: second :: later)
          have replicated := Expr.runText_replicate Connective.and.sign
            ((first :: second :: later).map Expr.text) operators (by simpa using aligned)
          rw [List.length_map] at replicated
          exact text.trans replicated
      | disjunction =>
          have text := Expr.text_logical .or (first :: second :: later)
          have replicated := Expr.runText_replicate Connective.or.sign
            ((first :: second :: later).map Expr.text) operators (by simpa using aligned)
          rw [List.length_map] at replicated
          exact text.trans replicated

mutual

/-- The canonical text of a phrase. -/
def Phrase.text {symbol : Nonterminal} (vocabulary : Vocabulary) : Phrase symbol → List Char
  | .operand token _ => canonicalLexeme vocabulary token
  | .group _ _ inner _ _ => '(' :: (inner.text vocabulary ++ [')'])
  | .denial sign _ inner => sign.terminal.sign ++ ' ' :: inner.text vocabulary
  | .plain inner => inner.text vocabulary
  | .run first later => first.text vocabulary ++ later.text vocabulary

/-- The canonical text of the later part of a run. -/
def Later.text {level : Level} (vocabulary : Vocabulary) : Later level → List Char
  | .done => []
  | .more sign _ _ operand rest =>
    ' ' :: (sign.terminal.sign ++
      ' ' :: (operand.text vocabulary ++ rest.text vocabulary))

end

mutual

/-- The canonical text of a phrase is that of its tree. -/
theorem Phrase.toList_text_tree {symbol : Nonterminal} (vocabulary : Vocabulary) :
    (phrase : Phrase symbol) →
      (phrase.tree vocabulary).text.toList = phrase.text vocabulary
  | .operand token isOperand => by
      rw [Phrase.text, canonicalLexeme, if_pos isOperand]
      rfl
  | .group _ _ inner _ _ => by
      rw [Phrase.tree, Expr.text_group, Phrase.text, ← inner.toList_text_tree vocabulary]
      simp
  | .denial sign denies inner => by
      rw [Phrase.tree, Expr.text_negation, Phrase.text, denies,
        ← inner.toList_text_tree vocabulary]
      simp [Terminal.sign]
  | .plain inner => inner.toList_text_tree vocabulary
  | .run first later => by
      rw [Phrase.tree, Level.text_node _ _ _ _ (later.length_operators vocabulary),
        Expr.toList_runText, first.toList_text_tree vocabulary,
        later.flatMap_text_trees vocabulary, Phrase.text]

theorem Later.flatMap_text_trees {level : Level} (vocabulary : Vocabulary) :
    (later : Later level) →
      ((later.operators.map level.sign).zip
        ((later.trees vocabulary).map Expr.text)).flatMap Expr.laterText =
          later.text vocabulary
  | .done => rfl
  | .more sign operator spelled operand rest => by
      rw [Later.operators, Later.trees, List.map_cons, List.map_cons, List.zip_cons_cons,
        List.flatMap_cons, rest.flatMap_text_trees vocabulary, Expr.laterText,
        Level.toList_sign spelled, operand.toList_text_tree vocabulary, Later.text]
      simp

end

/-! ## Scanning -/

/-- The canonical spelling of an operator or a parenthesis is its sign. -/
theorem canonical_eq_of_sign
    (vocabulary : Vocabulary)
    {token : Token}
    (other : token.terminal.isOperand = false) :
    canonical vocabulary token = ((canonical vocabulary token).1, token.terminal.sign) := by
  rw [canonical, canonicalLexeme, other]
  rfl

/-- The sign of an operator or a parenthesis can be put in front of a text that it does not go on
with. -/
theorem Restores.lexes_sign
    {vocabulary : Vocabulary}
    {token : Token}
    {rest : List Char}
    {spelled : List (Terminal × List Char)}
    (restored : Restores vocabulary token)
    (other : token.terminal.isOperand = false)
    (later : Lexes rest spelled)
    (detached : Detached rest) :
    Lexes (token.terminal.sign ++ rest) (canonical vocabulary token :: spelled) := by
  have spells := restored.spells
  rw [canonical_eq_of_sign vocabulary other] at spells ⊢
  exact later.append spells detached

/-- An opening parenthesis can be put in front of every text. -/
theorem Restores.lexes_opening
    {vocabulary : Vocabulary}
    {token : Token}
    {rest : List Char}
    {spelled : List (Terminal × List Char)}
    (restored : Restores vocabulary token)
    (opens : token.terminal = .leftParen)
    (later : Lexes rest spelled) :
    Lexes ('(' :: rest) (canonical vocabulary token :: spelled) := by
  have spells := restored.spells
  rw [canonical_eq_of_sign vocabulary (by rw [opens]; rfl), opens] at spells ⊢
  exact later.cons spells fun next _ => Terminal.not_extends_opening next

/-- The later part of a run begins with a blank. -/
theorem Later.detached
    {level : Level}
    (vocabulary : Vocabulary)
    (later : Later level)
    {rest : List Char}
    (detached : Detached rest) :
    Detached (later.text vocabulary ++ rest) := by
  cases later with
  | done => exact detached
  | more => exact detached_blank _

mutual

/-- The canonical text of a phrase lexes into the canonical spellings of its tokens. -/
theorem Phrase.lexes
    {vocabulary : Vocabulary}
    {symbol : Nonterminal}
    {rest : List Char}
    {spelled : List (Terminal × List Char)} :
    (phrase : Phrase symbol) →
      (∀ token ∈ phrase.tokens, Restores vocabulary token) →
      Lexes rest spelled →
      Detached rest →
      Lexes (phrase.text vocabulary ++ rest)
        (phrase.tokens.map (canonical vocabulary) ++ spelled)
  | .operand token _, restored, lexes, detached =>
      lexes.append (restored token List.mem_cons_self).spells detached
  | .group opening opens inner closing closes, restored, lexes, detached => by
      rw [Phrase.tokens, List.forall_mem_cons, List.forall_mem_append] at restored
      obtain ⟨restoredOpening, restoredInner, restoredClosing⟩ := restored
      have lexesClosing := (restoredClosing closing List.mem_cons_self).lexes_sign
        (by rw [closes]; rfl) lexes detached
      rw [closes] at lexesClosing
      have lexesInner := inner.lexes restoredInner lexesClosing (detached_closing rest)
      have lexesOpening := restoredOpening.lexes_opening opens lexesInner
      simpa [Phrase.tokens, Phrase.text, Terminal.sign] using lexesOpening
  | .denial sign denies inner, restored, lexes, detached => by
      rw [Phrase.tokens, List.forall_mem_cons] at restored
      have lexesInner := inner.lexes restored.2 lexes detached
      have lexesSign := restored.1.lexes_sign (by rw [denies]; rfl) lexesInner.blank
        (detached_blank _)
      rw [Phrase.tokens, List.map_cons, Phrase.text, List.append_assoc]
      exact lexesSign
  | .plain inner, restored, lexes, detached => inner.lexes restored lexes detached
  | .run first later, restored, lexes, detached => by
      rw [Phrase.tokens, List.forall_mem_append] at restored
      rw [Phrase.text, Phrase.tokens, List.map_append, List.append_assoc, List.append_assoc]
      exact first.lexes restored.1 (later.lexes restored.2 lexes detached)
        (later.detached vocabulary detached)

theorem Later.lexes
    {vocabulary : Vocabulary}
    {level : Level}
    {rest : List Char}
    {spelled : List (Terminal × List Char)} :
    (later : Later level) →
      (∀ token ∈ later.tokens, Restores vocabulary token) →
      Lexes rest spelled →
      Detached rest →
      Lexes (later.text vocabulary ++ rest)
        (later.tokens.map (canonical vocabulary) ++ spelled)
  | .done, _, lexes, _ => lexes
  | .more sign operator signs operand others, restored, lexes, detached => by
      rw [Later.tokens, List.forall_mem_cons, List.forall_mem_append] at restored
      obtain ⟨restoredSign, restoredOperand, restoredOthers⟩ := restored
      have lexesOthers := others.lexes restoredOthers lexes detached
      have lexesOperand := operand.lexes restoredOperand lexesOthers
        (others.detached vocabulary detached)
      have lexesSign := restoredSign.lexes_sign (Level.isOperand_eq_false signs)
        lexesOperand.blank (detached_blank _)
      rw [Later.tokens, List.map_cons, Later.text]
      simpa using lexesSign.blank

end

end Grammar
end DecisionRules
