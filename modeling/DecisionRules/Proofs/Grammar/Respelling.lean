import DecisionRules.Proofs.Grammar.Recasing
import DecisionRules.Proofs.Token.Exchange

/-!
# Rule texts that are spelled differently

Rule texts whose tokens mean the same, one by one, are read alike.  So it makes no difference which
of several signs an operator is written with, nor in which letter case reserved words and the names
of the vocabulary are.
-/

namespace DecisionRules

open Grammar

/-- The operators that can be written with several signs, each with all of its signs. -/
def Terminal.synonyms : List (List String) :=
  [["and", "&&", "&"], ["or", "||", "|"], ["not", "!"], ["=", "=="]]

/-- The signs of one operator spell symbols of one meaning, which are no operands. -/
theorem Terminal.exists_of_mem_synonyms
    {signs : List String}
    {sign other : String}
    (listed : signs ∈ synonyms)
    (member : sign ∈ signs)
    (memberOther : other ∈ signs) :
    ∃ terminal otherTerminal,
      ofLexeme? sign.toList = some terminal ∧
        ofLexeme? other.toList = some otherTerminal ∧
        terminal.sense = otherTerminal.sense ∧
        terminal.isOperand = false := by
  have all : ∀ signs ∈ synonyms, ∀ sign ∈ signs, ∀ other ∈ signs,
      ∃ terminal ∈ all, ∃ otherTerminal ∈ all,
        ofLexeme? sign.toList = some terminal ∧
          ofLexeme? other.toList = some otherTerminal ∧
          terminal.sense = otherTerminal.sense ∧
          terminal.isOperand = false := by
    decide +kernel
  obtain ⟨terminal, _, otherTerminal, _, same⟩ := all signs listed sign member other memberOther
  exact ⟨terminal, otherTerminal, same⟩

/-- Tokens with the same spellings but for one operator, which is written with another sign, are
synonymous. -/
theorem forall₂_synonymous_of_exchange
    {vocabulary : Vocabulary}
    {earlier later others : List Token}
    {token : Token}
    {terminal : Terminal}
    {lexeme : List Char}
    (sense : token.terminal.sense = terminal.sense)
    (noOperand : token.terminal.isOperand = false)
    (spelled : others.map Token.spelling =
      earlier.map Token.spelling ++ (terminal, lexeme) :: later.map Token.spelling) :
    (earlier ++ token :: later).Forall₂ (Synonymous vocabulary) others := by
  have synonymous {tokens others : List Token}
      (same : others.map Token.spelling = tokens.map Token.spelling) :
      tokens.Forall₂ (Synonymous vocabulary) others :=
    (forall₂_of_map_eq same.symm).imp fun _ _ => .of_spelling
  obtain ⟨before, following, rfl, sameBefore, sameFollowing⟩ := List.map_eq_append_iff.mp spelled
  obtain ⟨other, after, rfl, one, sameAfter⟩ := List.map_eq_cons_iff.mp sameFollowing
  obtain ⟨rfl, _⟩ := Prod.mk.inj one
  exact List.rel_append (synonymous sameBefore)
    (.cons (.of_sense sense noOperand) (synonymous sameAfter))

/-- How a rule text is spelled is insignificant.  Texts with synonymous tokens are read as the same
tree but for its places, or fail at the same token and for the same fault.  A text in another letter
case is read as the same tree or fails with the same error, places included, and only what the error
quotes may be in another letter case; single letters that the vocabulary does not list have to be
left as they are.  And a text in which one sign of an operator between two blanks is exchanged for
another one is read like the text. -/
theorem Expr.readAlike_of_respelling (vocabulary : Vocabulary) (maxDepth : Nat) :
    (∀ source other tokens others,
      Tokens.scan source = .ok tokens →
        Tokens.scan other = .ok others →
          tokens.body.Forall₂ (Synonymous vocabulary) others.body →
            ReadAlike (tokens.toList.zip others.toList) (parse vocabulary maxDepth source)
              (parse vocabulary maxDepth other)) ∧
    (∀ source other,
      Recased vocabulary source other →
        (parse vocabulary maxDepth other).mapError RuleError.lowered =
          (parse vocabulary maxDepth source).mapError RuleError.lowered) ∧
    ∀ signs ∈ Terminal.synonyms,
      ∀ sign ∈ signs,
        ∀ otherSign ∈ signs,
          ∀ before after tokens,
            Tokens.scan (before ++ " " ++ sign ++ " " ++ after) = .ok tokens →
              ∃ others,
                Tokens.scan (before ++ " " ++ otherSign ++ " " ++ after) = .ok others ∧
                  ReadAlike (tokens.toList.zip others.toList)
                    (parse vocabulary maxDepth (before ++ " " ++ sign ++ " " ++ after))
                    (parse vocabulary maxDepth (before ++ " " ++ otherSign ++ " " ++ after)) := by
  refine ⟨?_, fun source other recased => lowered_parse_of_recased recased maxDepth, ?_⟩
  · intro source other tokens others scanned otherScanned pairs
    exact readAlike_of_synonymous scanned otherScanned pairs maxDepth
  · intro signs listed sign member otherSign memberOther before after tokens scanned
    obtain ⟨terminal, otherTerminal, spells, otherSpells, sense, noOperand⟩ :=
      Terminal.exists_of_mem_synonyms listed member memberOther
    obtain ⟨earlier, token, later, others, body, spelled, otherScanned, otherSpelled⟩ :=
      Tokens.exists_scan_of_exchange spells otherSpells scanned
    obtain ⟨rfl, _⟩ := Prod.mk.inj spelled
    refine ⟨others, otherScanned, readAlike_of_synonymous scanned otherScanned ?_ maxDepth⟩
    rw [body]
    exact forall₂_synonymous_of_exchange sense noOperand otherSpelled

/-- The rule `Days < 030 and a = 1` is read like `DAYS < 30 && a == 1`, which has other numerals and
signs, like `days < 030 AND a = 1`, which is in another letter case, and like `Days < 030 & a = 1`,
which has another sign. -/
theorem Expr.readAlike_of_respelling_of_conjunction :
    ∃ tokens,
      Tokens.scan "Days < 030 and a = 1" = .ok tokens ∧
        (∃ others,
          Tokens.scan "DAYS < 30 && a == 1" = .ok others ∧
            tokens.body.Forall₂ (Synonymous .standard) others.body ∧
            ReadAlike (tokens.toList.zip others.toList)
              (parse .standard 0 "Days < 030 and a = 1")
              (parse .standard 0 "DAYS < 30 && a == 1")) ∧
        (Recased .standard "Days < 030 and a = 1" "days < 030 AND a = 1" ∧
          (parse .standard 0 "days < 030 AND a = 1").mapError RuleError.lowered =
            (parse .standard 0 "Days < 030 and a = 1").mapError RuleError.lowered) ∧
        ∃ others,
          Tokens.scan ("Days < 030" ++ " " ++ "&" ++ " " ++ "a = 1") = .ok others ∧
            ReadAlike (tokens.toList.zip others.toList)
              (parse .standard 0 ("Days < 030" ++ " " ++ "and" ++ " " ++ "a = 1"))
              (parse .standard 0 ("Days < 030" ++ " " ++ "&" ++ " " ++ "a = 1")) := by
  have both :
      ((Tokens.scan "Days < 030 and a = 1").toOption.bind fun tokens =>
        (Tokens.scan "DAYS < 30 && a == 1").toOption.map fun others =>
          decide (tokens.body.Forall₂ (Synonymous .standard) others.body)) = some true := by
    decide +kernel
  have unlisted :
      ((Tokens.scan "Days < 030 and a = 1").toOption.map fun tokens =>
        decide (∀ token ∈ tokens.body,
          Vocabulary.isSingleLetter token.lexeme = true →
            Vocabulary.standard.canonical? token.lexeme = none →
              Text.slice "days < 030 AND a = 1".toList token.span = token.lexeme.toList)) =
        some true := by
    decide +kernel
  have joined : "Days < 030" ++ " " ++ "and" ++ " " ++ "a = 1" = "Days < 030 and a = 1" := by
    decide +kernel
  obtain ⟨alike, inAnyCase, exchanged⟩ := readAlike_of_respelling .standard 0
  cases scanned : Tokens.scan "Days < 030 and a = 1" with
  | error error =>
      rw [scanned] at both
      cases both
  | ok tokens =>
      cases otherScanned : Tokens.scan "DAYS < 30 && a == 1" with
      | error error =>
          rw [scanned, otherScanned] at both
          cases both
      | ok others =>
          rw [scanned, otherScanned] at both
          rw [scanned] at unlisted
          have pairs := of_decide_eq_true (Option.some.inj both)
          have recased : Recased .standard "Days < 030 and a = 1" "days < 030 AND a = 1" := by
            refine ⟨by decide +kernel, fun found foundScanned => ?_⟩
            obtain rfl := Except.ok.inj (scanned.symm.trans foundScanned)
            exact of_decide_eq_true (Option.some.inj unlisted)
          refine ⟨tokens, rfl, ⟨others, rfl, pairs, alike _ _ _ _ scanned otherScanned pairs⟩,
            ⟨recased, inAnyCase _ _ recased⟩, ?_⟩
          exact exchanged ["and", "&&", "&"] (by decide) "and" (by decide) "&" (by decide)
            "Days < 030" "a = 1" tokens (by rw [joined, scanned])

end DecisionRules
