import DecisionRules.Proofs.Token.Lexing

/-!
# Texts that are spaced differently

Two texts with the same lexemes in the same order may have different separators around them.  Such
texts have the same tokens as long as no lexemes are put together that were apart: a lexeme ends
where a separator stands, or where the same lexeme follows as before.
-/

namespace DecisionRules

/-- Some characters may all stand between tokens. -/
def Separators (gap : List Char) : Prop :=
  ∀ char ∈ gap, isSeparator char = true

instance (gap : List Char) : Decidable (Separators gap) :=
  decidable_of_iff (gap.all isSeparator = true) List.all_eq_true

/-- Two texts consist of the same lexemes, with separators of their own around them.  Where one
text has separators between two lexemes, so has the other one; before the first lexeme and after
the last one either may have none.  The flag tells whether a lexeme stands in front of the
texts. -/
inductive Respaced : Bool → List String → List Char → List Char → Prop
  | finish
      {inside : Bool}
      {gap otherGap : List Char}
      (separate : Separators gap)
      (separateOther : Separators otherGap) :
      Respaced inside [] gap otherGap
  | lexeme
      {inside : Bool}
      {gap otherGap : List Char}
      {lexeme : String}
      {lexemes : List String}
      {rest otherRest : List Char}
      (separate : Separators gap)
      (separateOther : Separators otherGap)
      (kept : inside = true → gap ≠ [] → otherGap ≠ [])
      (later : Respaced true lexemes rest otherRest) :
      Respaced inside (lexeme :: lexemes) (gap ++ (lexeme.toList ++ rest))
        (otherGap ++ (lexeme.toList ++ otherRest))

/-! ## Parts of tilings -/

namespace Tiles

variable {offset : Nat} {rest : List Char} {tokens : List Token}

/-- What is tiled from some separators on is tiled after them. -/
theorem of_separators
    {gap : List Char}
    (separate : Separators gap)
    (tiles : Tiles offset (gap ++ rest) tokens) :
    Tiles (offset + Text.byteWidth gap) rest tokens := by
  induction gap generalizing offset with
  | nil => exact tiles
  | cons char gap inductionHypothesis =>
      obtain ⟨separates, separateLater⟩ := List.forall_mem_cons.mp separate
      have later : Tiles (offset + char.utf8Size) (gap ++ rest) tokens := by
        generalize text : char :: gap ++ rest = whole at tiles
        cases tiles with
        | finish => cases text
        | separator _ later =>
            cases text
            exact later
        | @token _ _ lexeme _ _ _ _ spells _ _ =>
            cases lexeme with
            | nil => cases spells
            | cons first tail =>
                obtain ⟨rfl, _⟩ := List.cons.inj text
                rw [isSeparator_eq_false_of_ofLexeme? spells] at separates
                cases separates
      rw [Text.byteWidth_cons, ← Nat.add_assoc]
      exact inductionHypothesis separateLater later

/-- What is tiled from the lexeme of its first token on is tiled after it, where nothing makes the
lexeme longer. -/
theorem of_lexeme
    {token : Token}
    (tiles : Tiles offset (token.lexeme.toList ++ rest) (token :: tokens)) :
    (∀ next ∈ rest.head?, ¬ Terminal.Extends token.lexeme.toList next) ∧
      Tiles (offset + Text.byteWidth token.lexeme.toList) rest tokens := by
  have spellsToken := tiles.spells token List.mem_cons_self
  generalize text : token.lexeme.toList ++ rest = whole at tiles
  cases tiles with
  | @separator _ first _ _ separates _ =>
      cases lexeme : token.lexeme.toList with
      | nil =>
          rw [lexeme] at spellsToken
          cases spellsToken
      | cons char tail =>
          rw [lexeme] at spellsToken text
          obtain ⟨rfl, _⟩ := List.cons.inj text
          rw [isSeparator_eq_false_of_ofLexeme? spellsToken] at separates
          cases separates
  | token spelled _ _ longest later =>
      subst spelled
      obtain rfl := List.append_cancel_left text
      exact ⟨longest, later⟩

end Tiles

/-! ## The same tokens -/

namespace Respaced

variable {inside : Bool} {lexemes : List String} {text other : List Char}

/-- What does not make a lexeme longer does not do so with other separators. -/
theorem longest
    (respaced : Respaced true lexemes text other)
    (nonempty : ∀ lexeme ∈ lexemes, lexeme.toList ≠ [])
    {before : List Char}
    (longest : ∀ next ∈ text.head?, ¬ Terminal.Extends before next) :
    ∀ next ∈ other.head?, ¬ Terminal.Extends before next := by
  cases respaced with
  | finish _ separateOther =>
      cases other with
      | nil => exact fun next member => detached_nil next member before
      | cons char rest =>
          have separates := separateOther char List.mem_cons_self
          exact fun next member => detached_separator separates rest next member before
  | @lexeme _ gap otherGap first _ rest _ _ separateOther kept _ =>
      cases otherGap with
      | nil =>
          obtain rfl : gap = [] := Decidable.byContradiction fun apart => kept rfl apart rfl
          obtain ⟨char, tail, spelled⟩ :=
            List.exists_cons_of_ne_nil (nonempty first List.mem_cons_self)
          rw [List.nil_append, spelled] at longest ⊢
          exact longest
      | cons char otherGap =>
          have separates := separateOther char List.mem_cons_self
          exact fun next member => detached_separator separates _ next member before

/-- With other separators, a text that is tiled has the spellings of its tokens. -/
theorem lexes
    (respaced : Respaced inside lexemes text other)
    {offset : Nat}
    {tokens : List Token}
    (spelled : tokens.map Token.lexeme = lexemes)
    (tiles : Tiles offset text tokens) :
    Lexes other (tokens.map Token.spelling) := by
  induction respaced generalizing offset tokens with
  | @finish _ _ otherGap _ separateOther =>
      obtain rfl := List.map_eq_nil_iff.mp spelled
      rw [← List.append_nil otherGap]
      exact Lexes.finish.separators separateOther
  | lexeme separate separateOther _ later inductionHypothesis =>
      obtain ⟨token, tokens, rfl, rfl, spelledLater⟩ := List.map_eq_cons_iff.mp spelled
      have spells := tiles.spells
      obtain ⟨longestToken, tilesLater⟩ := (tiles.of_separators separate).of_lexeme
      have nonempty : ∀ lexeme ∈ tokens.map Token.lexeme, lexeme.toList ≠ [] := by
        refine List.forall_mem_map.mpr fun other member empty => ?_
        have spellsOther := spells other (List.mem_cons_of_mem _ member)
        rw [empty] at spellsOther
        cases spellsOther
      rw [← spelledLater] at later
      exact ((inductionHypothesis spelledLater tilesLater).cons
        (spells token List.mem_cons_self) (later.longest nonempty longestToken)).separators
          separateOther

end Respaced

namespace Tokens

/-- A text that can be scanned is scanned into tokens with the same spellings when it is spaced
differently. -/
theorem exists_scan_of_respaced
    {source other : String}
    {tokens : Tokens}
    (scanned : scan source = .ok tokens)
    (respaced :
      Respaced false (tokens.body.map Token.lexeme) source.toList other.toList) :
    ∃ others,
      scan other = .ok others ∧
        others.body.map Token.spelling = tokens.body.map Token.spelling :=
  exists_scan_of_lexes (respaced.lexes rfl (tiles_of_scanAt scanned))

end Tokens
end DecisionRules
