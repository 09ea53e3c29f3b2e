import DecisionRules.Proofs.Token.Respacing

/-!
# Exchanging a lexeme

No lexeme has a separator in it.  So the tokens of a text with a separator somewhere are those of
the text before it and of the text after it.  A lexeme between two blanks is a token of its own,
and it can be exchanged for another one without an effect on the other tokens.
-/

namespace DecisionRules

/-- What belongs to a word separates nothing. -/
theorem isSeparator_eq_false_of_continuesWord
    {char : Char}
    (continues : Terminal.continuesWord char = true) :
    isSeparator char = false := by
  rw [Bool.eq_false_iff]
  intro separates
  simp only [isSeparator, Bool.or_eq_true, beq_iff_eq] at separates
  obtain ((rfl | rfl) | rfl) | rfl := separates <;> exact absurd continues (by decide)

/-- No lexeme has a separator in it. -/
theorem isSeparator_eq_false_of_mem_lexeme
    {lexeme : List Char}
    {terminal : Terminal}
    (spells : Terminal.ofLexeme? lexeme = some terminal) :
    ∀ char ∈ lexeme, isSeparator char = false := by
  intro char member
  obtain ⟨digits, _⟩ | ⟨word, _⟩ | listed := Terminal.ofLexeme?_cases spells
  · have digit := digits.2 char member
    exact isSeparator_eq_false_of_continuesWord ((Terminal.continuesWord_iff char).mpr (.inr digit))
  · obtain ⟨first, rest, rfl, begins, continues⟩ := word
    apply isSeparator_eq_false_of_continuesWord
    obtain rfl | memberRest := List.mem_cons.mp member
    · exact (Terminal.continuesWord_iff char).mpr (.inl begins)
    · exact continues char memberRest
  · have all : ∀ spelling ∈ Terminal.spellings, spelling.1.all (!isSeparator ·) := by
      decide
    simpa using List.all_eq_true.mp (all _ listed) char member

namespace Tiles

variable {offset : Nat} {tokens : List Token}

/-- A text with a separator in it is tiled on either side of the separator. -/
theorem exists_append_of_separator
    {left right : List Char}
    {separator : Char}
    (separates : isSeparator separator = true)
    (tiles : Tiles offset (left ++ separator :: right) tokens) :
    ∃ earlier later,
      tokens = earlier ++ later ∧
        Tiles offset left earlier ∧
        Tiles (offset + Text.byteWidth left + separator.utf8Size) right later := by
  generalize text : left ++ separator :: right = whole at tiles
  induction tiles generalizing left with
  | finish => simp at text
  | @separator offset first rest tokens separatesFirst tilesRest inductionHypothesis =>
      cases left with
      | nil =>
          obtain ⟨rfl, rfl⟩ := List.cons.inj text
          exact ⟨[], tokens, rfl, .finish, tilesRest⟩
      | cons char left =>
          obtain ⟨rfl, same⟩ := List.cons.inj text
          obtain ⟨earlier, later, rfl, tilesLeft, tilesRight⟩ := inductionHypothesis same
          refine ⟨earlier, later, rfl, .separator separatesFirst tilesLeft, ?_⟩
          rwa [Text.byteWidth_cons, ← Nat.add_assoc]
  | @token offset token lexeme rest tokens spelled placed spells longest tilesRest
      inductionHypothesis =>
      have apart := isSeparator_eq_false_of_mem_lexeme spells
      -- As the lexeme has no separator, it ends before the separator or there.
      obtain ⟨behind, rfl, rfl⟩ :
          ∃ behind, left = lexeme ++ behind ∧ rest = behind ++ separator :: right := by
        obtain ⟨inside, rfl, after⟩ | behind := List.append_eq_append_iff.mp text
        · cases inside with
          | nil => exact ⟨[], by simp, after.symm⟩
          | cons char inside =>
              obtain ⟨rfl, _⟩ := List.cons.inj after
              rw [apart separator (by simp)] at separates
              cases separates
        · exact behind
      obtain ⟨earlier, later, rfl, tilesLeft, tilesRight⟩ := inductionHypothesis rfl
      refine ⟨token :: earlier, later, rfl, .token spelled placed spells ?_ tilesLeft, ?_⟩
      · cases behind with
        | nil => simp
        | cons next behind => exact longest
      · rwa [Text.byteWidth_append, ← Nat.add_assoc]

/-- A lexeme in front of a text that does not make it longer is the first token. -/
theorem exists_cons_of_lexeme
    {lexeme rest : List Char}
    {terminal : Terminal}
    (spells : Terminal.ofLexeme? lexeme = some terminal)
    (longest : ∀ next ∈ rest.head?, ¬ Terminal.Extends lexeme next)
    (tiles : Tiles offset (lexeme ++ rest) tokens) :
    ∃ token later,
      tokens = token :: later ∧
        token.spelling = (terminal, lexeme) ∧
        Tiles (offset + Text.byteWidth lexeme) rest later := by
  cases lexeme with
  | nil => cases spells
  | cons first tail =>
      generalize text : first :: tail ++ rest = whole at tiles
      cases tiles with
      | finish => cases text
      | separator separates _ =>
          obtain ⟨rfl, _⟩ := List.cons.inj text
          rw [isSeparator_eq_false_of_ofLexeme? spells] at separates
          cases separates
      | @token _ token lexeme other later spelled _ spellsToken longestToken tilesLater =>
          cases lexeme with
          | nil => cases spellsToken
          | cons char more =>
              obtain ⟨rfl, same⟩ := List.cons.inj text
              have taken := (lexemeTail_append_eq_iff spells rest).mpr longest
              have takenToken := (lexemeTail_append_eq_iff spellsToken other).mpr longestToken
              change tail ++ rest = more ++ other at same
              obtain rfl : tail = more := by rw [← taken, same, takenToken]
              obtain rfl := List.append_cancel_left same
              have terminals := Option.some.inj (spellsToken.symm.trans spells)
              exact ⟨token, later, rfl, by rw [Token.spelling, terminals, spelled], tilesLater⟩

/-- What is tiled lexes, also in front of a text that makes no lexeme longer. -/
theorem lexes_append
    {text rest : List Char}
    {spelled : List (Terminal × List Char)}
    (tiles : Tiles offset text tokens)
    (later : Lexes rest spelled)
    (detached : Detached rest) :
    Lexes (text ++ rest) (tokens.map Token.spelling ++ spelled) := by
  induction tiles with
  | finish => exact later
  | separator separates _ inductionHypothesis =>
      exact inductionHypothesis.separators (List.forall_mem_singleton.mpr separates)
  | @token _ token lexeme behind _ spelledToken _ spells longest _ inductionHypothesis =>
      rw [List.append_assoc, List.map_cons, List.cons_append, Token.spelling, spelledToken]
      refine inductionHypothesis.cons spells ?_
      cases behind with
      | nil => exact fun next member => detached next member lexeme
      | cons next behind => exact longest

end Tiles

namespace Tokens

/-- A lexeme between two blanks is exchanged for another one: the text has the tokens of before, but
for the one of that lexeme. -/
theorem exists_scan_of_exchange
    {sign other : String}
    {terminal otherTerminal : Terminal}
    (spells : Terminal.ofLexeme? sign.toList = some terminal)
    (otherSpells : Terminal.ofLexeme? other.toList = some otherTerminal)
    {before after : String}
    {tokens : Tokens}
    (scanned : scan (before ++ " " ++ sign ++ " " ++ after) = .ok tokens) :
    ∃ earlier token later others,
      tokens.body = earlier ++ token :: later ∧
        token.spelling = (terminal, sign.toList) ∧
        scan (before ++ " " ++ other ++ " " ++ after) = .ok others ∧
        others.body.map Token.spelling =
          earlier.map Token.spelling ++
            (otherTerminal, other.toList) :: later.map Token.spelling := by
  have text (sign : String) : (before ++ " " ++ sign ++ " " ++ after).toList =
      before.toList ++ ' ' :: (sign.toList ++ ' ' :: after.toList) := by
    simp
  have tiles : Tiles 0 (before ++ " " ++ sign ++ " " ++ after).toList tokens.body :=
    tiles_of_scanAt scanned
  rw [text] at tiles
  obtain ⟨earlier, following, body, tilesBefore, tilesSign⟩ :=
    tiles.exists_append_of_separator rfl
  obtain ⟨token, later, rfl, spelled, tilesBlank⟩ :=
    tilesSign.exists_cons_of_lexeme spells fun next member =>
      detached_blank after.toList next member sign.toList
  have blank : Separators [' '] := by decide
  have tilesAfter := tilesBlank.of_separators blank
  have lexesAfter := tilesAfter.lexes_append .finish detached_nil
  rw [List.append_nil, List.append_nil] at lexesAfter
  have lexes : Lexes (before ++ " " ++ other ++ " " ++ after).toList
      (earlier.map Token.spelling ++
        (otherTerminal, other.toList) :: later.map Token.spelling) := by
    rw [text]
    exact tilesBefore.lexes_append
      (lexesAfter.blank.append otherSpells (detached_blank _)).blank (detached_blank _)
  obtain ⟨others, otherScanned, otherSpelled⟩ := exists_scan_of_lexes lexes
  exact ⟨earlier, token, later, others, body, spelled, otherScanned, otherSpelled⟩

end Tokens

end DecisionRules
