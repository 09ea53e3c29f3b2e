import DecisionRules.Proofs.Token.Tiling

/-!
# Texts and the spellings they are made of

A text lexes into a list of spellings when, wherever it stands, it is tiled by tokens that are
spelled like this.  Places are left aside, and what a text lexes into is established from its end,
one lexeme after another.
-/

namespace DecisionRules

/-- The symbol of a token and the characters that spell it. -/
def Token.spelling (token : Token) : Terminal × List Char :=
  (token.terminal, token.lexeme.toList)

/-- A text is tiled by tokens with the given spellings, wherever it stands. -/
def Lexes (text : List Char) (spelled : List (Terminal × List Char)) : Prop :=
  ∀ offset, ∃ tokens, Tiles offset text tokens ∧ tokens.map Token.spelling = spelled

namespace Lexes

theorem finish : Lexes [] [] :=
  fun _ => ⟨[], .finish, rfl⟩

section

variable {rest : List Char} {spelled : List (Terminal × List Char)} (later : Lexes rest spelled)

include later

/-- Separators can be put in front of a text. -/
theorem separators {gap : List Char} (separate : ∀ char ∈ gap, isSeparator char = true) :
    Lexes (gap ++ rest) spelled := by
  induction gap with
  | nil => exact later
  | cons char gap inductionHypothesis =>
      obtain ⟨separates, separateLater⟩ := List.forall_mem_cons.mp separate
      intro offset
      obtain ⟨tokens, tiles, same⟩ := inductionHypothesis separateLater (offset + char.utf8Size)
      exact ⟨tokens, .separator separates tiles, same⟩

/-- A blank can be put in front of a text. -/
theorem blank : Lexes (' ' :: rest) spelled :=
  later.separators (List.forall_mem_singleton.mpr rfl)

variable
  {lexeme : List Char}
  {terminal : Terminal}
  (spells : Terminal.ofLexeme? lexeme = some terminal)

include spells

/-- A lexeme can be put in front of a text that does not make it longer. -/
theorem cons (longest : ∀ next ∈ rest.head?, ¬ Terminal.Extends lexeme next) :
    Lexes (lexeme ++ rest) ((terminal, lexeme) :: spelled) := by
  intro offset
  obtain ⟨tokens, tiles, same⟩ := later (offset + Text.byteWidth lexeme)
  refine ⟨.ofLexeme terminal lexeme offset :: tokens, .lexeme spells longest tiles, ?_⟩
  rw [List.map_cons, same, Token.spelling, Token.ofLexeme, String.toList_ofList]

/-- A lexeme can be put in front of a text that makes no lexeme longer. -/
theorem append (detached : Detached rest) :
    Lexes (lexeme ++ rest) ((terminal, lexeme) :: spelled) :=
  later.cons spells fun next member => detached next member lexeme

end

end Lexes

/-- The spellings of tokens do not depend on their positions. -/
theorem Token.map_spelling_eq
    {left right : List Token}
    (same : left.map stamp = right.map stamp) :
    left.map spelling = right.map spelling := by
  have unstamped (tokens : List Token) :
      tokens.map spelling =
        (tokens.map stamp).map fun stamp => (stamp.1, stamp.2.1.toList) := by
    rw [List.map_map]
    rfl
  rw [unstamped, same, ← unstamped]

namespace Tokens

/-- A text that lexes can be scanned. -/
theorem exists_scan_of_lexes
    {source : String}
    {spelled : List (Terminal × List Char)}
    (lexes : Lexes source.toList spelled) :
    ∃ tokens, scan source = .ok tokens ∧ tokens.body.map Token.spelling = spelled := by
  obtain ⟨tiling, tiles, same⟩ := lexes Cursor.start.offset
  obtain ⟨tokens, scanned, stamps, _⟩ := exists_scanAt_of_tiles tiles rfl
  refine ⟨tokens, scanned, ?_⟩
  rw [← same]
  exact Token.map_spelling_eq stamps

/-- The tokens of two texts are spelled the same, the ends of the texts included, when those before
the ends are. -/
theorem map_spelling_toList_eq
    {source other : String}
    {tokens others : Tokens}
    (scanned : scan source = .ok tokens)
    (otherScanned : scan other = .ok others)
    (same : others.body.map Token.spelling = tokens.body.map Token.spelling) :
    others.toList.map Token.spelling = tokens.toList.map Token.spelling := by
  have spelled {text : String} {tokens : Tokens} (scanned : scan text = .ok tokens) :
      tokens.finish.spelling = (.finish, "".toList) :=
    congrArg (fun stamp => (stamp.1, stamp.2.1.toList)) (stamp_finish_of_scan scanned)
  rw [toList, toList, List.map_append, List.map_append, same, List.map_singleton,
    List.map_singleton, spelled otherScanned, spelled scanned]

end Tokens
end DecisionRules
