import DecisionRules.Proofs.Grammar.Synonym

/-!
# Phrases at their places

A rule text is read exactly as the tree of a phrase whose tokens tile the text.  Positions of
tokens do not matter for that, and a phrase can be moved: tokens with the same symbols and lexemes
at moved places are a phrase with the moved tree, which can be read where the phrase can.
-/

namespace DecisionRules

/-- A token without its position, at a place that is changed. -/
def Token.stampAt (change : Span → Span) (token : Token) : Terminal × String × Span :=
  (token.terminal, token.lexeme, change token.span)

namespace Grammar

/-! ## Depth -/

mutual

/-- The places of a phrase that lies deeper lie deeper by as much. -/
theorem Phrase.places_add {symbol : Nonterminal} (depth extra : Nat) :
    (phrase : Phrase symbol) →
      phrase.places (depth + extra) = (phrase.places depth).map (Prod.map id (· + extra))
  | .operand _ _ => rfl
  | .group _ _ inner _ _ => by
      simp [Phrase.places, ← inner.places_add, Nat.add_right_comm depth 1 extra]
  | .denial _ _ inner => by
      simp [Phrase.places, ← inner.places_add, Nat.add_right_comm depth 1 extra]
  | .plain inner => inner.places_add depth extra
  | .run first later => by
      simp [Phrase.places, ← first.places_add, ← later.places_add]

theorem Later.places_add {level : Level} (depth extra : Nat) :
    (later : Later level) →
      later.places (depth + extra) = (later.places depth).map (Prod.map id (· + extra))
  | .done => rfl
  | .more _ _ _ operand rest => by
      simp [Later.places, ← operand.places_add, ← rest.places_add]

end

section Depth

variable {vocabulary : Vocabulary} {symbol : Nonterminal} {phrase : Phrase symbol}

/-- A phrase that lies deeper can be read where the limit is higher by as much. -/
theorem readable_places_add_iff {limit depth extra : Nat} :
    Readable vocabulary (limit + extra) (phrase.places (depth + extra)) ↔
      Readable vocabulary limit (phrase.places depth) := by
  rw [phrase.places_add, Readable, List.forall_mem_map]
  simp [Readable]

/-- A phrase that can be read deep inside of a rule can be read on its own. -/
theorem readable_places_zero
    {limit depth : Nat}
    (readable : Readable vocabulary limit (phrase.places depth)) :
    Readable vocabulary limit (phrase.places 0) := by
  apply readable_places_add_iff.mp
  rw [Nat.zero_add]
  exact fun place member =>
    ⟨(readable place member).1, Nat.le_add_right_of_le (readable place member).2⟩

/-- Tokens with the symbols and lexemes of a phrase are a phrase with the same tree at changed
places, which can be read where the phrase can. -/
theorem Phrase.exists_of_map_stampAt_eq
    {left right : Span → Span}
    (respectsLeft : Span.Respects left)
    (respectsRight : Span.Respects right)
    {limit : Nat}
    (readable : Readable vocabulary limit (phrase.places 0))
    {tokens : List Token}
    (same : tokens.map (Token.stampAt left) = phrase.tokens.map (Token.stampAt right)) :
    ∃ other : Phrase symbol,
      other.tokens = tokens ∧
        (other.tree vocabulary).mapSpans left = (phrase.tree vocabulary).mapSpans right ∧
        Readable vocabulary limit (other.places 0) := by
  refine Phrase.exists_of_synonymous respectsLeft respectsRight readable ?_
  refine (forall₂_of_map_eq same).imp fun token other same => ?_
  obtain ⟨terminal, later⟩ := Prod.mk.inj same
  obtain ⟨lexeme, placed⟩ := Prod.mk.inj later
  exact ⟨.of_spelling (by rw [Token.spelling, Token.spelling, terminal, lexeme]), placed⟩

end Depth

end Grammar

namespace Expr

open Grammar

/-- A rule text is read as the trees of the phrases whose tokens tile it. -/
theorem parse_eq_ok_iff_tiles
    {vocabulary : Vocabulary}
    {maxDepth : Nat}
    {source : String}
    {tree : Expr} :
    parse vocabulary maxDepth source = .ok tree ↔
      ∃ phrase : Phrase (.run .disjunction),
        Tiles 0 source.toList phrase.tokens ∧
          phrase.tree vocabulary = tree ∧
          Readable vocabulary maxDepth (phrase.places 0) := by
  constructor
  · intro read
    obtain ⟨tokens, scanned⟩ := exists_scan_of_parse read
    obtain ⟨phrase, spelled, made, readable⟩ :=
      ofTokens_eq_ok_iff.mp ((parse_eq_ok_iff scanned).mp read)
    refine ⟨phrase, ?_, made, readable⟩
    rw [spelled]
    exact Tokens.tiles_of_scanAt scanned
  · rintro ⟨phrase, tiles, rfl, readable⟩
    have start : Cursor.start.offset = 0 := rfl
    obtain ⟨tokens, scanned, stamps, _⟩ := Tokens.exists_scanAt_of_tiles tiles start
    -- The scanned tokens are those of the phrase but for their positions.
    obtain ⟨other, spelled, trees, readableOther⟩ :=
      Phrase.exists_of_map_stampAt_eq Span.respects_id Span.respects_id readable stamps
    rw [mapSpans_id, mapSpans_id] at trees
    exact (parse_eq_ok_iff scanned).mpr
      (ofTokens_eq_ok_iff.mpr ⟨other, spelled, trees, readableOther⟩)

section Offset

variable {vocabulary : Vocabulary} {maxDepth : Nat}

/-- The text of a rule that was read is tiled by a phrase at every offset, with the tree of the
rule moved there. -/
theorem exists_tiles_of_parse
    {source : String}
    {tree : Expr}
    (read : parse vocabulary maxDepth source = .ok tree)
    (offset : Nat) :
    ∃ phrase : Phrase (.run .disjunction),
      Tiles offset source.toList phrase.tokens ∧
        phrase.tree vocabulary = tree.mapSpans (Span.shift offset) ∧
        Readable vocabulary maxDepth (phrase.places 0) := by
  obtain ⟨phrase, tiles, rfl, readable⟩ := parse_eq_ok_iff_tiles.mp read
  have tilesMoved := tiles.move offset
  have stamps : (phrase.tokens.map (Token.move offset)).map (Token.stampAt id) =
      phrase.tokens.map (Token.stampAt (Span.shift offset)) := by
    rw [List.map_map]
    rfl
  obtain ⟨moved, spelled, trees, readableMoved⟩ :=
    Phrase.exists_of_map_stampAt_eq Span.respects_id (Span.respects_shift _) readable stamps
  rw [← spelled, Nat.zero_add] at tilesMoved
  rw [mapSpans_id] at trees
  exact ⟨moved, tilesMoved, trees, readableMoved⟩

/-- A text that a readable phrase tiles at some offset is read as the tree of the phrase, moved to
the start. -/
theorem exists_parse_of_tiles
    {offset : Nat}
    {text : List Char}
    {phrase : Phrase (.run .disjunction)}
    (tiles : Tiles offset text phrase.tokens)
    (readable : Readable vocabulary maxDepth (phrase.places 0)) :
    ∃ tree,
      parse vocabulary maxDepth (String.ofList text) = .ok tree ∧
        tree.mapSpans (Span.shift offset) = phrase.tree vocabulary := by
  obtain ⟨tokens, tilesStart, moved⟩ := tiles.exists_move (Nat.zero_add _).symm
  have stamps : tokens.map (Token.stampAt (Span.shift offset)) =
      phrase.tokens.map (Token.stampAt id) := by
    rw [← moved, List.map_map]
    rfl
  obtain ⟨other, rfl, trees, readableOther⟩ :=
    Phrase.exists_of_map_stampAt_eq (Span.respects_shift _) Span.respects_id readable stamps
  rw [mapSpans_id] at trees
  rw [← String.toList_ofList (l := text)] at tilesStart
  exact ⟨other.tree vocabulary, parse_eq_ok_iff_tiles.mpr ⟨other, tilesStart, rfl, readableOther⟩,
    trees⟩

end Offset

/-- The tree of a rule that was read is aligned. -/
theorem aligned_of_parse
    {vocabulary : Vocabulary}
    {maxDepth : Nat}
    {source : String}
    {tree : Expr}
    (read : parse vocabulary maxDepth source = .ok tree) :
    tree.Aligned := by
  obtain ⟨phrase, _, rfl, _⟩ := parse_eq_ok_iff_tiles.mp read
  exact phrase.aligned_tree vocabulary

end Expr
end DecisionRules
