import DecisionRules.Proofs.Token.Tiling

/-!
# Positions of tokens

A scanned token has the position of its first character, and the token for the end of a text has the
position after the last one.  So the position that the tokens of a text have for an offset is that
of the text, wherever one of them begins.
-/

namespace DecisionRules

/-- A range of a text that divides no character. -/
structure Text.IsPart (text : List Char) (span : Span) : Prop where
  /-- It starts between two characters. -/
  starts : IsPlace text span.start
  /-- It stops between two characters. -/
  stops : IsPlace text span.stop
  /-- It does not stop before it starts. -/
  ordered : span.start ≤ span.stop

namespace Tokens

/-- A scanned token is some part of the text.  It stands where the cursor comes after the text
before it, and does not begin with a separator. -/
theorem exists_cursor_of_mem_scanAt
    {cursor : Cursor}
    {text : List Char}
    {tokens : Tokens}
    (scanned : scanAt cursor text = .ok tokens) :
    ∀ token ∈ tokens.toList, ∃ before covered after,
      text = before ++ covered ++ after ∧
        cursor.advance before = ⟨token.span.start, token.position⟩ ∧
        token.span.stop = token.span.start + Text.byteWidth covered ∧
        token.lexeme = String.ofList covered ∧
        ∀ char ∈ (covered ++ after).head?, ¬ isSeparator char = true := by
  fun_induction scanAt cursor text generalizing tokens with
  | case1 cursor =>
      cases scanned
      intro token member
      obtain rfl := List.mem_singleton.mp member
      exact ⟨[], [], [], rfl, rfl, rfl, rfl, by simp⟩
  | case2 cursor first rest separates inductionHypothesis =>
      intro token member
      obtain ⟨before, covered, after, rfl, rest⟩ := inductionHypothesis scanned token member
      exact ⟨first :: before, covered, after, rfl, rest⟩
  | case3 => cases scanned
  | case4 cursor first rest begins tail next lexeme terminal spells =>
      rename_i inductionHypothesis
      obtain ⟨others, readLater, rfl⟩ := exists_ok_of_map_eq_ok scanned
      obtain ⟨later, split⟩ := lexemeTail_prefix first rest
      have dropped : rest.drop tail.length = later := by
        rw [← split, List.drop_left]
      have whole : first :: rest = first :: tail ++ later := by
        rw [← split, List.cons_append]
      rw [dropped] at inductionHypothesis readLater
      intro token member
      obtain rfl | memberLater := List.mem_cons.mp member
      · refine ⟨[], first :: tail, later, whole, rfl,
          Cursor.offset_advance cursor (first :: tail), rfl, ?_⟩
        rintro char ⟨⟩
        exact begins
      · obtain ⟨before, covered, after, remaining, reached, rest⟩ :=
          inductionHypothesis readLater token memberLater
        refine ⟨first :: tail ++ before, covered, after, ?_, ?_, rest⟩
        · rw [whole, remaining, List.append_assoc, List.append_assoc, List.append_assoc]
        · rw [Cursor.advance_append]
          exact reached

section Scanned

variable {source : String} {tokens : Tokens} (scanned : scan source = .ok tokens)

include scanned

/-- A scanned token is some part of the text, and has the position of what follows the text before
it. -/
theorem exists_text_of_mem_scan {token : Token} (member : token ∈ tokens.toList) :
    ∃ before covered after,
      source.toList = before ++ covered ++ after ∧
        token.span = ⟨Text.byteWidth before, Text.byteWidth before + Text.byteWidth covered⟩ ∧
        token.position = .after before ∧
        token.lexeme = String.ofList covered ∧
        ∀ char ∈ (covered ++ after).head?, ¬ isSeparator char = true := by
  obtain ⟨before, covered, after, text, reached, stop, rest⟩ :=
    exists_cursor_of_mem_scanAt scanned token member
  rw [Cursor.advance_start] at reached
  obtain ⟨start, position⟩ := Cursor.mk.inj reached
  refine ⟨before, covered, after, text, ?_, position.symm, rest⟩
  rw [start, ← stop]

/-- A scanned token divides no character of the text. -/
theorem isPart_of_mem_scan {token : Token} (member : token ∈ tokens.toList) :
    Text.IsPart source.toList token.span := by
  obtain ⟨before, covered, after, text, span, _⟩ := exists_text_of_mem_scan scanned member
  rw [span]
  refine ⟨⟨before, covered ++ after, ?_, rfl⟩, ⟨before ++ covered, after, text, ?_⟩,
    Nat.le_add_right _ _⟩
  · rw [text, List.append_assoc]
  · rw [Text.byteWidth_append]

/-- A scanned token has the position of its first character. -/
theorem position_eq_positionAt {token : Token} (member : token ∈ tokens.toList) :
    token.position = Text.positionAt source.toList token.span.start := by
  obtain ⟨before, covered, after, text, span, position, _⟩ :=
    exists_text_of_mem_scan scanned member
  rw [span, text, List.append_assoc, Text.positionAt_append, position]

/-- The lexeme of a token is what the text has at its span. -/
theorem lexeme_eq_slice {token : Token} (member : token ∈ tokens.toList) :
    token.lexeme = String.ofList (Text.slice source.toList token.span) := by
  obtain ⟨before, covered, after, text, span, _, spelled, _⟩ :=
    exists_text_of_mem_scan scanned member
  rw [span, text, Text.slice_append, spelled]

/-- The position of the token that begins at an offset is that of the text there. -/
theorem positionAt_of_mem_scan {token : Token} (member : token ∈ tokens.toList) :
    tokens.positionAt token.span.start = Text.positionAt source.toList token.span.start := by
  rw [positionAt]
  cases found : tokens.toList.find? fun other => other.span.start == token.span.start with
  | none => simpa using List.find?_eq_none.mp found token member
  | some other =>
      have begins : other.span.start = token.span.start := by
        simpa using List.find?_some found
      have position := position_eq_positionAt scanned (List.mem_of_find?_eq_some found)
      rw [begins] at position
      exact position

end Scanned

end Tokens
end DecisionRules
