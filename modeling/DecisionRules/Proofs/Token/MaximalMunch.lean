import DecisionRules.Proofs.Token.Tiling
import DecisionRules.Proofs.Token.Words

/-!
# Scanning takes the longest tokens

What scanning makes of a text can be said without going through the text: the tokens stand at
their spans one after another, each spells its symbol and could not be longer, and all else is
separators.  These conditions leave no choice, so that scanning finds the only list of tokens
that satisfies them.

The conditions are shown to say the same as a tiling of the text, which goes from one token to
the next.
-/

namespace DecisionRules

/-! ## Symbols of lexemes -/

namespace Terminal

/-- The lexemes that spell a terminal symbol. -/
inductive Spells : List Char → Terminal → Prop
  /-- A run of digits is a number. -/
  | number {lexeme : List Char} (digits : IsDigits lexeme) : Spells lexeme .number
  /-- A word with the letters of a reserved one is reserved. -/
  | keyword
      {lexeme : List Char}
      {word : String}
      {terminal : Terminal}
      (reserved : (word, terminal) ∈ keywords)
      (letters : Text.sameLetters word (String.ofList lexeme) = true) :
      Spells lexeme terminal
  /-- Any other word is an identifier. -/
  | identifier
      {lexeme : List Char}
      (word : IsWord lexeme)
      (free : ∀ keyword ∈ keywords, ¬ Text.sameLetters keyword.1 (String.ofList lexeme) = true) :
      Spells lexeme .identifier
  /-- Parentheses and operators have their own spellings. -/
  | operator
      {lexeme : List Char}
      {terminal : Terminal}
      (listed : (lexeme, terminal) ∈ spellings) :
      Spells lexeme terminal

/-- A word with the letters of a reserved one is a word. -/
theorem isWord_of_mem_keywords
    {word : String}
    {terminal : Terminal}
    {lexeme : List Char}
    (reserved : (word, terminal) ∈ keywords)
    (letters : Text.sameLetters word (String.ofList lexeme) = true) :
    IsWord lexeme := by
  have word : IsWord word.toList := by
    simp only [keywords, List.mem_cons, Prod.mk.injEq, List.not_mem_nil, or_false] at reserved
    obtain ⟨rfl, _⟩ | ⟨rfl, _⟩ | ⟨rfl, _⟩ | ⟨rfl, _⟩ | ⟨rfl, _⟩ := reserved <;>
      exact ⟨_, _, rfl, rfl, List.all_eq_true.mp rfl⟩
  rw [Text.sameLetters_comm] at letters
  have same := isWord_of_sameLetters letters word
  rwa [String.toList_ofList] at same

/-- The symbol of a lexeme is the one that it spells. -/
theorem ofLexeme?_eq_some_iff (lexeme : List Char) (terminal : Terminal) :
    ofLexeme? lexeme = some terminal ↔ Spells lexeme terminal := by
  constructor
  · intro spells
    obtain ⟨digits, rfl⟩ | ⟨word, rfl⟩ | listed := ofLexeme?_cases spells
    · exact .number digits
    · rw [ofKeyword?]
      cases found : keywords.find? fun keyword =>
          Text.sameLetters keyword.1 (String.ofList lexeme) with
      | none => exact .identifier word (List.find?_eq_none.mp found)
      | some keyword =>
          have letters := List.find?_some found
          exact .keyword (List.mem_of_find?_eq_some found) letters
    · exact .operator listed
  · intro spells
    cases spells with
    | number digits => exact ofLexeme?_of_isDigits digits
    | keyword reserved letters =>
        have all : ∀ keyword ∈ keywords, ofKeyword? keyword.1 = some keyword.2 := by decide
        rw [ofLexeme?_of_isWord (isWord_of_mem_keywords reserved letters),
          ← ofKeyword?_congr letters, all _ reserved, Option.getD_some]
    | identifier word free =>
        rw [ofLexeme?_of_isWord word, ofKeyword?, List.find?_eq_none.mpr free]
        rfl
    | operator listed =>
        have all : ∀ spelling ∈ spellings, ofLexeme? spelling.1 = some spelling.2 := by decide
        exact all _ listed

end Terminal

/-! ## Tokens at their places -/

namespace Text

/-- A text without bytes is empty. -/
theorem eq_nil_of_byteWidth_eq_zero {text : List Char} (empty : byteWidth text = 0) :
    text = [] := by
  cases text with
  | nil => rfl
  | cons char rest =>
      have positive := char.utf8Size_pos
      rw [byteWidth_cons] at empty
      omega

/-- Of two beginnings of a text, the wider one goes on from the other. -/
theorem exists_append_of_byteWidth_le
    {left right left' right' : List Char}
    (same : left ++ right = left' ++ right')
    (wider : byteWidth left ≤ byteWidth left') :
    ∃ middle, left' = left ++ middle ∧ right = middle ++ right' := by
  obtain ⟨middle, longer, rest⟩ | ⟨middle, rfl, rfl⟩ := List.append_eq_append_iff.mp same
  · exact ⟨middle, longer, rest⟩
  · rw [byteWidth_append] at wider
    obtain rfl : middle = [] := eq_nil_of_byteWidth_eq_zero (by omega)
    exact ⟨[], by simp, by simp⟩

end Text

/-- A token stands in a text at an offset: its lexeme is what the text has at its span, spells
its symbol, and could not be longer. -/
def Token.Stands (offset : Nat) (text : List Char) (token : Token) : Prop :=
  ∃ before after,
    text = before ++ (token.lexeme.toList ++ after) ∧
    token.span =
      ⟨offset + Text.byteWidth before,
        offset + Text.byteWidth before + Text.byteWidth token.lexeme.toList⟩ ∧
    Terminal.Spells token.lexeme.toList token.terminal ∧
    ∀ next ∈ after.head?, ¬ Terminal.Extends token.lexeme.toList next

/-- Tokens cover a text at an offset up to separators: they stand there one after another, and
every character outside of their spans is a separator. -/
structure Covers (offset : Nat) (text : List Char) (tokens : List Token) : Prop where
  /-- Each token stands in the text. -/
  stands : ∀ token ∈ tokens, token.Stands offset text
  /-- Each token takes up a byte. -/
  nonempty : ∀ token ∈ tokens, token.span.start < token.span.stop
  /-- No token starts before an earlier one has stopped. -/
  ordered : tokens.Pairwise fun earlier later => earlier.span.stop ≤ later.span.start
  /-- A character that begins before or after each token is a separator. -/
  separated : ∀ before char after, text = before ++ char :: after →
    (∀ token ∈ tokens,
      offset + Text.byteWidth before < token.span.start ∨
        token.span.stop ≤ offset + Text.byteWidth before) →
    isSeparator char = true

namespace Token.Stands

variable {offset : Nat} {left right : List Char} {token : Token}

/-- A token stands where it stood when the text is continued to the left. -/
theorem append (stands : token.Stands (offset + Text.byteWidth left) right) :
    token.Stands offset (left ++ right) := by
  obtain ⟨before, after, rfl, placed, spells, longest⟩ := stands
  refine ⟨left ++ before, after, (List.append_assoc ..).symm, ?_, spells, longest⟩
  simp only [placed, Text.byteWidth_append, Nat.add_assoc]

/-- A token stands where it stood when text before it is left out. -/
theorem of_append
    (stands : token.Stands offset (left ++ right))
    (later : offset + Text.byteWidth left ≤ token.span.start) :
    token.Stands (offset + Text.byteWidth left) right := by
  obtain ⟨before, after, same, placed, spells, longest⟩ := stands
  rw [placed] at later
  obtain ⟨middle, rfl, rfl⟩ :=
    Text.exists_append_of_byteWidth_le same (Nat.le_of_add_le_add_left later)
  refine ⟨middle, after, rfl, ?_, spells, longest⟩
  simp only [placed, Text.byteWidth_append, Nat.add_assoc]

theorem le_start (stands : token.Stands offset right) : offset ≤ token.span.start := by
  obtain ⟨before, after, rfl, placed, spells, longest⟩ := stands
  rw [placed]
  exact Nat.le_add_right _ _

end Token.Stands

/-! ## Covers and tilings -/

/-- A text without characters is covered by no tokens. -/
theorem Covers.eq_nil {offset : Nat} {tokens : List Token} (covers : Covers offset [] tokens) :
    tokens = [] := by
  cases tokens with
  | nil => rfl
  | cons token later =>
      obtain ⟨before, after, same, placed, _⟩ := covers.stands token List.mem_cons_self
      have nonempty := covers.nonempty token List.mem_cons_self
      simp only [List.nil_eq, List.append_eq_nil_iff] at same
      rw [placed, same.2.1] at nonempty
      exact absurd nonempty (Nat.lt_irrefl _)

/-- What is covered from the front on begins with its first token. -/
theorem Covers.exists_rest
    {offset : Nat}
    {text : List Char}
    {token : Token}
    {tokens : List Token}
    (covers : Covers offset text (token :: tokens))
    (front : token.span.start = offset) :
    ∃ rest,
      text = token.lexeme.toList ++ rest ∧
      token.span = ⟨offset, offset + Text.byteWidth token.lexeme.toList⟩ ∧
      Terminal.Spells token.lexeme.toList token.terminal ∧
      (∀ next ∈ rest.head?, ¬ Terminal.Extends token.lexeme.toList next) ∧
      Covers (offset + Text.byteWidth token.lexeme.toList) rest tokens := by
  obtain ⟨before, rest, rfl, placed, spells, longest⟩ := covers.stands token List.mem_cons_self
  obtain rfl : before = [] := by
    rw [placed] at front
    exact Text.eq_nil_of_byteWidth_eq_zero (by simpa using front)
  rw [Text.byteWidth_nil, Nat.add_zero] at placed
  obtain ⟨afterToken, ordered⟩ := List.pairwise_cons.mp covers.ordered
  rw [placed] at afterToken
  refine ⟨rest, rfl, placed, spells, longest, ?_, ?_, ordered, ?_⟩
  · intro other member
    have stands : other.Stands offset (token.lexeme.toList ++ rest) :=
      covers.stands other (List.mem_cons_of_mem _ member)
    exact stands.of_append (afterToken other member)
  · exact fun other member => covers.nonempty other (List.mem_cons_of_mem _ member)
  · rintro before char after rfl outside
    apply covers.separated (token.lexeme.toList ++ before) char after (by simp)
    rw [Text.byteWidth_append, ← Nat.add_assoc, List.forall_mem_cons, placed]
    exact ⟨.inr (Nat.le_add_right _ _), outside⟩

/-- What is not covered from the front on begins with a separator. -/
theorem Covers.of_cons
    {offset : Nat}
    {first : Char}
    {rest : List Char}
    {tokens : List Token}
    (covers : Covers offset (first :: rest) tokens)
    (front : ∀ token ∈ tokens, token.span.start ≠ offset) :
    isSeparator first = true ∧ Covers (offset + first.utf8Size) rest tokens := by
  have later : ∀ token ∈ tokens, offset + Text.byteWidth [first] ≤ token.span.start := by
    intro token member
    have different := front token member
    obtain ⟨before, after, same, placed, _⟩ := covers.stands token member
    rw [placed] at different ⊢
    cases before with
    | nil => exact absurd rfl different
    | cons char before =>
        obtain ⟨rfl, _⟩ := List.cons.inj same
        simp only [Text.byteWidth_cons, Text.byteWidth_nil]
        omega
  have positive := first.utf8Size_pos
  refine ⟨covers.separated [] first rest rfl ?_, ?_, covers.nonempty, covers.ordered, ?_⟩
  · intro token member
    have lower := later token member
    rw [Text.byteWidth_cons] at lower
    exact .inl (by rw [Text.byteWidth_nil]; omega)
  · exact fun token member => (covers.stands token member).of_append (later token member)
  · rintro before char after rfl outside
    apply covers.separated (first :: before) char after rfl
    rwa [Text.byteWidth_cons, ← Nat.add_assoc]

/-- When the first token stands further to the right, so do all others. -/
theorem Covers.start_ne
    {offset : Nat}
    {text : List Char}
    {token : Token}
    {tokens : List Token}
    (covers : Covers offset text (token :: tokens))
    (front : token.span.start ≠ offset) :
    ∀ other ∈ token :: tokens, other.span.start ≠ offset := by
  have lower := (covers.stands token List.mem_cons_self).le_start
  have nonempty := covers.nonempty token List.mem_cons_self
  obtain ⟨afterToken, _⟩ := List.pairwise_cons.mp covers.ordered
  refine List.forall_mem_cons.mpr ⟨front, ?_⟩
  intro other member
  have later := afterToken other member
  omega

/-- A covered text is tiled. -/
theorem Covers.tiles
    {offset : Nat}
    {text : List Char}
    {tokens : List Token}
    (covers : Covers offset text tokens) :
    Tiles offset text tokens := by
  match text, tokens with
  | [], tokens =>
      obtain rfl := covers.eq_nil
      exact .finish
  | first :: rest, [] =>
      obtain ⟨separates, later⟩ := covers.of_cons (by simp)
      exact .separator separates later.tiles
  | first :: rest, token :: tokens =>
      by_cases front : token.span.start = offset
      · obtain ⟨rest, same, placed, spells, longest, later⟩ := covers.exists_rest front
        rw [← Terminal.ofLexeme?_eq_some_iff] at spells
        rw [same]
        exact .token rfl placed spells longest later.tiles
      · obtain ⟨separates, later⟩ := covers.of_cons (covers.start_ne front)
        exact .separator separates later.tiles
termination_by (tokens.length, text.length)

/-- A tiled text is covered. -/
theorem Tiles.covers
    {offset : Nat}
    {text : List Char}
    {tokens : List Token}
    (tiles : Tiles offset text tokens) :
    Covers offset text tokens := by
  refine ⟨?_, fun token member => (tiles.within token member).2.1, tiles.ordered, ?_⟩
  · induction tiles with
    | finish => simp
    | @separator offset first rest tokens separates _ inductionHypothesis =>
        have stands (token : Token) (member : token ∈ tokens) :
            token.Stands (offset + Text.byteWidth [first]) rest :=
          inductionHypothesis token member
        exact fun token member => (stands token member).append
    | @token offset token lexeme rest tokens spelled placed spells longest _ inductionHypothesis =>
        subst spelled
        rw [Terminal.ofLexeme?_eq_some_iff] at spells
        refine List.forall_mem_cons.mpr ⟨⟨[], rest, rfl, placed, spells, longest⟩, ?_⟩
        exact fun other member => (inductionHypothesis other member).append
  · induction tiles with
    | finish => simp
    | @separator offset first rest tokens separates _ inductionHypothesis =>
        intro before char after same outside
        cases before with
        | nil =>
            obtain ⟨rfl, _⟩ := List.cons.inj same
            exact separates
        | cons _ before =>
            obtain ⟨rfl, rfl⟩ := List.cons.inj same
            apply inductionHypothesis before char after rfl
            rwa [Text.byteWidth_cons, ← Nat.add_assoc] at outside
    | @token offset token lexeme rest tokens spelled placed spells longest _ inductionHypothesis =>
        intro before char after same outside
        obtain ⟨outsideToken, outsideLater⟩ := List.forall_mem_cons.mp outside
        rw [placed] at outsideToken
        have wider : Text.byteWidth lexeme ≤ Text.byteWidth before := by
          have positive := Text.byteWidth_pos_of_ofLexeme? spells
          simp only at outsideToken
          omega
        obtain ⟨middle, rfl, rfl⟩ := Text.exists_append_of_byteWidth_le same wider
        apply inductionHypothesis middle char after rfl
        rwa [Text.byteWidth_append, ← Nat.add_assoc] at outsideLater

/-! ## Whole texts -/

/-- A list of tokens is a tiling of a whole text when it ends with its only token for the end of
the text, and the tokens before that cover the text. -/
def IsTiling (text : List Char) (tokens : List Token) : Prop :=
  ∃ body finish,
    tokens = body ++ [finish] ∧
    Covers 0 text body ∧
    (∀ token ∈ body, token.terminal ≠ .finish) ∧
    finish.stamp = (.finish, "", ⟨Text.byteWidth text, Text.byteWidth text⟩)

namespace Tokens

/-- A covered text is scanned into the tokens that cover it, up to their positions. -/
theorem exists_scan_of_covers
    {source : String}
    {body : List Token}
    (covers : Covers 0 source.toList body) :
    ∃ tokens, scan source = .ok tokens ∧
      tokens.body.map Token.stamp = body.map Token.stamp ∧
      tokens.finish.stamp =
        (.finish, "", ⟨Text.byteWidth source.toList, Text.byteWidth source.toList⟩) := by
  have stands : Cursor.start.offset = 0 := rfl
  obtain ⟨tokens, scanned, stamps, finish⟩ := exists_scanAt_of_tiles covers.tiles stands
  rw [Nat.zero_add] at finish
  exact ⟨tokens, scanned, stamps, finish⟩

/-- The tokens of a text are a tiling of it, and differ from any other one at most in their
positions. -/
theorem unique_tiling_of_scan
    {source : String}
    {tokens : Tokens}
    (scanned : scan source = .ok tokens) :
    IsTiling source.toList tokens.toList ∧
      ∀ others, IsTiling source.toList others →
        others.map Token.stamp = tokens.toList.map Token.stamp := by
  have tiles : Tiles 0 source.toList tokens.body := tiles_of_scanAt scanned
  constructor
  · obtain ⟨again, scannedAgain, _, finish⟩ := exists_scan_of_covers tiles.covers
    obtain rfl : tokens = again := Except.ok.inj (scanned.symm.trans scannedAgain)
    refine ⟨tokens.body, tokens.finish, rfl, tiles.covers, ?_, finish⟩
    exact fun token member => Terminal.ne_finish_of_ofLexeme? (tiles.spells token member)
  · rintro others ⟨body, last, rfl, covers, _, ends⟩
    obtain ⟨again, scannedAgain, stamps, finish⟩ := exists_scan_of_covers covers
    obtain rfl : tokens = again := Except.ok.inj (scanned.symm.trans scannedAgain)
    rw [toList, List.map_append, List.map_append, stamps, List.map_singleton,
      List.map_singleton, ends, finish]

/-- The signs of `x!==1&&&_2` are cut where they cannot be longer. -/
theorem unique_tiling_of_scan_of_signs :
    ∃ tokens,
      scan "x!==1&&&_2" = .ok tokens ∧
        tokens.toList.map Token.lexeme = ["x", "!=", "=", "1", "&&", "&", "_2", ""] ∧
        IsTiling "x!==1&&&_2".toList tokens.toList := by
  have scans :
      (scan "x!==1&&&_2").toOption.map (fun tokens => tokens.toList.map Token.lexeme) =
        some ["x", "!=", "=", "1", "&&", "&", "_2", ""] := by
    decide +kernel
  cases scanned : scan "x!==1&&&_2" with
  | error error =>
      rw [scanned] at scans
      cases scans
  | ok tokens =>
      rw [scanned] at scans
      exact ⟨tokens, rfl, Option.some.inj scans, (unique_tiling_of_scan scanned).1⟩

end Tokens
end DecisionRules
