import DecisionRules.Proofs.Checked.Basic
import DecisionRules.Proofs.Token.Alphabet

/-!
# Scanning with a cursor into the text

The tokens of a text can be read with a cursor that goes through its characters one by one, and
every lexeme is cut out of the text by the offsets of its first character and of the one after its
last.  Whatever the text is, all these ranges are parts of it, the scanner comes to its end, and
what it has read by then are the tokens of the text.

A scanner always stands somewhere in the text: its current character and the next one are the first
two of what is left, at the offset of a cursor.  Each operation moves it to another such place.
-/

namespace DecisionRules

/-- What a scanner has read and where it stands in a text.  Each character comes with its offset. -/
structure Scanner where
  /-- The characters after the current one. -/
  later : List (Nat × Char)
  /-- The tokens that have been read. -/
  tokens : List Token
  /-- The first character of the lexeme. -/
  start : Option (Nat × Char)
  /-- The current character. -/
  current : Option (Nat × Char)
  /-- The character after the current one. -/
  next : Option (Nat × Char)
  /-- The position of the current character. -/
  position : Position
  /-- The position of the first character of the lexeme. -/
  startPosition : Position

namespace Scanner

/-! ## The scanner -/

/-- The characters of a text that stands at an offset. -/
def indexed (offset : Nat) : List Char → List (Nat × Char)
  | [] => []
  | char :: rest => (offset, char) :: indexed (offset + char.utf8Size) rest

/-- A scanner before the first character of a text. -/
def ofSource (source : String) : Scanner :=
  let chars := indexed 0 source.toList
  ⟨chars.tail, [], chars.head?, chars.head?, chars.tail.head?, .start, .start⟩

/-- The current character. -/
def peek : Checked Scanner (Option Char) :=
  return (← get).current.map Prod.snd

/-- Goes on to the next character. -/
def advance : Checked Scanner Unit :=
  modify fun scanner =>
    { scanner with
      later := scanner.later.tail
      current := scanner.next
      next := scanner.later.tail.head?
      position := ⟨scanner.position.line, scanner.position.column + 1⟩ }

/-- Goes on to the next line. -/
def newLine : Checked Scanner Unit :=
  modify fun scanner => { scanner with position := ⟨scanner.position.line + 1, 1⟩ }

/-- A lexeme begins with the current character. -/
def begin : Checked Scanner Unit :=
  modify fun scanner =>
    { scanner with start := scanner.current, startPosition := scanner.position }

/-- Passes the current character if it is the expected one, and says whether it was. -/
def matchChar (expected : Char) : Checked Scanner Bool := do
  if (← peek) = some expected then
    advance
    return true
  else return false

/-- Goes on for as long as the characters belong to a class. -/
def skipWhile (inClass : Char → Bool) : Nat → Checked Scanner Unit
  | 0 => .unfinished
  | steps + 1 => do
    match ← peek with
    | none => return ()
    | some char =>
      if inClass char then
        advance
        skipWhile inClass steps
      else return ()

section Source

variable (source : String)

/-- The bytes of the lexeme, which ends before the current character.  Where no lexeme has begun,
there are none. -/
def span (scanner : Scanner) : Span :=
  let stop := (scanner.current.map Prod.fst).getD (Text.byteWidth source.toList)
  ⟨(scanner.start.map Prod.fst).getD stop, stop⟩

/-- The lexeme. -/
def lexeme : Checked Scanner String := do
  return String.ofList (← Checked.slice source.toList ((← get).span source))

/-- Adds the lexeme as a token. -/
def addToken (terminal : Terminal) : Checked Scanner Unit := do
  let lexeme ← lexeme source
  modify fun scanner =>
    let token := ⟨terminal, lexeme, scanner.span source, scanner.startPosition⟩
    { scanner with tokens := scanner.tokens ++ [token] }

/-- The error about the lexeme. -/
def malformed (fault : Fault) : Checked Scanner RuleError := do
  let fragment ← lexeme source
  let scanner ← get
  return .malformed fault fragment (scanner.span source) scanner.startPosition

/-- Adds the token of an operator that has one character or, with the expected one, two. -/
def addOperator (expected : Char) (double single : Terminal) : Checked Scanner Unit := do
  addToken source (if ← matchChar expected then double else single)

/-- Adds a number, of which the first digit has been passed. -/
def number (steps : Nat) : Checked Scanner Unit := do
  skipWhile Char.isDigit steps
  addToken source .number

/-- Adds a word, of which the first character has been passed. -/
def word (steps : Nat) : Checked Scanner Unit := do
  skipWhile Terminal.continuesWord steps
  addToken source ((Terminal.ofKeyword? (← lexeme source)).getD .identifier)

/-- Reads a separator, or a token that begins with a character.  The character has been passed. -/
def scanFrom (steps : Nat) (char : Char) : Checked Scanner (Except RuleError Unit) :=
  if char = '(' then .ok <$> addToken source .leftParen
  else if char = ')' then .ok <$> addToken source .rightParen
  else if char = '*' then .ok <$> addToken source .star
  else if char = '/' then .ok <$> addToken source .slash
  else if char = '+' then .ok <$> addToken source .plus
  else if char = '-' then .ok <$> addToken source .minus
  else if char = '!' then .ok <$> addOperator source '=' .bangEqual .negation
  else if char = '=' then .ok <$> addOperator source '=' .equalEqual .equal
  else if char = '<' then .ok <$> addOperator source '=' .lessEqual .less
  else if char = '>' then .ok <$> addOperator source '=' .greaterEqual .greater
  else if char = '&' then .ok <$> addOperator source '&' .conjunction .conjunction
  else if char = '|' then .ok <$> addOperator source '|' .disjunction .disjunction
  else if char = ' ' ∨ char = '\r' ∨ char = '\t' then return .ok ()
  else if char = '\n' then .ok <$> newLine
  else if char.isDigit then .ok <$> number source steps
  else if Terminal.beginsWord char then .ok <$> word source steps
  else .error <$> malformed source .unexpectedCharacter

/-- Reads a separator or a token. -/
def scanToken (steps : Nat) : Checked Scanner (Except RuleError Unit) := do
  let char? ← peek
  advance
  match char? with
  | none => return .ok ()
  | some char => scanFrom source steps char

/-- Reads tokens up to the end of the text or the first error. -/
def scanTokens : Nat → Checked Scanner (Except RuleError Unit)
  | 0 => .unfinished
  | steps + 1 => do
    match ← peek with
    | none => return .ok ()
    | some _ =>
      begin
      match ← scanToken source steps with
      | .error error => return .error error
      | .ok () => scanTokens steps

/-- The token for the end of the text. -/
def addFinish : Checked Scanner Unit := do
  modify fun scanner => { scanner with start := none, startPosition := scanner.position }
  addToken source .finish

/-- Reads all tokens of a text, its end included. -/
def scan (steps : Nat) : Checked Scanner (Except RuleError (List Token)) := do
  match ← scanTokens source steps with
  | .error error => return .error error
  | .ok () =>
    addFinish source
    return .ok (← get).tokens

end Source

/-! ## Places in the text -/

/-- A scanner that has read some tokens, the text `before` and the characters `covered` of a lexeme,
and has the text `rest` in front of it. -/
def between (tokens : List Token) (before covered rest : List Char) : Scanner :=
  let chars := indexed (Text.byteWidth (before ++ covered)) rest
  ⟨chars.tail, tokens, (indexed (Text.byteWidth before) (covered ++ rest)).head?, chars.head?,
    chars.tail.head?, .after (before ++ covered), .after before⟩

/-- The token of a lexeme that stands after some text. -/
def tokenAfter (before covered : List Char) (terminal : Terminal) : Token :=
  ⟨terminal, String.ofList covered,
    ⟨Text.byteWidth before, Text.byteWidth before + Text.byteWidth covered⟩, .after before⟩

theorem ofSource_eq (source : String) : ofSource source = between [] [] [] source.toList :=
  rfl

theorem map_snd_head?_indexed (offset : Nat) (text : List Char) :
    (indexed offset text).head?.map Prod.snd = text.head? := by
  cases text <;> rfl

theorem map_fst_head?_indexed (offset : Nat) {text : List Char} (nonempty : text ≠ []) :
    (indexed offset text).head?.map Prod.fst = some offset := by
  cases text with
  | nil => exact absurd rfl nonempty
  | cons => rfl

section Moves

variable (tokens : List Token) (before covered : List Char)

theorem yields_peek (rest : List Char) :
    Yields peek (between tokens before covered rest) rest.head?
      (between tokens before covered rest) := by
  have current : (between tokens before covered rest).current.map Prod.snd = rest.head? :=
    map_snd_head?_indexed _ rest
  rw [← current]
  exact .bind (.get _) (.pure _ _)

/-- A character of a lexeme is passed. -/
theorem yields_advance {char : Char} (inLine : char ≠ '\n') (rest : List Char) :
    Yields advance (between tokens before covered (char :: rest)) ()
      (between tokens before (covered ++ [char]) rest) := by
  have position : Position.after (before ++ (covered ++ [char])) =
      (Position.after (before ++ covered)).step char := by
    rw [← List.append_assoc, Position.after_concat]
  rw [Position.step, if_neg inLine] at position
  refine .modify ?_
  simp [between, indexed, position, Nat.add_assoc]

/-- A line feed is passed, and the next character is the first one of its line. -/
theorem exists_yields_newLine (rest : List Char) :
    ∃ middle, Yields advance (between tokens before covered ('\n' :: rest)) () middle ∧
      Yields newLine middle () (between tokens before (covered ++ ['\n']) rest) := by
  have position : Position.after (before ++ (covered ++ ['\n'])) =
      (Position.after (before ++ covered)).step '\n' := by
    rw [← List.append_assoc, Position.after_concat]
  rw [Position.step, if_pos rfl] at position
  refine ⟨_, .modify rfl, .modify ?_⟩
  simp [between, indexed, position, Nat.add_assoc]

/-- A lexeme begins behind all that has been read. -/
theorem yields_begin (rest : List Char) :
    Yields begin (between tokens before covered rest) ()
      (between tokens (before ++ covered) [] rest) := by
  refine .modify ?_
  simp [between]

theorem yields_skipWhile
    {inClass : Char → Bool}
    (inLine : ∀ char, inClass char = true → char ≠ '\n')
    {steps : Nat}
    {rest : List Char}
    (enough : rest.length < steps) :
    Yields (skipWhile inClass steps) (between tokens before covered rest) ()
      (between tokens before (covered ++ rest.takeWhile inClass) (rest.dropWhile inClass)) := by
  obtain ⟨steps, rfl⟩ := Nat.exists_eq_add_one_of_ne_zero (Nat.ne_zero_of_lt enough)
  induction rest generalizing covered steps with
  | nil =>
      refine .bind (yields_peek tokens before covered []) ?_
      simpa using Yields.pure () (between tokens before covered [])
  | cons char rest inductionHypothesis =>
      have enoughLater : rest.length < steps := Nat.lt_of_succ_lt_succ enough
      obtain ⟨fewer, rfl⟩ := Nat.exists_eq_add_one_of_ne_zero (Nat.ne_zero_of_lt enoughLater)
      refine .bind (yields_peek tokens before covered (char :: rest)) ?_
      simp only [List.head?_cons]
      by_cases belongs : inClass char = true
      · rw [if_pos belongs, List.takeWhile_cons_of_pos belongs, List.dropWhile_cons_of_pos belongs]
        have onward := inductionHypothesis (covered ++ [char]) fewer enoughLater
        rw [List.append_assoc, List.singleton_append] at onward
        exact .bind (yields_advance tokens before covered (inLine char belongs) rest) onward
      · rw [if_neg belongs, List.takeWhile_cons_of_neg belongs, List.dropWhile_cons_of_neg belongs,
          List.append_nil]
        exact .pure _ _

/-- An expected character is passed, and no other one. -/
theorem yields_matchChar {expected : Char} (inLine : expected ≠ '\n') (rest : List Char) :
    Yields (matchChar expected) (between tokens before covered rest)
      (rest.head? == some expected)
      (if rest.head? = some expected then
        between tokens before (covered ++ [expected]) (rest.drop 1)
      else between tokens before covered rest) := by
  refine .bind (yields_peek tokens before covered rest) ?_
  by_cases follows : rest.head? = some expected
  · obtain ⟨later, rfl⟩ := List.head?_eq_some_iff.mp follows
    rw [if_pos follows, if_pos follows, follows, beq_self_eq_true]
    exact .bind (yields_advance tokens before covered inLine later) (.pure _ _)
  · rw [if_neg follows, if_neg follows, beq_eq_false_iff_ne.mpr follows]
    exact .pure _ _

end Moves

/-! ## Lexemes -/

section Lexemes

variable
  {source : String}
  (tokens : List Token)
  {before covered rest : List Char}
  (split : source.toList = before ++ covered ++ rest)

include split

theorem span_between :
    (between tokens before covered rest).span source =
      ⟨Text.byteWidth before, Text.byteWidth before + Text.byteWidth covered⟩ := by
  have stop : ((between tokens before covered rest).current.map Prod.fst).getD
      (Text.byteWidth source.toList) = Text.byteWidth before + Text.byteWidth covered := by
    cases rest with
    | nil => rw [split, List.append_nil, ← Text.byteWidth_append]; rfl
    | cons char later => rw [← Text.byteWidth_append]; rfl
  rw [span, stop]
  congr 1
  by_cases empty : covered ++ rest = []
  · obtain ⟨rfl, rfl⟩ := List.append_eq_nil_iff.mp empty
    rfl
  · have start : (between tokens before covered rest).start.map Prod.fst =
        some (Text.byteWidth before) :=
      map_fst_head?_indexed _ empty
    rw [start, Option.getD_some]

/-- The lexeme is cut out where it stands. -/
theorem yields_lexeme :
    Yields (lexeme source) (between tokens before covered rest) (String.ofList covered)
      (between tokens before covered rest) := by
  have part : Text.IsPart source.toList
      ⟨Text.byteWidth before, Text.byteWidth before + Text.byteWidth covered⟩ :=
    ⟨⟨before, covered ++ rest, by rw [split, List.append_assoc], rfl⟩,
      ⟨before ++ covered, rest, split, (Text.byteWidth_append ..).symm⟩, Nat.le_add_right _ _⟩
  have cut := Yields.slice part (between tokens before covered rest)
  rw [split, Text.slice_append, ← split, ← span_between tokens split] at cut
  exact .bind (.get _) (.bind cut (.pure _ _))

/-- The lexeme is added where it stands. -/
theorem yields_addToken (terminal : Terminal) :
    Yields (addToken source terminal) (between tokens before covered rest) ()
      (between (tokens ++ [tokenAfter before covered terminal]) before covered rest) := by
  refine .bind (yields_lexeme tokens split) ?_
  refine .modify ?_
  simp only [span_between tokens split]
  rfl

theorem yields_malformed (fault : Fault) :
    Yields (malformed source fault) (between tokens before covered rest)
      (.malformed fault (String.ofList covered)
        ⟨Text.byteWidth before, Text.byteWidth before + Text.byteWidth covered⟩ (.after before))
      (between tokens before covered rest) := by
  refine .bind (yields_lexeme tokens split) (.bind (.get _) ?_)
  simp only [span_between tokens split]
  exact .pure _ _

end Lexemes

/-! ## Tokens -/

/-- A scanner that has read a lexeme from its first character on. -/
def past (tokens : List Token) (before : List Char) (first : Char) (rest : List Char)
    (terminal : Terminal) : Scanner :=
  let covered := first :: lexemeTail first rest
  between (tokens ++ [tokenAfter before covered terminal]) before covered
    (rest.drop (lexemeTail first rest).length)

section Tokens

/-- No digit ends a line. -/
theorem ne_newLine_of_isDigit (char : Char) (digit : char.isDigit = true) : char ≠ '\n' := by
  rintro rfl
  cases digit

/-- No character of a word ends a line. -/
theorem ne_newLine_of_continuesWord
    (char : Char)
    (continues : Terminal.continuesWord char = true) :
    char ≠ '\n' := by
  rintro rfl
  exact absurd continues (by decide)

/-- What is passed by a class of characters is what comes before the first other one. -/
theorem drop_length_takeWhile (inClass : Char → Bool) (rest : List Char) :
    rest.drop (rest.takeWhile inClass).length = rest.dropWhile inClass := by
  have parted := congrArg (List.drop (rest.takeWhile inClass).length)
    (List.takeWhile_append_dropWhile (p := inClass) (l := rest))
  rw [List.drop_left] at parted
  exact parted.symm

variable
  {source : String}
  (tokens : List Token)
  {before rest : List Char}
  {first : Char}
  (split : source.toList = before ++ first :: rest)

include split

theorem split_past :
    source.toList =
      before ++ first :: lexemeTail first rest ++ rest.drop (lexemeTail first rest).length := by
  have parted := lexemeTail_prefix first rest
  rw [List.prefix_iff_eq_append] at parted
  rw [split, List.append_assoc, List.cons_append, parted]

/-- A token is added when the rest of its lexeme has been passed. -/
theorem yields_addToken_past (terminal : Terminal) :
    Yields (addToken source terminal)
      (between tokens before (first :: lexemeTail first rest)
        (rest.drop (lexemeTail first rest).length)) ()
      (past tokens before first rest terminal) :=
  yields_addToken tokens (split_past split) terminal

variable
  {terminal : Terminal}
  (spells : Terminal.ofLexeme? (first :: lexemeTail first rest) = some terminal)

include spells

/-- A digit begins a number. -/
theorem yields_number (digit : first.isDigit = true) {steps : Nat} (enough : rest.length < steps) :
    Yields (number source steps) (between tokens before [first] rest) ()
      (past tokens before first rest terminal) := by
  have tail : lexemeTail first rest = rest.takeWhile Char.isDigit := by
    rw [lexemeTail, if_pos digit]
  have digits : Terminal.IsDigits (first :: lexemeTail first rest) :=
    ⟨List.cons_ne_nil _ _, List.forall_mem_cons.mpr
      ⟨digit, tail ▸ List.all_eq_true.mp List.all_takeWhile⟩⟩
  rw [Terminal.ofLexeme?_of_isDigits digits] at spells
  obtain rfl := Option.some.inj spells
  have skips := yields_skipWhile tokens before [first] ne_newLine_of_isDigit enough
  rw [← drop_length_takeWhile, ← tail] at skips
  exact .bind skips (yields_addToken_past tokens split .number)

/-- A letter or an underscore begins a word. -/
theorem yields_word
    (begins : Terminal.beginsWord first = true)
    {steps : Nat}
    (enough : rest.length < steps) :
    Yields (word source steps) (between tokens before [first] rest) ()
      (past tokens before first rest terminal) := by
  have noDigit := Terminal.isDigit_eq_false_of_beginsWord begins
  have tail : lexemeTail first rest = rest.takeWhile Terminal.continuesWord := by
    rw [lexemeTail, noDigit, if_neg Bool.false_ne_true, if_pos begins]
  have isWord : Terminal.IsWord (first :: lexemeTail first rest) :=
    ⟨first, _, rfl, begins, tail ▸ List.all_eq_true.mp List.all_takeWhile⟩
  rw [Terminal.ofLexeme?_of_isWord isWord] at spells
  obtain rfl := Option.some.inj spells
  have skips := yields_skipWhile tokens before [first] ne_newLine_of_continuesWord enough
  rw [← drop_length_takeWhile, ← tail] at skips
  refine .bind skips (.bind (yields_lexeme tokens ?_) (yields_addToken_past tokens split _))
  exact split_past split

/-- A sign that has no second character is a lexeme. -/
theorem yields_sign
    {single : Terminal}
    (noDigit : first.isDigit = false)
    (noWord : Terminal.beginsWord first = false)
    (alone : secondOf? first = none)
    (spellsSingle : Terminal.ofLexeme? [first] = some single) :
    Yields (addToken source single) (between tokens before [first] rest) ()
      (past tokens before first rest terminal) := by
  have tail : lexemeTail first rest = [] := by
    rw [lexemeTail, noDigit, noWord, alone]
    rfl
  have adds := yields_addToken_past tokens split terminal
  rw [tail] at adds spells
  rw [spellsSingle] at spells
  obtain rfl := Option.some.inj spells
  exact adds

/-- A sign is a lexeme with its second character, and without it where another one follows. -/
theorem yields_addOperator
    {second : Char}
    {double single : Terminal}
    (noDigit : first.isDigit = false)
    (noWord : Terminal.beginsWord first = false)
    (doubled : secondOf? first = some second)
    (inLine : second ≠ '\n')
    (spellsDouble : Terminal.ofLexeme? [first, second] = some double)
    (spellsSingle : Terminal.ofLexeme? [first] = some single) :
    Yields (addOperator source second double single) (between tokens before [first] rest) ()
      (past tokens before first rest terminal) := by
  have tail : lexemeTail first rest = if rest.head? = some second then rest.take 1 else [] := by
    rw [lexemeTail, noDigit, noWord, doubled]
    simp
  have matched := yields_matchChar tokens before [first] inLine rest
  have adds := yields_addToken_past tokens split terminal
  by_cases follows : rest.head? = some second
  · obtain ⟨later, rfl⟩ := List.head?_eq_some_iff.mp follows
    rw [if_pos follows] at tail matched
    rw [follows, beq_self_eq_true] at matched
    rw [tail] at adds spells
    rw [List.take_one, List.head?_cons, Option.toList_some, spellsDouble] at spells
    obtain rfl := Option.some.inj spells
    exact .bind matched adds
  · rw [if_neg follows] at tail matched
    rw [beq_eq_false_iff_ne.mpr follows] at matched
    rw [tail] at adds spells
    rw [spellsSingle] at spells
    obtain rfl := Option.some.inj spells
    exact .bind matched adds

theorem yields_scanFrom_of_mem_signs (listed : first ∈ Terminal.signs) (steps : Nat) :
    Yields (scanFrom source steps first) (between tokens before [first] rest) (.ok ())
      (past tokens before first rest terminal) := by
  have parted : Terminal.signs =
      ['(', ')', '*', '/', '+', '-'] ++ ['!', '=', '<', '>', '&', '|'] := rfl
  rw [parted, List.mem_append] at listed
  simp only [List.mem_cons, List.not_mem_nil, or_false] at listed
  obtain single | operator := listed
  · obtain rfl | rfl | rfl | rfl | rfl | rfl := single <;>
      exact (yields_sign tokens split spells rfl rfl rfl (by decide)).map _
  · obtain rfl | rfl | rfl | rfl | rfl | rfl := operator <;>
      exact (yields_addOperator tokens split spells rfl rfl rfl (by decide) (by decide)
        (by decide)).map _

end Tokens

/-- What begins with no sign and no separator is a number, a word or an error. -/
theorem scanFrom_of_notMem_signs
    (source : String)
    (steps : Nat)
    {char : Char}
    (unlisted : char ∉ Terminal.signs)
    (begins : ¬ isSeparator char = true) :
    scanFrom source steps char =
      if char.isDigit then .ok <$> number source steps
      else if Terminal.beginsWord char then .ok <$> word source steps
      else .error <$> malformed source .unexpectedCharacter := by
  simp only [Terminal.signs, List.mem_cons, List.not_mem_nil, or_false, not_or] at unlisted
  simp only [isSeparator, Bool.or_eq_true, beq_iff_eq, not_or] at begins
  simp only [scanFrom, unlisted, begins, if_false, or_self]

/-! ## Whole texts -/

section Texts

variable
  {source : String}
  (tokens : List Token)
  {before rest : List Char}
  {first : Char}
  (split : source.toList = before ++ first :: rest)

/-- A separator is passed. -/
theorem yields_scanToken_separator (separates : isSeparator first = true) (steps : Nat) :
    Yields (scanToken source steps) (between tokens before [] (first :: rest)) (.ok ())
      (between tokens before [first] rest) := by
  refine .bind (yields_peek tokens before [] (first :: rest)) ?_
  by_cases feed : first = '\n'
  · subst feed
    obtain ⟨middle, advances, goesOn⟩ := exists_yields_newLine tokens before [] rest
    exact .bind advances (goesOn.map _)
  · refine .bind (yields_advance tokens before [] feed rest) ?_
    simp only [isSeparator, Bool.or_eq_true, beq_iff_eq, feed, or_false] at separates
    obtain (rfl | rfl) | rfl := separates <;> exact .pure _ _

include split

/-- A lexeme is read as a token. -/
theorem yields_scanToken_lexeme
    {terminal : Terminal}
    (begins : ¬ isSeparator first = true)
    (spells : Terminal.ofLexeme? (first :: lexemeTail first rest) = some terminal)
    {steps : Nat}
    (enough : rest.length < steps) :
    Yields (scanToken source steps) (between tokens before [] (first :: rest)) (.ok ())
      (past tokens before first rest terminal) := by
  have inLine : first ≠ '\n' := fun feed => begins (feed ▸ rfl)
  refine .bind (yields_peek tokens before [] (first :: rest))
    (.bind (yields_advance tokens before [] inLine rest) ?_)
  by_cases listed : first ∈ Terminal.signs
  · exact yields_scanFrom_of_mem_signs tokens split spells listed steps
  · simp only [List.head?_cons, scanFrom_of_notMem_signs source steps listed begins]
    by_cases digit : first.isDigit = true
    · rw [if_pos digit]
      exact (yields_number tokens split spells digit enough).map _
    · rw [if_neg digit]
      have known := inAlphabet_of_mem_lexeme spells first List.mem_cons_self
      have continues := (known.resolve_left begins).resolve_right listed
      have word := ((Terminal.continuesWord_iff first).mp continues).resolve_right digit
      rw [if_pos word]
      exact (yields_word tokens split spells word enough).map _

/-- A character that begins no lexeme is an error. -/
theorem exists_yields_scanToken_foreign
    (begins : ¬ isSeparator first = true)
    (unspelled : Terminal.ofLexeme? (first :: lexemeTail first rest) = none)
    (steps : Nat) :
    ∃ after, Yields (scanToken source steps) (between tokens before [] (first :: rest))
      (.error (.malformed .unexpectedCharacter (String.singleton first)
        ⟨Text.byteWidth before, Text.byteWidth before + first.utf8Size⟩ (.after before)))
      after := by
  have inLine : first ≠ '\n' := fun feed => begins (feed ▸ rfl)
  have foreign : ¬ InAlphabet first := by
    intro known
    obtain ⟨terminal, spells⟩ := exists_ofLexeme?_of_inAlphabet known begins rest
    rw [unspelled] at spells
    cases spells
  have noWord : ¬ Terminal.continuesWord first = true := fun word => foreign (.inr (.inl word))
  rw [Terminal.continuesWord_iff, not_or] at noWord
  refine ⟨between tokens before [first] rest,
    .bind (yields_peek tokens before [] (first :: rest))
      (.bind (yields_advance tokens before [] inLine rest) ?_)⟩
  simp only [List.head?_cons,
    scanFrom_of_notMem_signs source steps (fun listed => foreign (.inr (.inr listed))) begins]
  rw [if_neg noWord.2, if_neg noWord.1]
  have splitFirst : source.toList = before ++ [first] ++ rest := by
    rw [split, List.append_assoc, List.singleton_append]
  exact (yields_malformed tokens splitFirst .unexpectedCharacter).map _

end Texts

/-- What scanning comes to is the result that a text is scanned with: its error, or a scanner at
the end of the text that has read some more tokens. -/
def Reaches (source : String) (steps : Nat) (tokens : List Token) (state : Scanner) :
    Except RuleError Tokens → Prop
  | .error error => ∃ after, Yields (scanTokens source steps) state (.error error) after
  | .ok others =>
    others.finish = tokenAfter source.toList [] .finish ∧
      ∃ before covered, source.toList = before ++ covered ∧
        Yields (scanTokens source steps) state (.ok ())
          (between (tokens ++ others.body) before covered [])

section Loop

variable
  {source : String}
  {steps : Nat}
  {tokens read : List Token}
  {before covered rest : List Char}
  {first : Char}
  {state : Scanner}
  {result : Except RuleError Tokens}

/-- Where a separator or a lexeme is passed, scanning comes to what it comes to behind it. -/
theorem Reaches.of_scanToken
    (passes : Yields (scanToken source steps)
      (between tokens (before ++ covered) [] (first :: rest)) (.ok ()) state)
    (reaches : Reaches source steps read state result) :
    Reaches source (steps + 1) read (between tokens before covered (first :: rest)) result := by
  have step {after : Scanner} {outcome : Except RuleError Unit}
      (onward : Yields (scanTokens source steps) state outcome after) :
      Yields (scanTokens source (steps + 1)) (between tokens before covered (first :: rest)) outcome
        after :=
    .bind (yields_peek tokens before covered (first :: rest))
      (.bind (yields_begin tokens before covered (first :: rest)) (.bind passes onward))
  cases result with
  | error error => exact reaches.imp fun _ => step
  | ok others =>
      obtain ⟨finish, place, lexeme, whole, onward⟩ := reaches
      exact ⟨finish, place, lexeme, whole, step onward⟩

/-- A token that has been read is in front of those that follow. -/
theorem Reaches.map_cons
    {token : Token}
    (reaches : Reaches source steps (tokens ++ [token]) state result) :
    Reaches source steps tokens state (result.map (Tokens.cons token)) := by
  cases result with
  | error error => exact reaches
  | ok others =>
      obtain ⟨finish, place, lexeme, whole, onward⟩ := reaches
      rw [List.append_assoc] at onward
      exact ⟨finish, place, lexeme, whole, onward⟩

end Loop

/-- Scanning comes to the tokens of the text, or to its error. -/
theorem reaches_scanAt
    {source : String}
    {cursor : Cursor}
    {before covered text : List Char}
    {steps : Nat}
    (tokens : List Token)
    (stands : cursor = Cursor.start.advance (before ++ covered))
    (split : source.toList = before ++ covered ++ text)
    (enough : text.length < steps) :
    Reaches source steps tokens (between tokens before covered text)
      (Tokens.scanAt cursor text) := by
  obtain ⟨steps, rfl⟩ := Nat.exists_eq_add_one_of_ne_zero (Nat.ne_zero_of_lt enough)
  fun_induction Tokens.scanAt cursor text generalizing tokens before covered steps with
  | case1 =>
      rw [List.append_nil] at split
      rw [stands, ← split, Cursor.advance_start]
      refine ⟨rfl, before, covered, split, ?_⟩
      rw [List.append_nil]
      exact .bind (yields_peek tokens before covered []) (.pure _ _)
  | case2 cursor first rest separates inductionHypothesis =>
      have passes : Yields (scanToken source steps)
          (between tokens (before ++ covered) [] (first :: rest)) (.ok ())
          (between tokens (before ++ covered) [first] rest) :=
        yields_scanToken_separator tokens separates steps
      have enoughLater : rest.length < steps := Nat.lt_of_succ_lt_succ enough
      obtain ⟨fewer, rfl⟩ := Nat.exists_eq_add_one_of_ne_zero (Nat.ne_zero_of_lt enoughLater)
      refine .of_scanToken passes (inductionHypothesis tokens ?_ ?_ fewer enoughLater)
      · rw [stands, Cursor.advance_append _ _ [first]]
        rfl
      · rw [split, List.append_assoc _ [first], List.singleton_append]
  | case3 cursor first rest begins =>
      rename_i unspelled
      rw [stands, Cursor.advance_start]
      obtain ⟨after, fails⟩ := exists_yields_scanToken_foreign tokens split begins unspelled steps
      exact ⟨after, .bind (yields_peek tokens before covered (first :: rest))
        (.bind (yields_begin tokens before covered (first :: rest)) (.bind fails (.pure _ _)))⟩
  | case4 cursor first rest begins =>
      rename_i terminal spells inductionHypothesis
      have enoughToken : rest.length < steps := Nat.lt_of_succ_lt_succ enough
      have passes := yields_scanToken_lexeme tokens split begins spells enoughToken
      obtain ⟨fewer, rfl⟩ := Nat.exists_eq_add_one_of_ne_zero (Nat.ne_zero_of_lt enoughToken)
      have enoughLater : (rest.drop (lexemeTail first rest).length).length < fewer + 1 := by
        rw [List.length_drop]
        exact Nat.lt_of_le_of_lt (Nat.sub_le _ _) enoughToken
      have reached : cursor.advance (first :: lexemeTail first rest) =
          Cursor.start.advance (before ++ covered ++ first :: lexemeTail first rest) := by
        rw [stands, ← Cursor.advance_append]
      have token : (⟨terminal, String.ofList (first :: lexemeTail first rest),
          ⟨cursor.offset, (cursor.advance (first :: lexemeTail first rest)).offset⟩,
          cursor.position⟩ : Token) =
            tokenAfter (before ++ covered) (first :: lexemeTail first rest) terminal := by
        rw [Cursor.offset_advance, stands, Cursor.advance_start]
        rfl
      rw [token]
      exact (Reaches.of_scanToken passes
        (inductionHypothesis _ reached (split_past split) fewer enoughLater)).map_cons

/-- At the end of the text the token for it is added. -/
theorem yields_addFinish
    {source : String}
    {before covered : List Char}
    (tokens : List Token)
    (whole : source.toList = before ++ covered) :
    Yields (addFinish source) (between tokens before covered []) ()
      (between (tokens ++ [tokenAfter source.toList [] .finish]) source.toList [] []) := by
  have split : source.toList = source.toList ++ [] ++ [] := by
    rw [List.append_nil, List.append_nil]
  refine .bind (.modify ?_) (yields_addToken tokens split .finish)
  simp [between, indexed, whole]

/-- A scanner reads the tokens of a text, or comes to its error, without a breach.  It takes at most
one step for each character and one for the end. -/
theorem exists_yields_scan
    {source : String}
    {steps : Nat}
    (enough : source.toList.length < steps) :
    ∃ after, Yields (scan source steps) (ofSource source) ((Tokens.scan source).map Tokens.toList)
      after := by
  have reaches : Reaches source steps [] (between [] [] [] source.toList) (Tokens.scan source) :=
    reaches_scanAt [] rfl rfl enough
  rw [ofSource_eq]
  cases scanned : Tokens.scan source with
  | error error =>
      rw [scanned] at reaches
      obtain ⟨after, fails⟩ := reaches
      exact ⟨after, .bind fails (.pure _ _)⟩
  | ok tokens =>
      rw [scanned] at reaches
      obtain ⟨finish, before, covered, whole, reads⟩ := reaches
      have adds := yields_addFinish ([] ++ tokens.body) whole
      rw [← finish] at adds
      exact ⟨_, .bind reads (.bind adds (.bind (.get _) (.pure (Except.ok tokens.toList) _)))⟩

end Scanner
end DecisionRules
