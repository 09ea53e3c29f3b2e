import DecisionRules.Proofs.Text.Position
import DecisionRules.Proofs.Text.Span
import DecisionRules.Proofs.Token.Lexeme

/-!
# Texts tiled by tokens

A text that stands at an offset is tiled by tokens when it consists of their lexemes, in their
order and each at its span, with separators between them, and no lexeme could be longer where it
stands.  Positions are left aside.  Scanning succeeds with the tokens that tile the text, and with
no others.

Tilings can be moved to another offset and can be cut between two tokens, which is how a part of
a text is scanned and how texts are put together.
-/

namespace DecisionRules

namespace Token

/-- A token without its position. -/
def stamp (token : Token) : Terminal × String × Span :=
  (token.terminal, token.lexeme, token.span)

/-- The token of a lexeme at an offset.  Its position is left at the start. -/
def ofLexeme (terminal : Terminal) (lexeme : List Char) (offset : Nat) : Token :=
  ⟨terminal, String.ofList lexeme, ⟨offset, offset + Text.byteWidth lexeme⟩, .start⟩

/-- A token moved to the right by a number of bytes.  Its position is left as it is. -/
def move (distance : Nat) (token : Token) : Token :=
  { token with span := token.span.shift distance }

end Token

/-- A text at an offset consists of the lexemes of tokens, each at its place and as long as it
can be, and of separators between them. -/
inductive Tiles : Nat → List Char → List Token → Prop
  | finish {offset : Nat} : Tiles offset [] []
  | separator
      {offset : Nat}
      {first : Char}
      {rest : List Char}
      {tokens : List Token}
      (separates : isSeparator first = true)
      (later : Tiles (offset + first.utf8Size) rest tokens) :
      Tiles offset (first :: rest) tokens
  | token
      {offset : Nat}
      {token : Token}
      {lexeme rest : List Char}
      {tokens : List Token}
      (spelled : token.lexeme.toList = lexeme)
      (placed : token.span = ⟨offset, offset + Text.byteWidth lexeme⟩)
      (spells : Terminal.ofLexeme? lexeme = some token.terminal)
      (longest : ∀ next ∈ rest.head?, ¬ Terminal.Extends lexeme next)
      (later : Tiles (offset + Text.byteWidth lexeme) rest tokens) :
      Tiles offset (lexeme ++ rest) (token :: tokens)

/-- A lexeme takes up at least one byte. -/
theorem Text.byteWidth_pos_of_ofLexeme?
    {lexeme : List Char}
    {terminal : Terminal}
    (spells : Terminal.ofLexeme? lexeme = some terminal) :
    0 < byteWidth lexeme := by
  cases lexeme with
  | nil => cases spells
  | cons first tail =>
      have positive := first.utf8Size_pos
      rw [byteWidth_cons]
      omega

/-! ## Scanning -/

namespace Tokens

/-- A lexeme in front of a text is its first token. -/
theorem scanAt_lexeme
    (cursor : Cursor)
    {first : Char}
    {tail rest : List Char}
    {terminal : Terminal}
    (spells : Terminal.ofLexeme? (first :: tail) = some terminal)
    (longest : ∀ next ∈ rest.head?, ¬ Terminal.Extends (first :: tail) next) :
    scanAt cursor (first :: tail ++ rest) =
      (scanAt (cursor.advance (first :: tail)) rest).map
        (cons ⟨terminal, String.ofList (first :: tail),
          ⟨cursor.offset, (cursor.advance (first :: tail)).offset⟩, cursor.position⟩) := by
  have begins : ¬ isSeparator first = true := by
    rw [isSeparator_eq_false_of_ofLexeme? spells]
    decide
  rw [List.cons_append, scanAt, if_neg begins]
  simp only [(lexemeTail_append_eq_iff spells rest).mpr longest, spells, List.drop_left]

/-- A text that is tiled can be scanned, into tokens that differ at most in their positions and
that end where the text ends. -/
theorem exists_scanAt_of_tiles
    {offset : Nat}
    {text : List Char}
    {tiling : List Token}
    (tiles : Tiles offset text tiling)
    {cursor : Cursor}
    (stands : cursor.offset = offset) :
    ∃ tokens, scanAt cursor text = .ok tokens ∧
      tokens.body.map Token.stamp = tiling.map Token.stamp ∧
      tokens.finish.stamp =
        (.finish, "", ⟨offset + Text.byteWidth text, offset + Text.byteWidth text⟩) := by
  induction tiles generalizing cursor with
  | finish => exact ⟨_, scanAt_nil cursor, rfl, by rw [Token.stamp, stands]; rfl⟩
  | @separator offset first rest tiling separates later inductionHypothesis =>
      rw [scanAt_separator cursor rest separates, Text.byteWidth_cons, ← Nat.add_assoc]
      apply inductionHypothesis
      rw [← stands]
      rfl
  | @token offset token lexeme rest tiling spelled placed spells longest later
      inductionHypothesis =>
      cases lexeme with
      | nil => cases spells
      | cons first tail =>
          have next : (cursor.advance (first :: tail)).offset =
              offset + Text.byteWidth (first :: tail) := by
            rw [Cursor.offset_advance, stands]
          obtain ⟨tokens, scanned, same, finish⟩ := inductionHypothesis next
          rw [scanAt_lexeme cursor spells longest, scanned, Text.byteWidth_append,
            ← Nat.add_assoc]
          refine ⟨_, rfl, ?_, finish⟩
          rw [cons, List.map_cons, List.map_cons, same, Token.stamp, Token.stamp, next, placed,
            stands, ← spelled, String.ofList_toList]

/-- A text that can be scanned is tiled by its tokens. -/
theorem tiles_of_scanAt
    {cursor : Cursor}
    {text : List Char}
    {tokens : Tokens}
    (scanned : scanAt cursor text = .ok tokens) :
    Tiles cursor.offset text tokens.body := by
  fun_induction scanAt cursor text generalizing tokens with
  | case1 cursor =>
      cases scanned
      exact .finish
  | case2 cursor first rest separates inductionHypothesis =>
      exact .separator separates (inductionHypothesis scanned)
  | case3 => cases scanned
  | case4 cursor first rest begins tail next lexeme terminal spells =>
      rename_i inductionHypothesis
      obtain ⟨later, split⟩ := lexemeTail_prefix first rest
      obtain ⟨others, readLater, rfl⟩ := exists_ok_of_map_eq_ok scanned
      have remaining : rest.drop tail.length = later := by
        rw [← split, List.drop_left]
      have tilesLater := inductionHypothesis readLater
      have longest := (lexemeTail_append_eq_iff spells later).mp (by rw [split])
      have width := Cursor.offset_advance cursor (first :: tail)
      rw [remaining, width] at tilesLater
      rw [← split, ← List.cons_append]
      exact .token String.toList_ofList (by rw [width]) spells longest tilesLater

end Tokens

/-! ## Places -/

namespace Tiles

variable {offset : Nat} {text : List Char} {tokens : List Token}

/-- A lexeme can be put in front of a tiling that does not make it longer. -/
theorem lexeme
    {terminal : Terminal}
    {lexeme : List Char}
    (spells : Terminal.ofLexeme? lexeme = some terminal)
    (longest : ∀ next ∈ text.head?, ¬ Terminal.Extends lexeme next)
    (later : Tiles (offset + Text.byteWidth lexeme) text tokens) :
    Tiles offset (lexeme ++ text) (.ofLexeme terminal lexeme offset :: tokens) :=
  .token String.toList_ofList rfl spells longest later

/-- The lexemes of a tiling spell their symbols. -/
theorem spells
    (tiles : Tiles offset text tokens) :
    ∀ token ∈ tokens, Terminal.ofLexeme? token.lexeme.toList = some token.terminal := by
  induction tiles with
  | finish => simp
  | separator _ _ inductionHypothesis => exact inductionHypothesis
  | token spelled _ spells _ _ inductionHypothesis =>
      exact List.forall_mem_cons.mpr ⟨spelled ▸ spells, inductionHypothesis⟩

/-- The tokens of a tiling take up some bytes of the text each. -/
theorem within
    (tiles : Tiles offset text tokens) :
    ∀ token ∈ tokens,
      offset ≤ token.span.start ∧ token.span.start < token.span.stop ∧
        token.span.stop ≤ offset + Text.byteWidth text := by
  induction tiles with
  | finish => simp
  | separator _ _ inductionHypothesis =>
      intro token member
      obtain ⟨lower, nonempty, upper⟩ := inductionHypothesis token member
      rw [Text.byteWidth_cons]
      omega
  | token spelled placed spells _ _ inductionHypothesis =>
      have positive := Text.byteWidth_pos_of_ofLexeme? spells
      rw [Text.byteWidth_append]
      refine List.forall_mem_cons.mpr ⟨?_, ?_⟩
      · rw [placed]
        simp only
        omega
      · intro later member
        obtain ⟨lower, nonempty, upper⟩ := inductionHypothesis later member
        omega

/-- The tokens of a tiling stand one after another. -/
theorem ordered
    (tiles : Tiles offset text tokens) :
    tokens.Pairwise fun earlier later => earlier.span.stop ≤ later.span.start := by
  induction tiles with
  | finish => exact .nil
  | separator _ _ inductionHypothesis => exact inductionHypothesis
  | token _ placed _ _ later inductionHypothesis =>
      refine .cons ?_ inductionHypothesis
      intro other member
      rw [placed]
      exact (later.within other member).1

/-- A text that is tiled by some tokens has characters. -/
theorem ne_nil (tiles : Tiles offset text tokens) (nonempty : tokens ≠ []) : text ≠ [] := by
  rintro rfl
  obtain ⟨token, member⟩ := List.exists_mem_of_ne_nil tokens nonempty
  have within := tiles.within token member
  rw [Text.byteWidth_nil] at within
  omega

/-- A text has at least as many characters as tokens. -/
theorem length_le (tiles : Tiles offset text tokens) : tokens.length ≤ text.length := by
  induction tiles with
  | finish => exact Nat.le_refl _
  | separator _ _ inductionHypothesis => exact Nat.le_succ_of_le inductionHypothesis
  | @token _ _ lexeme _ _ _ _ spells _ _ inductionHypothesis =>
      have nonempty : 0 < lexeme.length :=
        List.length_pos_iff.mpr (by rintro rfl; cases spells)
      rw [List.length_cons, List.length_append]
      omega

/-- The spans of a tiling stand one after another and are not empty. -/
theorem ordered_spans (tiles : Tiles offset text tokens) : Span.Ordered (tokens.map Token.span) :=
  ⟨List.forall_mem_map.mpr fun token member => (tiles.within token member).2.1,
    List.pairwise_map.mpr tiles.ordered⟩

/-! ## Moving -/

/-- A tiling can be moved together with the text. -/
theorem move (tiles : Tiles offset text tokens) (distance : Nat) :
    Tiles (offset + distance) text (tokens.map (Token.move distance)) := by
  induction tiles with
  | finish => exact .finish
  | separator separates _ inductionHypothesis =>
      rw [Nat.add_right_comm] at inductionHypothesis
      exact .separator separates inductionHypothesis
  | @token offset token lexeme _ _ spelled placed spells longest _ inductionHypothesis =>
      rw [Nat.add_right_comm] at inductionHypothesis
      have moved : (token.move distance).span =
          ⟨offset + distance, offset + distance + Text.byteWidth lexeme⟩ := by
        rw [Token.move, placed, Span.shift, Nat.add_right_comm]
      exact .token spelled moved spells longest inductionHypothesis

/-- A tiling of a text further to the right was moved there. -/
theorem exists_move
    {position distance : Nat}
    (tiles : Tiles position text tokens)
    (stands : position = offset + distance) :
    ∃ others, Tiles offset text others ∧ others.map (Token.move distance) = tokens := by
  induction tiles generalizing offset with
  | finish => exact ⟨[], .finish, rfl⟩
  | @separator position first _ _ separates _ inductionHypothesis =>
      have standsLater : position + first.utf8Size = offset + first.utf8Size + distance := by
        omega
      obtain ⟨others, tilesOthers, moved⟩ := inductionHypothesis standsLater
      exact ⟨others, .separator separates tilesOthers, moved⟩
  | @token position token lexeme _ _ spelled placed spells longest _ inductionHypothesis =>
      have standsLater : position + Text.byteWidth lexeme =
          offset + Text.byteWidth lexeme + distance := by
        omega
      obtain ⟨others, tilesOthers, moved⟩ := inductionHypothesis standsLater
      let place : Span := ⟨offset, offset + Text.byteWidth lexeme⟩
      refine ⟨{ token with span := place } :: others,
        .token spelled rfl spells longest tilesOthers, ?_⟩
      have shifted : place.shift distance = token.span := by
        rw [placed, stands, Nat.add_right_comm]
        rfl
      rw [List.map_cons, moved, Token.move, shifted]

/-! ## Putting together and cutting -/

/-- Tilings can be put together where the second text makes no lexeme longer. -/
theorem append
    {right : List Char}
    {others : List Token}
    (tiles : Tiles offset text tokens)
    (tilesRight : Tiles (offset + Text.byteWidth text) right others)
    (detached : Detached right) :
    Tiles offset (text ++ right) (tokens ++ others) := by
  induction tiles with
  | finish => exact tilesRight
  | separator separates _ inductionHypothesis =>
      rw [Text.byteWidth_cons, ← Nat.add_assoc] at tilesRight
      exact .separator separates (inductionHypothesis tilesRight)
  | @token _ _ lexeme rest _ spelled placed spells longest _ inductionHypothesis =>
      rw [Text.byteWidth_append, ← Nat.add_assoc] at tilesRight
      rw [List.append_assoc]
      refine .token spelled placed spells ?_ (inductionHypothesis tilesRight)
      cases rest with
      | nil => exact fun next member => detached next member lexeme
      | cons next rest => exact longest

/-- The later tokens of a tiling tile the text from the first of them on. -/
theorem exists_suffix
    {before after : List Token}
    {first : Token}
    (tiles : Tiles offset text (before ++ first :: after)) :
    ∃ skipped remaining, text = skipped ++ remaining ∧
      first.span.start = offset + Text.byteWidth skipped ∧
      Tiles (offset + Text.byteWidth skipped) remaining (first :: after) := by
  generalize all : before ++ first :: after = tokens at tiles
  induction tiles generalizing before with
  | finish => simp at all
  | @separator offset char rest tokens separates later inductionHypothesis =>
      obtain ⟨skipped, remaining, rfl, start, tilesRemaining⟩ := inductionHypothesis all
      refine ⟨char :: skipped, remaining, rfl, ?_, ?_⟩
      · rw [start, Text.byteWidth_cons, Nat.add_assoc]
      · rwa [Text.byteWidth_cons, ← Nat.add_assoc]
  | @token offset token lexeme rest tokens spelled placed spells longest later
      inductionHypothesis =>
      cases before with
      | nil =>
          obtain ⟨rfl, rfl⟩ := List.cons.inj all
          refine ⟨[], lexeme ++ rest, rfl, ?_, .token spelled placed spells longest later⟩
          rw [placed]
          rfl
      | cons _ before =>
          obtain ⟨skipped, remaining, rfl, start, tilesRemaining⟩ :=
            inductionHypothesis (List.cons.inj all).2
          refine ⟨lexeme ++ skipped, remaining, (List.append_assoc ..).symm, ?_, ?_⟩
          · rw [start, Text.byteWidth_append, Nat.add_assoc]
          · rwa [Text.byteWidth_append, ← Nat.add_assoc]

/-- The earlier tokens of a tiling tile the text up to the last of them. -/
theorem exists_prefix
    {before after : List Token}
    (tiles : Tiles offset text (before ++ after)) :
    ∃ covered remaining, text = covered ++ remaining ∧
      offset + Text.byteWidth covered = Span.lastStop offset (before.map Token.span) ∧
      Tiles offset covered before := by
  generalize all : before ++ after = tokens at tiles
  induction tiles generalizing before with
  | finish =>
      obtain ⟨rfl, _⟩ := List.append_eq_nil_iff.mp all
      exact ⟨[], [], rfl, rfl, .finish⟩
  | @separator offset char rest tokens separates later inductionHypothesis =>
      cases before with
      | nil => exact ⟨[], char :: rest, rfl, rfl, .finish⟩
      | cons first before =>
          obtain ⟨covered, remaining, rfl, stop, tilesCovered⟩ := inductionHypothesis all
          refine ⟨char :: covered, remaining, rfl, ?_, .separator separates tilesCovered⟩
          rw [List.map_cons, Span.lastStop_cons] at stop ⊢
          rw [← stop, Text.byteWidth_cons, Nat.add_assoc]
  | @token offset token lexeme rest tokens spelled placed spells longest later
      inductionHypothesis =>
      cases before with
      | nil => exact ⟨[], lexeme ++ rest, rfl, rfl, .finish⟩
      | cons first before =>
          obtain ⟨rfl, rfl⟩ := List.cons.inj all
          obtain ⟨covered, remaining, rfl, stop, tilesCovered⟩ := inductionHypothesis rfl
          refine ⟨lexeme ++ covered, remaining, (List.append_assoc ..).symm, ?_,
            .token spelled placed spells ?_ tilesCovered⟩
          · rw [List.map_cons, Span.lastStop_cons, placed, ← stop, Text.byteWidth_append,
              Nat.add_assoc]
          · cases covered with
            | nil => simp
            | cons next covered => exact longest

/-- Neighbouring tokens of a tiling tile the text from the first of them to the last one. -/
theorem exists_infix
    {before middle after : List Token}
    (tiles : Tiles offset text (before ++ middle ++ after))
    (nonempty : middle ≠ []) :
    ∃ skipped covered remaining, text = skipped ++ covered ++ remaining ∧
      Span.joinAll (middle.map Token.span) =
        ⟨offset + Text.byteWidth skipped,
          offset + Text.byteWidth skipped + Text.byteWidth covered⟩ ∧
      Tiles (offset + Text.byteWidth skipped) covered middle := by
  obtain ⟨first, rest, rfl⟩ := List.exists_cons_of_ne_nil nonempty
  rw [List.append_assoc, List.cons_append] at tiles
  obtain ⟨skipped, later, rfl, start, tilesLater⟩ := tiles.exists_suffix
  rw [← List.cons_append] at tilesLater
  obtain ⟨covered, remaining, rfl, stop, tilesCovered⟩ := tilesLater.exists_prefix
  refine ⟨skipped, covered, remaining, (List.append_assoc ..).symm, ?_, tilesCovered⟩
  rw [stop, List.map_cons, Span.joinAll_cons, Span.lastStop_cons, start]

end Tiles

/-! ## Whole texts -/

namespace Tokens

variable {source : String} {tokens : Tokens}

/-- The lexeme of a scanned token spells its symbol. -/
theorem ofLexeme?_of_mem_scan
    (scanned : scan source = .ok tokens)
    {token : Token}
    (member : token ∈ tokens.body) :
    Terminal.ofLexeme? token.lexeme.toList = some token.terminal :=
  (tiles_of_scanAt scanned).spells token member

/-- The end of a text is an empty token after its last character. -/
theorem stamp_finish_of_scan (scanned : scan source = .ok tokens) :
    tokens.finish.stamp =
      (.finish, "", ⟨Text.byteWidth source.toList, Text.byteWidth source.toList⟩) := by
  obtain ⟨again, scannedAgain, _, finish⟩ :=
    exists_scanAt_of_tiles (tiles_of_scanAt scanned) rfl
  obtain rfl : tokens = again := Except.ok.inj (scanned.symm.trans scannedAgain)
  have origin : Cursor.start.offset = 0 := rfl
  rw [finish, origin, Nat.zero_add]

theorem terminal_finish_of_scan (scanned : scan source = .ok tokens) :
    tokens.finish.terminal = .finish :=
  congrArg Prod.fst (stamp_finish_of_scan scanned)

theorem span_finish_of_scan (scanned : scan source = .ok tokens) :
    tokens.finish.span =
      ⟨Text.byteWidth source.toList, Text.byteWidth source.toList⟩ :=
  congrArg (fun stamp => stamp.2.2) (stamp_finish_of_scan scanned)

/-- No token before the end of a text is its end. -/
theorem terminal_ne_finish_of_scan (scanned : scan source = .ok tokens) :
    ∀ token ∈ tokens.body, token.terminal ≠ .finish :=
  fun _ member => Terminal.ne_finish_of_ofLexeme? (ofLexeme?_of_mem_scan scanned member)

/-- No two tokens of a text begin at the same place. -/
theorem pairwise_start_lt_of_scan (scanned : scan source = .ok tokens) :
    tokens.toList.Pairwise fun earlier later => earlier.span.start < later.span.start := by
  have tiles : Tiles 0 source.toList tokens.body := tiles_of_scanAt scanned
  have finish := span_finish_of_scan scanned
  rw [toList, List.pairwise_append]
  refine ⟨?_, List.pairwise_singleton .., ?_⟩
  · refine tiles.ordered.imp_of_mem ?_
    intro earlier later memberEarlier _ apart
    exact Nat.lt_of_lt_of_le (tiles.within earlier memberEarlier).2.1 apart
  · intro token member last memberLast
    obtain rfl := List.mem_singleton.mp memberLast
    obtain ⟨_, nonempty, upper⟩ := tiles.within token member
    rw [finish]
    simp only
    omega

/-- Where a token of a text begins, no other one begins. -/
theorem start_ne_of_scan
    (scanned : scan source = .ok tokens)
    {before after : List Token}
    {token : Token}
    (all : tokens.toList = before ++ token :: after) :
    ∀ other ∈ before ++ after, other.span.start ≠ token.span.start := by
  have increasing := pairwise_start_lt_of_scan scanned
  rw [all, List.pairwise_append, List.pairwise_cons] at increasing
  obtain ⟨_, ⟨later, _⟩, earlier⟩ := increasing
  intro other member
  obtain member | member := List.mem_append.mp member
  · exact Nat.ne_of_lt (earlier other member token List.mem_cons_self)
  · exact Nat.ne_of_gt (later other member)

end Tokens
end DecisionRules
