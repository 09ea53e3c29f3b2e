import DecisionRules.Canvas
import DecisionRules.Proofs.Grammar.Culprit
import DecisionRules.Proofs.Grammar.ErrorPlace
import DecisionRules.Proofs.Text.Lines
import DecisionRules.Proofs.Token.MaximalMunch

/-!
# Errors that can be drawn

A report draws characters of a rule text, with one blank after its end.  An error about a rule text
points at some characters of the text, or at its end when an operand is missing there; then the
range that is drawn is widened to the blank.  So something is always drawn, no character of it in
part.  What stands before it is written with the alphabet, of which each character takes up one
byte, so that bytes and characters are counted alike up to there.  A renderer that parts texts into
their lines has lines to show.
-/

namespace DecisionRules

/-- The characters that rule texts are written with are ASCII. -/
theorem InAlphabet.toNat_lt {char : Char} (known : InAlphabet char) : char.toNat < 128 := by
  obtain letter | digit | sign := (inAlphabet_iff char).mp known
  · rw [isAlpha_iff_toNat] at letter
    omega
  · rw [isDigit_iff_toNat] at digit
    omega
  · have small : (['_', '(', ')', '*', '/', '+', '-', '!', '=', '<', '>', '&', '|', ' ', '\t',
        '\r', '\n'].all fun char => decide (char.toNat < 128)) = true := by
      decide
    exact of_decide_eq_true (List.all_eq_true.mp small char sign)

namespace Text

/-- A text of ASCII characters has as many bytes as characters. -/
theorem byteWidth_eq_length
    {text : List Char}
    (ascii : ∀ char ∈ text, char.toNat < 128) :
    byteWidth text = text.length := by
  induction text with
  | nil => rfl
  | cons char rest inductionHypothesis =>
      obtain ⟨first, later⟩ := List.forall_mem_cons.mp ascii
      have single : char.utf8Size = 1 := by
        rw [Char.utf8Size_eq_one_iff, UInt32.le_iff_toNat_le]
        exact Nat.le_of_lt_succ first
      rw [byteWidth_cons, List.length_cons, single, inductionHypothesis later, Nat.add_comm]

/-- A text with characters has bytes. -/
theorem byteWidth_pos {text : List Char} (nonempty : text ≠ []) : 0 < byteWidth text := by
  rw [Nat.pos_iff_ne_zero]
  exact fun empty => nonempty (eq_nil_of_byteWidth_eq_zero empty)

/-- A range of a text is a part of it. -/
theorem IsRange.isPart {text : List Char} {span : Span} (range : IsRange text span) :
    IsPart text span := by
  obtain ⟨before, covered, after, rfl, _, rfl⟩ := range
  exact ⟨⟨before, covered ++ after, List.append_assoc .., rfl⟩,
    ⟨before ++ covered, after, rfl, (byteWidth_append ..).symm⟩, Nat.le_add_right _ _⟩

/-- A part of a text that takes up a byte is a range of it. -/
theorem IsPart.isRange
    {text : List Char}
    {span : Span}
    (part : IsPart text span)
    (nonempty : span.start < span.stop) :
    IsRange text span := by
  obtain ⟨before, rest, split, start⟩ := part.starts
  obtain ⟨front, after, same, stop⟩ := part.stops
  obtain ⟨covered, rfl, _⟩ :=
    exists_append_of_byteWidth_le (split.symm.trans same) (start ▸ stop ▸ part.ordered)
  rw [byteWidth_append] at stop
  refine ⟨before, covered, after, same, ?_, by rw [← start, ← stop] at *⟩
  rintro rfl
  rw [byteWidth_nil] at stop
  omega

end Text

/-! ## What errors point at -/

/-- An error points at some characters of a text or misses an operand at its end, and what stands
before it is written with the alphabet. -/
inductive RuleError.PointsInto (text : List Char) : RuleError → Prop
  | characters
      {error : RuleError}
      {before covered after : List Char}
      (split : text = before ++ covered ++ after)
      (nonempty : covered ≠ [])
      (known : ∀ char ∈ before, InAlphabet char)
      (placed :
        error.span =
          ⟨Text.byteWidth before, Text.byteWidth before + Text.byteWidth covered⟩) :
      PointsInto text error
  | finish
      {fragment : String}
      {position : Position}
      (known : ∀ char ∈ text, InAlphabet char) :
      PointsInto text
        (.malformed .missingOperand fragment ⟨Text.byteWidth text, Text.byteWidth text⟩ position)

namespace RuleError

variable {source : String} {error : RuleError}

/-- An error about a range of a text that can be scanned points into the text. -/
theorem PointsInto.of_isRange
    {tokens : Tokens}
    (scanned : Tokens.scan source = .ok tokens)
    (range : Text.IsRange source.toList error.span) :
    error.PointsInto source.toList := by
  obtain ⟨before, covered, after, split, nonempty, placed⟩ := range
  refine .characters split nonempty (fun char member => ?_) placed
  refine Tokens.exists_scan_iff.mp ⟨tokens, scanned⟩ char ?_
  rw [split, List.append_assoc]
  exact List.mem_append_left _ member

/-- What an error points at is a part of the text. -/
theorem PointsInto.isPart {text : List Char} (points : error.PointsInto text) :
    Text.IsPart text error.span := by
  cases points with
  | @characters _ before covered after split nonempty _ placed =>
      exact Text.IsRange.isPart ⟨before, covered, after, split, nonempty, placed⟩
  | finish _ =>
      have last : Text.IsPlace text (Text.byteWidth text) :=
        ⟨text, [], (List.append_nil _).symm, rfl⟩
      exact ⟨last, last, Nat.le_refl _⟩

/-- An error about a text that cannot be scanned points at a character. -/
theorem pointsInto_of_scan_error (fails : Tokens.scan source = .error error) :
    error.PointsInto source.toList := by
  obtain ⟨before, char, after, split, known, _, rfl⟩ := Tokens.exists_foreign_of_scan fails
  have parted : source.toList = before ++ [char] ++ after := by
    rw [split, List.append_assoc, List.singleton_append]
  exact .characters parted (List.cons_ne_nil _ _) known rfl

end RuleError

/-! ### Errors about tokens -/

section Scanned

variable {source : String} {tokens : Tokens} (scanned : Tokens.scan source = .ok tokens)

include scanned

/-- A token before the end of a text takes up a range of the text. -/
theorem Tokens.isRange_of_mem_scan {token : Token} (member : token ∈ tokens.body) :
    Text.IsRange source.toList token.span := by
  have tiles : Tiles 0 source.toList tokens.body := tiles_of_scanAt scanned
  have part := isPart_of_mem_scan scanned (List.mem_append_left _ member)
  exact part.isRange (tiles.within token member).2.1

/-- The text from the beginning of a token to that of a later one is a range of the text. -/
theorem Tokens.isRange_between_of_scan
    {earlier later : Token}
    {front back : List Token}
    (all : tokens.toList = front ++ back)
    (memberFront : earlier ∈ front)
    (memberBack : later ∈ back) :
    Text.IsRange source.toList ⟨earlier.span.start, later.span.start⟩ := by
  have increasing := pairwise_start_lt_of_scan scanned
  rw [all, List.pairwise_append] at increasing
  have apart := increasing.2.2 earlier memberFront later memberBack
  have partFront := isPart_of_mem_scan scanned (all ▸ List.mem_append_left _ memberFront)
  have partBack := isPart_of_mem_scan scanned (all ▸ List.mem_append_right _ memberBack)
  exact Text.IsPart.isRange ⟨partFront.starts, partBack.starts, Nat.le_of_lt apart⟩ apart

/-- The text from the beginning of a token to its end is a range of the text. -/
theorem Tokens.isRange_to_end_of_scan {token : Token} (member : token ∈ tokens.body) :
    Text.IsRange source.toList ⟨token.span.start, Text.byteWidth source.toList⟩ := by
  have range := isRange_between_of_scan scanned rfl member (List.mem_singleton_self tokens.finish)
  rwa [span_finish_of_scan scanned] at range

/-- The error that an obstacle amounts to points into the text. -/
theorem Grammar.Progress.pointsInto_toError
    {vocabulary : Vocabulary}
    {limit : Nat}
    {before after : List Token}
    {obstacle : Obstacle}
    (body : tokens.body = before ++ after)
    (meets : (start.afterAll before).Meets vocabulary limit after.head? obstacle) :
    (obstacle.toError source tokens).PointsInto source.toList := by
  have ahead {token : Token} (head : after.head? = some token) : token ∈ tokens.body :=
    body ▸ List.mem_append_right _ (List.mem_of_mem_head? head)
  generalize found : after.head? = head at meets
  cases meets with
  | @unreadable token error isOperand read =>
      have spells := Tokens.ofLexeme?_of_mem_scan scanned (ahead found)
      rw [Obstacle.toError, eq_unknownVariable_of_ofToken spells isOperand read]
      exact .of_isRange scanned (Tokens.isRange_of_mem_scan scanned (ahead found))
  | missing =>
      cases head with
      | some token => exact .of_isRange scanned (Tokens.isRange_of_mem_scan scanned (ahead found))
      | none =>
          rw [Obstacle.toError, Tokens.span_finish_of_scan scanned]
          exact .finish (Tokens.exists_scan_iff.mp ⟨tokens, scanned⟩)
  | @unclosed group outer _ inside =>
      have all : tokens.toList = before ++ (after ++ [tokens.finish]) := by
        rw [Tokens.toList, body, List.append_assoc]
      have memberFound : head.getD tokens.finish ∈ after ++ [tokens.finish] := by
        cases head with
        | none => exact List.mem_append_right _ (List.mem_singleton_self _)
        | some token => exact List.mem_append_left _ (List.mem_of_mem_head? found)
      have opens : group ∈ (Nesting.start.afterAll before).groups := by
        rw [nesting_afterAll] at inside
        exact inside ▸ List.mem_cons_self
      obtain memberOpening | outside := Nesting.mem_or_mem_of_mem_groups_afterAll opens
      · exact .of_isRange scanned
          (Tokens.isRange_between_of_scan scanned all memberOpening memberFound)
      · cases outside
  | tooDeep _ _ =>
      exact .of_isRange scanned (Tokens.isRange_to_end_of_scan scanned (ahead found))
  | trailing token _ =>
      exact .of_isRange scanned (Tokens.isRange_to_end_of_scan scanned (ahead found))

end Scanned

namespace Expr

open Grammar

variable
  {vocabulary : Vocabulary}
  {maxDepth : Nat}
  {source : String}
  {error : RuleError}

/-- The error about a text that is not read as a rule points into the text. -/
theorem pointsInto_of_parse
    (fails : parse vocabulary maxDepth source = .error error) :
    error.PointsInto source.toList := by
  cases scanned : Tokens.scan source with
  | error found =>
      rw [parse, scanned] at fails
      obtain rfl := Except.error.inj fails
      exact RuleError.pointsInto_of_scan_error scanned
  | ok tokens =>
      obtain ⟨obstacle, stuck, rfl⟩ := exists_obstacle_of_parse scanned fails
      obtain ⟨before, after, body, _, blocked⟩ := Progress.exists_passes_of_firstObstacle? stuck
      exact Progress.pointsInto_toError scanned body (Progress.meets_of_obstacle? blocked)

/-- A node of a rule takes up a range of the text. -/
theorem isRange_of_mem_nodes
    {tree node : Expr}
    (read : parse vocabulary maxDepth source = .ok tree)
    (member : node ∈ tree.nodes) :
    Text.IsRange source.toList node.span := by
  obtain ⟨phrase, before, covered, after, _, _, split, placed, tiles⟩ :=
    exists_tiles_of_mem_nodes read member
  exact ⟨before, covered, after, split, tiles.ne_nil phrase.tokens_ne_nil, placed⟩

/-- The error of a rule that fails in a context points into its text. -/
theorem pointsInto_of_eval
    {tree : Expr}
    {context : Context}
    (read : parse vocabulary maxDepth source = .ok tree)
    (fails : tree.eval context = .error error) :
    error.PointsInto source.toList := by
  obtain ⟨tokens, scanned⟩ := exists_scan_of_parse read
  cases failure_of_eval_eq_error tree fails with
  | unbound member _ => exact .of_isRange scanned (isRange_of_mem_nodes read member)
  | division divides _ _ => exact .of_isRange scanned (isRange_of_mem_nodes read divides.mem_nodes)

end Expr

/-! ## What is drawn -/

/-- A renderer parts texts into their lines. -/
def Renderer.PartsLines (renderer : Renderer) : Prop :=
  ∀ text, text ≠ [] → Text.Lineation text (renderer.lines text)

/-- Lines are parted on a canvas. -/
theorem Canvas.partsLines (columns : Char → Nat) : (renderer columns).PartsLines :=
  fun text _ => Text.lineation_lines text

namespace Report

/-- A renderer can draw an error under a rule text: there is something to point at, within the text
and the blank after it, and lines to show. -/
structure Drawable (renderer : Renderer) (source : String) (error : RuleError) : Prop where
  /-- The range that is drawn has a byte. -/
  nonempty : error.span.widen.start < error.span.widen.stop
  /-- The range stops at the blank after the text at the latest. -/
  stop_le : error.span.widen.stop ≤ Text.byteWidth source.toList + 1
  /-- The range divides no character. -/
  part : Text.IsPart (padded source) error.span.widen
  /-- What stands before the range is ASCII. -/
  ascii : ∀ char ∈ Text.takeBytes error.span.widen.start (padded source), char.toNat < 128
  /-- The range starts after as many characters as bytes. -/
  chars : charsBefore source error.span.widen.start = error.span.widen.start
  /-- There is a line to show with the first character of the range and one with the last character,
  which does not stand above it. -/
  lines :
    ∃ first last,
      Text.StandsAt (renderer.lines (padded source))
          (charsBefore source error.span.widen.start) first ∧
        Text.StandsAt (renderer.lines (padded source))
          (charsBefore source error.span.widen.stop - 1) last ∧
        first.line ≤ last.line
  /-- The range of an error is widened only when an operand is missing at the end of the text; what
  is drawn is then the blank after the text. -/
  widened :
    error.span.widen ≠ error.span →
      (∃ fragment position,
        error =
          .malformed .missingOperand fragment
            ⟨Text.byteWidth source.toList, Text.byteWidth source.toList⟩ position) ∧
        error.span.widen =
          ⟨Text.byteWidth source.toList, Text.byteWidth source.toList + 1⟩ ∧
        Text.slice (padded source) error.span.widen = [' ']

variable {source : String} {error : RuleError}

/-- A range is widened only if it has no byte. -/
theorem widen_eq_self {span : Span} (nonempty : span.start < span.stop) : span.widen = span := by
  rw [Span.widen, if_neg (Nat.not_le_of_lt nonempty)]

/-- What is drawn under a rule text are some of the characters that are shown, behind characters of
the alphabet. -/
theorem exists_drawn (points : error.PointsInto source.toList) :
    ∃ before covered after,
      padded source = before ++ covered ++ after ∧
        covered ≠ [] ∧
        (∀ char ∈ before, InAlphabet char) ∧
        error.span.widen =
          ⟨Text.byteWidth before, Text.byteWidth before + Text.byteWidth covered⟩ := by
  cases points with
  | @characters _ before covered after split nonempty known placed =>
      refine ⟨before, covered, after ++ [' '], ?_, nonempty, known, ?_⟩
      · rw [padded, split, List.append_assoc]
      · rw [placed, widen_eq_self (Nat.lt_add_of_pos_right (Text.byteWidth_pos nonempty))]
  | finish known =>
      refine ⟨source.toList, [' '], [], (List.append_nil _).symm, List.cons_ne_nil _ _, known, ?_⟩
      rw [RuleError.span, Span.widen, if_pos (Nat.le_refl _)]
      rfl

/-- The range of an error is widened only at the end of a text, to the blank after it. -/
theorem eq_of_widened
    (points : error.PointsInto source.toList)
    (widened : error.span.widen ≠ error.span) :
    (∃ fragment position,
      error =
        .malformed .missingOperand fragment
          ⟨Text.byteWidth source.toList, Text.byteWidth source.toList⟩ position) ∧
      error.span.widen =
        ⟨Text.byteWidth source.toList, Text.byteWidth source.toList + 1⟩ ∧
      Text.slice (padded source) error.span.widen = [' '] := by
  cases points with
  | @characters _ before covered _ _ nonempty _ placed =>
      refine absurd (widen_eq_self ?_) widened
      rw [placed]
      exact Nat.lt_add_of_pos_right (Text.byteWidth_pos nonempty)
  | finish _ =>
      have blank := Text.slice_append source.toList [' '] []
      rw [List.append_nil] at blank
      rw [RuleError.span, Span.widen, if_pos (Nat.le_refl _)]
      exact ⟨⟨_, _, rfl⟩, rfl, blank⟩

/-- A rule text is drawn with a blank, if nothing else. -/
theorem padded_ne_nil (source : String) : padded source ≠ [] :=
  List.append_ne_nil_of_right_ne_nil _ (List.cons_ne_nil _ _)

/-- A renderer that parts lines has a line for each of some characters and a later one. -/
theorem exists_lines
    {renderer : Renderer}
    (parts : renderer.PartsLines)
    {first last : Nat}
    (ordered : first ≤ last)
    (inside : last < (padded source).length) :
    ∃ place lastPlace,
      Text.StandsAt (renderer.lines (padded source)) first place ∧
        Text.StandsAt (renderer.lines (padded source)) last lastPlace ∧
        place.line ≤ lastPlace.line := by
  have lineation := parts _ (padded_ne_nil source)
  rw [← lineation.flatten] at inside
  obtain ⟨place, stands⟩ := Text.exists_standsAt (Nat.lt_of_le_of_lt ordered inside)
  obtain ⟨lastPlace, lastStands⟩ := Text.exists_standsAt inside
  exact ⟨place, lastPlace, stands, lastStands, stands.line_le lastStands ordered⟩

/-- An error that points into a text can be drawn under it. -/
theorem drawable_of_pointsInto
    {renderer : Renderer}
    (parts : renderer.PartsLines)
    (points : error.PointsInto source.toList) :
    Drawable renderer source error := by
  obtain ⟨before, covered, after, split, nonempty, known, placed⟩ := exists_drawn points
  have ascii : ∀ char ∈ before, char.toNat < 128 := fun char member => (known char member).toNat_lt
  have part : Text.IsPart (padded source) error.span.widen :=
    Text.IsRange.isPart ⟨before, covered, after, split, nonempty, placed⟩
  have total : Text.byteWidth (padded source) = Text.byteWidth source.toList + 1 :=
    Text.byteWidth_append ..
  have taken : Text.takeBytes error.span.widen.start (padded source) = before := by
    rw [placed, split, List.append_assoc, Text.takeBytes_append]
  have chars : charsBefore source error.span.widen.start = before.length := by
    rw [charsBefore, taken]
  have charsAll : charsBefore source error.span.widen.stop = before.length + covered.length := by
    rw [charsBefore, placed, split, ← Text.byteWidth_append, Text.takeBytes_append,
      List.length_append]
  have shown : (padded source).length = before.length + covered.length + after.length := by
    rw [split, List.length_append, List.length_append]
  have positive : 0 < covered.length := List.length_pos_iff.mpr nonempty
  exact {
    nonempty := error.span.start_lt_stop_widen
    stop_le := total ▸ part.stops.le_byteWidth
    part := part
    ascii := taken ▸ ascii
    chars := by rw [chars, placed, Text.byteWidth_eq_length ascii]
    lines := exists_lines parts (by omega) (by omega)
    widened := eq_of_widened points }

/-- Every error can be drawn by a renderer that parts texts into their lines, whether a rule text
cannot be read or the rule fails in a context: something of the text or the blank after its end is
pointed at, no character in part and only ASCII before it, there are lines to show, and the blank is
what is pointed at where an operand is missing at the end of the text. -/
theorem drawable_of_failure
    {renderer : Renderer}
    (parts : renderer.PartsLines)
    {vocabulary : Vocabulary}
    {maxDepth : Nat}
    {context : Context}
    (fails :
      Expr.parse vocabulary maxDepth source = .error error ∨
        ∃ tree,
          Expr.parse vocabulary maxDepth source = .ok tree ∧ tree.eval context = .error error) :
    Drawable renderer source error := by
  obtain fails | ⟨tree, read, fails⟩ := fails
  · exact drawable_of_pointsInto parts (Expr.pointsInto_of_parse fails)
  · exact drawable_of_pointsInto parts (Expr.pointsInto_of_eval read fails)

/-- A character of two bytes can be drawn on a canvas, and so can a missing operand behind a line
feed and a divisor. -/
theorem drawable_of_failure_of_each :
    (Expr.parse .standard 1 "A\n< ä" =
          .error (.malformed .unexpectedCharacter "ä" ⟨4, 6⟩ ⟨2, 3⟩) ∧
        Drawable Canvas.plain "A\n< ä" (.malformed .unexpectedCharacter "ä" ⟨4, 6⟩ ⟨2, 3⟩)) ∧
      (Expr.parse .standard 1 "A <\n" = .error (.malformed .missingOperand "" ⟨4, 4⟩ ⟨2, 1⟩) ∧
        Drawable Canvas.plain "A <\n" (.malformed .missingOperand "" ⟨4, 4⟩ ⟨2, 1⟩)) ∧
      ∃ tree,
        Expr.parse .standard 1 "1 / (A - 2)" = .ok tree ∧
          tree.eval (fun _ => some (.number 2)) = .error (.divisionByZero ⟨4, 11⟩) ∧
          Drawable Canvas.plain "1 / (A - 2)" (.divisionByZero ⟨4, 11⟩) := by
  have foreign : Expr.parse .standard 1 "A\n< ä" =
      .error (.malformed .unexpectedCharacter "ä" ⟨4, 6⟩ ⟨2, 3⟩) :=
    eq_error_of_errorOf?_eq_some (by decide +kernel)
  have ended : Expr.parse .standard 1 "A <\n" =
      .error (.malformed .missingOperand "" ⟨4, 4⟩ ⟨2, 1⟩) :=
    eq_error_of_errorOf?_eq_some (by decide +kernel)
  obtain ⟨tree, read⟩ : ∃ tree, Expr.parse .standard 1 "1 / (A - 2)" = .ok tree :=
    exists_ok_of_isSome (by decide +kernel)
  have divided : ((Expr.parse .standard 1 "1 / (A - 2)").toOption.bind fun tree =>
      errorOf? (tree.eval fun _ => some (.number 2))) = some (.divisionByZero ⟨4, 11⟩) := by
    decide +kernel
  rw [read] at divided
  have fails : tree.eval (fun _ => some (.number 2)) = .error (.divisionByZero ⟨4, 11⟩) :=
    eq_error_of_errorOf?_eq_some divided
  have parts : Canvas.plain.PartsLines := Canvas.partsLines _
  -- The context is of no account where the text is not read.
  have unread (source : String) (error : RuleError)
      (fails : Expr.parse .standard 1 source = .error error) : Drawable Canvas.plain source error :=
    @drawable_of_failure _ _ _ parts _ _ (fun _ => none) (.inl fails)
  exact ⟨⟨foreign, unread _ _ foreign⟩, ⟨ended, unread _ _ ended⟩, tree, read, fails,
    drawable_of_failure parts (.inr ⟨tree, read, fails⟩)⟩

end Report
end DecisionRules
