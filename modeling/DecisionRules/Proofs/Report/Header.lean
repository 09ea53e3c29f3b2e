import DecisionRules.Proofs.Report.Drawing

/-!
# The position in a report

The second row of a report names a line and a column.  A renderer counts these over the lines into
which it parts the drawn text, while an error about a malformed text has counted its own when the
text was scanned.  Before the error, the text is written with characters of which only line feeds
and carriage returns end a line, and no line feed stands where the error begins.  So the two agree,
unless the text before the error has a lone carriage return.
-/

namespace DecisionRules

/-- Of the characters that rule texts are written with, only line feeds and carriage returns end a
line of a drawing. -/
theorem InAlphabet.ends_of_endsLine
    {char : Char}
    (known : InAlphabet char)
    (ending : Text.endsLine char = true) :
    char = '\n' ∨ char = '\r' := by
  simp only [Text.endsLine, Bool.or_eq_true, beq_iff_eq] at ending
  obtain (((((rfl | rfl) | rfl) | rfl) | rfl) | rfl) | rfl := ending
  · exact .inl rfl
  · exact absurd known (by decide)
  · exact absurd known (by decide)
  · exact .inr rfl
  · exact absurd known (by decide)
  · exact absurd known (by decide)
  · exact absurd known (by decide)

/-- A text is parted in one way at the first of some mark. -/
theorem Text.append_cons_inj
    {mark : Char}
    {left right before after : List Char}
    (free : mark ∉ left)
    (freeBefore : mark ∉ before)
    (same : left ++ mark :: right = before ++ mark :: after) :
    left = before ∧ right = after := by
  obtain ⟨rfl, _, rfl⟩ := @append_cons_inj_of (· ≠ mark) left right before after mark mark
    (fun _ member => ne_of_mem_of_not_mem member free) (not_not.mpr rfl)
    (fun _ member => ne_of_mem_of_not_mem member freeBefore) (not_not.mpr rfl) same
  exact ⟨rfl, rfl⟩

namespace Report

/-! ## Headers -/

/-- The row of a report that names a position in a text, behind an indentation. -/
def header (name : String) (indent : Nat) (place : Position) : String :=
  String.ofList (List.replicate indent ' ') ++ "╭─[ " ++ name ++ ":" ++ place.line.repr ++ ":" ++
    place.column.repr ++ " ]"

/-- A report names a position in a text in its second row. -/
def Names (name report : String) (place : Position) : Prop :=
  ∃ first indent rest,
    '\n' ∉ first.toList ∧ report = first ++ "\n" ++ header name indent place ++ "\n" ++ rest

theorem start_widen (span : Span) : span.widen.start = span.start := by
  unfold Span.widen
  split <;> rfl

/-- A character that is no digit is not in a number. -/
theorem notMem_toDigits
    {char : Char}
    (noDigit : char.isDigit = false)
    (number : Nat) :
    char ∉ Nat.toDigits 10 number := by
  intro member
  have digit := Nat.isDigit_of_mem_toDigits (by decide) (by decide) member
  rw [noDigit] at digit
  cases digit

/-- The characters of a header with some text after it. -/
theorem toList_header_append (name : String) (indent : Nat) (place : Position) (rest : String) :
    (header name indent place ++ rest).toList =
      List.replicate indent ' ' ++
        '╭' :: (("─[ " ++ name ++ ":").toList ++
          (Nat.toDigits 10 place.line ++
            ':' :: (Nat.toDigits 10 place.column ++ ' ' :: (']' :: rest.toList)))) := by
  have opening : "╭─[ ".toList = '╭' :: "─[ ".toList := by decide
  have colon : ":".toList = [':'] := by decide
  have closing : " ]".toList = [' ', ']'] := by decide
  simp only [header, String.toList_append, String.toList_ofList, Nat.toList_repr, opening, colon,
    closing, List.append_assoc, List.cons_append, List.nil_append]

/-- The position that a header names is known from the header. -/
theorem place_eq_of_header_append
    {name : String}
    {indent other : Nat}
    {place found : Position}
    {rest later : String}
    (same : header name indent place ++ rest = header name other found ++ later) :
    place = found := by
  have characters := congrArg String.toList same
  have indented (count : Nat) : '╭' ∉ List.replicate count ' ' := by
    intro member
    exact absurd (List.eq_of_mem_replicate member) (by decide)
  rw [toList_header_append, toList_header_append] at characters
  obtain ⟨_, named⟩ := Text.append_cons_inj (indented _) (indented _) characters
  obtain ⟨line, onward⟩ := Text.append_cons_inj (notMem_toDigits rfl _) (notMem_toDigits rfl _)
    (List.append_cancel_left named)
  obtain ⟨column, _⟩ := Text.append_cons_inj (notMem_toDigits rfl _) (notMem_toDigits rfl _) onward
  have sameLine := congrArg (Nat.ofDigitChars 10 · 0) line
  have sameColumn := congrArg (Nat.ofDigitChars 10 · 0) column
  simp only [Nat.ofDigitChars_ten_toDigits] at sameLine sameColumn
  obtain ⟨line, column⟩ := place
  obtain ⟨foundLine, foundColumn⟩ := found
  rw [Position.mk.injEq]
  exact ⟨sameLine, sameColumn⟩

/-- A report names no two positions. -/
theorem Names.unique
    {name report : String}
    {place other : Position}
    (names : Names name report place)
    (namesOther : Names name report other) :
    place = other := by
  obtain ⟨first, indent, rest, single, rfl⟩ := names
  obtain ⟨heading, margin, later, singleHeading, same⟩ := namesOther
  have row (text rest : String) :
      (text ++ ("\n" ++ rest)).toList = text.toList ++ '\n' :: rest.toList := by
    rw [String.toList_append, String.toList_append]
    rfl
  simp only [String.append_assoc] at same
  -- Both first rows end at the first line feed, so that the headers begin at the same place.
  have characters := congrArg String.toList same
  rw [row first, row heading] at characters
  obtain ⟨_, onward⟩ := Text.append_cons_inj single singleHeading characters
  exact place_eq_of_header_append (String.toList_inj.mp onward)

/-- A heading is one row. -/
theorem notMem_heading (error : RuleError) : '\n' ∉ error.heading.toList := by
  cases error <;> (rw [RuleError.heading]; decide)

end Report

/-! ## Renderers -/

/-- Without colours, a renderer names the place of the first character that it points at, by the
line and the column at which it stands in the lines of the text.  The heading in the first row must
not have rows itself. -/
def Renderer.NamesPlaces (renderer : Renderer) : Prop :=
  ∀ drawing before covered after place,
    drawing.coloured = false →
      '\n' ∉ drawing.heading.toList →
        covered ≠ [] →
          drawing.place =
              ⟨Text.byteWidth before, Text.byteWidth before + Text.byteWidth covered⟩ →
            Text.StandsAt (renderer.lines (before ++ covered ++ after)) before.length place →
              Report.Names drawing.name (renderer.draw drawing (before ++ covered ++ after)) place

/-- A drawing on a canvas begins at the place of its first character. -/
theorem Canvas.position_eq
    {place : Span}
    {before after : List Char}
    {found : Position}
    (start : place.start = Text.byteWidth before)
    (stands : Text.StandsAt (Text.lines (before ++ after)) before.length found) :
    position (before ++ after) place = found := by
  obtain ⟨earlier, passed, char, rest, later, parts, count, rfl⟩ := stands
  have line := Text.lineFrom_eq 0 0 earlier passed char rest later
  rw [← parts, Nat.zero_add, Nat.zero_add, Nat.zero_add, ← count] at line
  simp only [position, Text.lineOf, start, Text.takeBytes_append, line]
  rw [count, Nat.add_sub_cancel_left]

/-- Places are named on a canvas. -/
theorem Canvas.namesPlaces (columns : Char → Nat) : (renderer columns).NamesPlaces := by
  intro drawing before covered after place _ single _ placed stands
  rw [List.append_assoc] at stands ⊢
  have start : drawing.place.start = Text.byteWidth before := congrArg Span.start placed
  have found := position_eq start stands
  have heading : '\n' ∉ ("Error: " ++ drawing.heading).toList := by
    rw [String.toList_append, List.mem_append]
    exact not_or.mpr ⟨by decide, single⟩
  obtain ⟨indent, others, drawn⟩ :
      ∃ indent others, rows columns drawing (before ++ (covered ++ after)) =
        ("Error: " ++ drawing.heading) :: Report.header drawing.name indent place :: others := by
    rw [← found]
    exact ⟨_, _, rfl⟩
  refine ⟨_, indent, String.join (others.map (· ++ "\n")), heading, ?_⟩
  change draw columns drawing _ = _
  rw [draw, drawn, List.map_cons, List.map_cons, String.join_cons, String.join_cons]
  simp only [String.append_assoc]

namespace Report

/-- A renderer that parts lines has the character behind some text where moving over the text leads
to. -/
theorem standsAt_padded
    {renderer : Renderer}
    (parts : renderer.PartsLines)
    {source : String}
    {before after : List Char}
    (text : source.toList = before ++ after)
    (ends : ∀ char ∈ after.head?, char ≠ '\n') :
    Text.StandsAt (renderer.lines (padded source)) before.length
      (Position.start.drawn before) := by
  obtain ⟨next, rest, follows, noFeed⟩ :
      ∃ next rest, after ++ [' '] = next :: rest ∧ next ≠ '\n' := by
    cases after with
    | nil => exact ⟨' ', [], rfl, by decide⟩
    | cons next after => exact ⟨next, after ++ [' '], rfl, ends next rfl⟩
  have split : padded source = before ++ next :: rest := by
    rw [padded, text, List.append_assoc, follows]
  have lineation := parts _ (padded_ne_nil source)
  rw [lineation.unique (Text.lineation_lines _), split]
  exact Text.standsAt_drawn noFeed before rest

/-- A report names where moving over the text before an error leads to. -/
theorem names_drawn
    {renderer : Renderer}
    (parts : renderer.PartsLines)
    (names : renderer.NamesPlaces)
    {source : String}
    {error : RuleError}
    {before after : List Char}
    (points : error.PointsInto source.toList)
    (text : source.toList = before ++ after)
    (start : error.span.start = Text.byteWidth before)
    (ends : ∀ char ∈ after.head?, char ≠ '\n') :
    Names "rule" (error.report renderer source) (Position.start.drawn before) := by
  obtain ⟨front, covered, behind, split, nonempty, _, placed⟩ := exists_drawn points
  have same : front = before := by
    have width : Text.byteWidth front = Text.byteWidth before := by
      rw [← start, ← start_widen, placed]
    have taken := Text.takeBytes_append front (covered ++ behind)
    rw [← List.append_assoc, ← split, width, padded, text, List.append_assoc,
      Text.takeBytes_append] at taken
    exact taken.symm
  subst same
  have stands := standsAt_padded parts text ends
  rw [split] at stands
  rw [RuleError.report, split]
  exact names (error.drawing false) front covered behind _ rfl (notMem_heading error) nonempty
    placed stands

/-- The report of an error about a malformed text names exactly one position.  It is the line and
column of the error if and only if each carriage return in front of the error has a line feed after
it.  The renderer is one that parts texts into their lines and names places in them. -/
theorem names_position_iff
    {renderer : Renderer}
    (parts : renderer.PartsLines)
    (names : renderer.NamesPlaces)
    {vocabulary : Vocabulary}
    {maxDepth : Nat}
    {source : String}
    {fault : Fault}
    {fragment : String}
    {span : Span}
    {place : Position}
    (fails :
      Expr.parse vocabulary maxDepth source = .error (.malformed fault fragment span place)) :
    (∃! named,
      Names "rule" ((RuleError.malformed fault fragment span place).report renderer source)
        named) ∧
    (Names "rule" ((RuleError.malformed fault fragment span place).report renderer source) place ↔
      ∀ earlier later,
        source.toList = earlier ++ '\r' :: later →
          Text.byteWidth earlier < span.start → later.head? = some '\n') := by
  obtain ⟨before, after, text, start, rfl, known, begins⟩ := (Expr.placed_of_parse fails).reached
  have ends : ∀ char ∈ after.head?, char ≠ '\n' := by
    rintro char follows rfl
    exact begins _ follows (by decide)
  have named := names_drawn parts names (Expr.pointsInto_of_parse fails) text start ends
  refine ⟨⟨_, named, fun other namesOther => namesOther.unique named⟩, ?_⟩
  have agrees : Names "rule"
        ((RuleError.malformed fault fragment span (Position.after before)).report renderer source)
        (Position.after before) ↔
      Position.start.drawn before = Position.after before :=
    ⟨named.unique, fun same => same ▸ named⟩
  change span.start = _ at start
  rw [agrees, text, start,
    Position.drawn_start_eq_iff fun char member => (known char member).ends_of_endsLine,
    Text.loneReturns_eq_zero_iff_of_append ends]

/-- The report of `A <` and a parenthesis in the next line, drawn on a canvas, names the position of
the parenthesis when the line ends with a carriage return and a line feed, and another one when it
ends with a carriage return alone. -/
theorem names_position_iff_of_returns :
    Expr.parse .standard 1 "A <\r\n)" =
        .error (.malformed .expectedOperand ")" ⟨5, 6⟩ ⟨2, 1⟩) ∧
      Names "rule" (draw "A <\r\n)" (.malformed .expectedOperand ")" ⟨5, 6⟩ ⟨2, 1⟩)) ⟨2, 1⟩ ∧
      Expr.parse .standard 1 "A <\r)" =
        .error (.malformed .expectedOperand ")" ⟨4, 5⟩ ⟨1, 5⟩) ∧
      ¬ Names "rule" (draw "A <\r)" (.malformed .expectedOperand ")" ⟨4, 5⟩ ⟨1, 5⟩)) ⟨1, 5⟩ := by
  have paired : Expr.parse .standard 1 "A <\r\n)" =
      .error (.malformed .expectedOperand ")" ⟨5, 6⟩ ⟨2, 1⟩) :=
    eq_error_of_errorOf?_eq_some (by decide +kernel)
  have lone : Expr.parse .standard 1 "A <\r)" =
      .error (.malformed .expectedOperand ")" ⟨4, 5⟩ ⟨1, 5⟩) :=
    eq_error_of_errorOf?_eq_some (by decide +kernel)
  have parts : Canvas.plain.PartsLines := Canvas.partsLines _
  have names : Canvas.plain.NamesPlaces := Canvas.namesPlaces _
  refine ⟨paired, (names_position_iff parts names paired).2.mpr fun earlier later split _ => ?_,
    lone, fun named => ?_⟩
  · exact (Text.loneReturns_eq_zero_iff "A <\r\n)".toList).mp (by decide) earlier later split
  · have follows := (names_position_iff parts names lone).2.mp named ['A', ' ', '<'] [')']
      (by decide) (by decide)
    exact absurd follows (by decide)

end Report
end DecisionRules
