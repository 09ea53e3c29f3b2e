import DecisionRules.Proofs.Text.Position
import DecisionRules.Text.Lines
import Mathlib.Data.List.SplitBy

/-!
# Positions in drawings

A drawing counts lines in another way than a position does: more characters end a line, and a
carriage return with the line feed after it ends one line.  There is only one way to part a text
into such lines.  Where a character stands in them can be said by moving over the text before it,
like a cursor.  In a text in which nothing but line feeds and carriage returns ends a line, the two
ways differ by the carriage returns without a line feed, each of which ends a line of the drawing
only.
-/

namespace DecisionRules

namespace Position

/-- The position in a drawing after some more text. -/
def drawn (position : Position) : List Char → Position
  | [] => position
  | '\r' :: '\n' :: rest => drawn ⟨position.line + 1, 1⟩ rest
  | char :: rest =>
    if Text.endsLine char then drawn ⟨position.line + 1, 1⟩ rest
    else drawn ⟨position.line, position.column + 1⟩ rest

end Position

namespace Text

/-- A text put in front of the first line. -/
def appendFirst (text : List Char) (parts : List (List Char)) : List (List Char) :=
  text.foldr consFirst parts

theorem appendFirst_concat (text : List Char) (char : Char) (parts : List (List Char)) :
    appendFirst (text ++ [char]) parts = appendFirst text (consFirst char parts) :=
  List.foldr_append

theorem appendFirst_cons (text line : List Char) (parts : List (List Char)) :
    appendFirst text (line :: parts) = (text ++ line) :: parts := by
  induction text with
  | nil => rfl
  | cons char text inductionHypothesis =>
      rw [appendFirst, List.foldr_cons, ← appendFirst, inductionHypothesis]
      rfl

/-- Unless it is a carriage return with a line feed after it, a character ends a line or not. -/
theorem lines_cons
    {char : Char}
    {rest : List Char}
    (single : ¬ (char = '\r' ∧ rest.head? = some '\n')) :
    lines (char :: rest) =
      if endsLine char then [char] :: lines rest else consFirst char (lines rest) := by
  rw [lines]
  rintro later rfl rfl
  exact single ⟨rfl, rfl⟩

/-- The first line of a text begins with its first character. -/
theorem exists_lines_cons (char : Char) (text : List Char) :
    ∃ line parts, lines (char :: text) = (char :: line) :: parts := by
  by_cases pair : char = '\r' ∧ text.head? = some '\n'
  · obtain ⟨rfl, follows⟩ := pair
    obtain ⟨rest, rfl⟩ := List.head?_eq_some_iff.mp follows
    exact ⟨_, _, rfl⟩
  · rw [lines_cons pair]
    split
    · exact ⟨_, _, rfl⟩
    · cases lines text <;> exact ⟨_, _, rfl⟩

/-! ### The lines of a text -/

/-- A line ends between two characters that follow each other. -/
def endsBetween (char next : Char) : Bool :=
  endsLine char && !(char == '\r' && next == '\n')

/-- A text is parted into its lines.  They make up the text, and one stops and the next one begins
exactly where a line ends between two characters. -/
structure Lineation (text : List Char) (parts : List (List Char)) : Prop where
  /-- The lines make up the text. -/
  flatten : parts.flatten = text
  /-- No line is empty. -/
  filled : [] ∉ parts
  /-- No line ends within a line. -/
  unbroken : ∀ line ∈ parts, line.IsChain fun char next => endsBetween char next = false
  /-- A line ends between the last character of a line and the first one of the next line. -/
  parted :
    parts.IsChain fun line next =>
      ∀ char ∈ line.getLast?, ∀ first ∈ next.head?, endsBetween char first = true

/-- The lines of a text are what it is split into where a line ends. -/
theorem Lineation.splitBy_eq
    {text : List Char}
    {parts : List (List Char)}
    (lineation : Lineation text parts) :
    text.splitBy (fun char next => !endsBetween char next) = parts := by
  rw [← lineation.flatten]
  refine List.splitBy_flatten lineation.filled (fun line member => ?_) ?_
  · exact (lineation.unbroken line member).imp fun char next same => by rw [same, Bool.not_false]
  · refine lineation.parted.imp_of_mem_imp fun {line next} member nextMember ends => ?_
    have filled : line ≠ [] := ne_of_mem_of_not_mem member lineation.filled
    have nextFilled : next ≠ [] := ne_of_mem_of_not_mem nextMember lineation.filled
    refine ⟨filled, nextFilled, ?_⟩
    rw [ends _ (List.getLast_mem_getLast? filled) _ (List.head_mem_head? nextFilled), Bool.not_true]

/-- A text has only one way to be parted into lines. -/
theorem Lineation.unique
    {text : List Char}
    {parts others : List (List Char)}
    (lineation : Lineation text parts)
    (other : Lineation text others) :
    parts = others :=
  lineation.splitBy_eq.symm.trans other.splitBy_eq

/-- A line is put in front of the lines of a text if it ends there. -/
theorem Lineation.cons
    {line text : List Char}
    {parts : List (List Char)}
    (lineation : Lineation text parts)
    (filled : line ≠ [])
    (unbroken : line.IsChain fun char next => endsBetween char next = false)
    (ends : ∀ char ∈ line.getLast?, ∀ first ∈ text.head?, endsBetween char first = true) :
    Lineation (line ++ text) (line :: parts) where
  flatten := by rw [List.flatten_cons, lineation.flatten]
  filled member := by
    obtain empty | later := List.mem_cons.mp member
    · exact filled empty.symm
    · exact lineation.filled later
  unbroken := List.forall_mem_cons.mpr ⟨unbroken, lineation.unbroken⟩
  parted := by
    refine List.isChain_cons.mpr ⟨fun next head char last first begins => ?_, lineation.parted⟩
    obtain ⟨later, rfl⟩ := List.head?_eq_some_iff.mp head
    obtain ⟨rest, rfl⟩ := List.head?_eq_some_iff.mp begins
    exact ends char last first (lineation.flatten ▸ rfl)

/-- A character that ends no line is put in front of the first line of a text. -/
theorem Lineation.consFirst
    {char : Char}
    {text : List Char}
    {parts : List (List Char)}
    (lineation : Lineation text parts)
    (goesOn : endsLine char = false) :
    Lineation (char :: text) (consFirst char parts) := by
  have together (next : Char) : endsBetween char next = false := by
    rw [endsBetween, goesOn, Bool.false_and]
  cases parts with
  | nil =>
      obtain rfl : [] = text := lineation.flatten
      exact ⟨rfl, by simp [Text.consFirst], by simp [Text.consFirst], by simp [Text.consFirst]⟩
  | cons line rest =>
      obtain ⟨filled, restFilled⟩ := not_or.mp (List.mem_cons.not.mp lineation.filled)
      obtain ⟨unbroken, restUnbroken⟩ := List.forall_mem_cons.mp lineation.unbroken
      obtain ⟨parted, restParted⟩ := List.isChain_cons.mp lineation.parted
      refine ⟨?_, ?_, ?_, ?_⟩
      · exact congrArg (char :: ·) lineation.flatten
      · exact List.not_mem_cons_of_ne_of_not_mem (List.cons_ne_nil _ _).symm restFilled
      · exact List.forall_mem_cons.mpr
          ⟨List.isChain_cons.mpr ⟨fun next _ => together next, unbroken⟩, restUnbroken⟩
      · refine List.isChain_cons.mpr ⟨fun next head last ends => ?_, restParted⟩
        rw [List.getLast?_cons_of_ne_nil (Ne.symm filled)] at ends
        exact parted next head last ends

/-- A text is parted into its lines. -/
theorem lineation_lines (text : List Char) : Lineation text (lines text) := by
  fun_induction lines text with
  | case1 => exact ⟨rfl, List.not_mem_nil, List.forall_mem_nil _, .nil⟩
  | case2 rest inductionHypothesis =>
      have pair : ['\r', '\n'].IsChain fun char next => endsBetween char next = false :=
        .cons_cons rfl (.singleton _)
      refine inductionHypothesis.cons (List.cons_ne_nil _ _) pair fun char last first _ => ?_
      obtain rfl : '\n' = char := Option.some.inj last
      have feed : ('\n' == '\r') = false := by decide
      rw [endsBetween, feed, Bool.false_and]
      rfl
  | case3 char rest single ending inductionHypothesis =>
      refine inductionHypothesis.cons (List.cons_ne_nil _ _) (.singleton _)
        fun same last first begins => ?_
      obtain rfl : char = same := Option.some.inj last
      obtain ⟨later, rfl⟩ := List.head?_eq_some_iff.mp begins
      rw [endsBetween, ending, Bool.true_and, Bool.not_eq_true', Bool.and_eq_false_imp]
      intro same
      rw [beq_eq_false_iff_ne]
      rintro rfl
      exact single later (beq_iff_eq.mp same) rfl
  | case4 char rest _ goesOn inductionHypothesis =>
      exact inductionHypothesis.consFirst (Bool.eq_false_iff.mpr goesOn)

/-! ### The places of characters -/

/-- A character with a number stands at a place in some lines: behind so many lines, and behind so
many characters of its own line. -/
def StandsAt (parts : List (List Char)) (index : Nat) (place : Position) : Prop :=
  ∃ earlier before char after later,
    parts = earlier ++ (before ++ char :: after) :: later ∧
      index = earlier.flatten.length + before.length ∧
      place = ⟨earlier.length + 1, before.length + 1⟩

/-- Each character stands somewhere. -/
theorem exists_standsAt
    {parts : List (List Char)}
    {index : Nat}
    (inside : index < parts.flatten.length) :
    ∃ place, StandsAt parts index place := by
  induction parts generalizing index with
  | nil => exact absurd inside (Nat.not_lt_zero index)
  | cons first rest inductionHypothesis =>
      by_cases within : index < first.length
      · refine ⟨_, [], first.take index, first[index], first.drop (index + 1), rest, ?_, ?_, rfl⟩
        · rw [List.nil_append, List.getElem_cons_drop, List.take_append_drop]
        · rw [List.length_take, Nat.min_eq_left (Nat.le_of_lt within)]
          exact (Nat.zero_add index).symm
      · rw [List.flatten_cons, List.length_append] at inside
        obtain ⟨_, earlier, before, char, after, later, rfl, behind, rfl⟩ :=
          @inductionHypothesis (index - first.length) (by omega)
        refine ⟨_, first :: earlier, before, char, after, later, rfl, ?_, rfl⟩
        rw [List.flatten_cons, List.length_append]
        omega

/-- A later character does not stand in an earlier line. -/
theorem StandsAt.line_le
    {parts : List (List Char)}
    {index other : Nat}
    {place otherPlace : Position}
    (stands : StandsAt parts index place)
    (otherStands : StandsAt parts other otherPlace)
    (notBefore : index ≤ other) :
    place.line ≤ otherPlace.line := by
  obtain ⟨earlier, before, char, after, later, rfl, rfl, rfl⟩ := stands
  obtain ⟨front, otherBefore, otherChar, otherAfter, back, same, rfl, rfl⟩ := otherStands
  by_contra above
  have fewer : front.length < earlier.length := by simpa using above
  -- The line of the other character would be one of those above.
  obtain ⟨between, rfl, _⟩ | ⟨between, rfl, follows⟩ := List.append_eq_append_iff.mp same
  · rw [List.length_append] at fewer
    omega
  · cases between with
    | nil =>
        rw [List.append_nil] at fewer
        exact absurd fewer (Nat.lt_irrefl _)
    | cons line between =>
        obtain ⟨rfl, _⟩ := List.cons.inj follows
        simp only [List.flatten_append, List.flatten_cons, List.length_append,
          List.length_cons] at notBefore
        omega

/-- The line that is found for a character is the one in which it stands. -/
theorem lineFrom_eq
    (above start : Nat)
    (earlier : List (List Char))
    (before : List Char)
    (char : Char)
    (after : List Char)
    (later : List (List Char)) :
    lineFrom above start (start + (earlier.flatten.length + before.length))
        (earlier ++ (before ++ char :: after) :: later) =
      ⟨above + earlier.length, start + earlier.flatten.length, before ++ char :: after⟩ := by
  induction earlier generalizing above start with
  | nil =>
      rw [List.nil_append, lineFrom, if_pos]
      · rfl
      · simp only [List.flatten_nil, List.length_nil, List.length_append, List.length_cons]
        omega
  | cons line earlier inductionHypothesis =>
      have behind : start + ((line :: earlier).flatten.length + before.length) =
          start + line.length + (earlier.flatten.length + before.length) := by
        simp only [List.flatten_cons, List.length_append]
        omega
      rw [List.cons_append, lineFrom, behind, if_neg (by omega), inductionHypothesis,
        List.flatten_cons, List.length_append, List.length_cons, Nat.add_assoc start,
        Nat.add_right_comm, Nat.add_assoc above]

/-- What is no pair within a text is none where a text without a line feed follows. -/
theorem not_pair
    {char next : Char}
    {rest after : List Char}
    (ends : next ≠ '\n')
    (single : ∀ later, char = '\r' → rest = '\n' :: later → False) :
    ¬ (char = '\r' ∧ (rest ++ next :: after).head? = some '\n') := by
  rintro ⟨same, follows⟩
  cases rest with
  | nil => exact ends (Option.some.inj follows)
  | cons second rest =>
      obtain rfl := Option.some.inj follows
      exact single rest same rfl

/-- The character after some text stands where moving over the text leads to.  The part of its first
line that has been passed already stands in front of the text. -/
theorem exists_appendFirst_lines
    {next : Char}
    (ends : next ≠ '\n')
    (after : List Char)
    (position : Position)
    (text passed : List Char)
    (column : position.column = passed.length + 1) :
    ∃ earlier before rest later,
      appendFirst passed (lines (text ++ next :: after)) =
          earlier ++ (before ++ next :: rest) :: later ∧
        passed.length + text.length = earlier.flatten.length + before.length ∧
        position.drawn text = ⟨position.line + earlier.length, before.length + 1⟩ := by
  -- What has been passed of a line grows until the line ends; then it is empty in front of the next
  -- line, and the line that has ended is the first of those above.
  fun_induction Position.drawn position text generalizing passed with
  | case1 position =>
      obtain ⟨line, parts, split⟩ := exists_lines_cons next after
      refine ⟨[], passed, line, parts, ?_, ?_, ?_⟩
      · rw [List.nil_append, split, appendFirst_cons, List.nil_append]
      · exact Nat.add_comm ..
      · rw [← column]
        rfl
  | case2 position rest inductionHypothesis =>
      obtain ⟨earlier, before, behind, later, split, count, drawn⟩ := inductionHypothesis [] rfl
      refine ⟨(passed ++ ['\r', '\n']) :: earlier, before, behind, later, ?_, ?_, ?_⟩
      · rw [List.cons_append, List.cons_append, lines, appendFirst_cons, List.cons_append]
        exact congrArg _ split
      · simp only [List.flatten_cons, List.length_append, List.length_cons,
          List.length_nil] at count ⊢
        omega
      · rw [drawn, List.length_cons, Nat.add_right_comm, Nat.add_assoc]
  | case3 position char rest single ending inductionHypothesis =>
      obtain ⟨earlier, before, behind, later, split, count, drawn⟩ := inductionHypothesis [] rfl
      refine ⟨(passed ++ [char]) :: earlier, before, behind, later, ?_, ?_, ?_⟩
      · rw [List.cons_append, lines_cons (not_pair ends single), if_pos ending, appendFirst_cons,
          List.cons_append]
        exact congrArg _ split
      · simp only [List.flatten_cons, List.length_append, List.length_cons,
          List.length_nil] at count ⊢
        omega
      · rw [drawn, List.length_cons, Nat.add_right_comm, Nat.add_assoc]
  | case4 position char rest single goesOn inductionHypothesis =>
      obtain ⟨earlier, before, behind, later, split, count, drawn⟩ :=
        inductionHypothesis (passed ++ [char]) (by rw [column, List.length_append]; rfl)
      refine ⟨earlier, before, behind, later, ?_, ?_, drawn⟩
      · rw [List.cons_append, lines_cons (not_pair ends single), if_neg goesOn,
          ← appendFirst_concat, split]
      · rw [List.length_append, List.length_singleton] at count
        rw [← count, List.length_cons]
        omega

/-- The character after some text stands where moving over the text from its start leads to. -/
theorem standsAt_drawn
    {next : Char}
    (ends : next ≠ '\n')
    (text after : List Char) :
    StandsAt (lines (text ++ next :: after)) text.length (Position.start.drawn text) := by
  obtain ⟨earlier, before, rest, later, split, count, drawn⟩ :=
    exists_appendFirst_lines ends after .start text [] rfl
  rw [List.length_nil, Nat.zero_add] at count
  refine ⟨earlier, before, next, rest, later, split, count, ?_⟩
  rw [drawn, Nat.add_comm earlier.length]
  rfl

/-! ### Lone carriage returns -/

/-- The carriage returns of a text after which no line feed stands. -/
def loneReturns : List Char → Nat
  | [] => 0
  | '\r' :: '\n' :: rest => loneReturns rest
  | char :: rest => (if char = '\r' then 1 else 0) + loneReturns rest

theorem loneReturns_cons
    {char : Char}
    {rest : List Char}
    (single : ∀ later, char = '\r' → rest = '\n' :: later → False) :
    loneReturns (char :: rest) = (if char = '\r' then 1 else 0) + loneReturns rest := by
  rw [loneReturns]
  exact single

/-- A text has no lone carriage return when a line feed follows each carriage return. -/
theorem loneReturns_eq_zero_iff (text : List Char) :
    loneReturns text = 0 ↔
      ∀ earlier later, text = earlier ++ '\r' :: later → later.head? = some '\n' := by
  fun_induction loneReturns text with
  | case1 => simp
  | case2 rest inductionHypothesis =>
      rw [inductionHypothesis]
      constructor
      -- The carriage return is that of the pair, or stands behind it; it is not the line feed.
      · rintro paired (_ | ⟨first, _ | ⟨second, earlier⟩⟩) later split
        · obtain ⟨_, rfl⟩ := List.cons.inj split
          rfl
        · exact absurd (List.cons.inj (List.cons.inj split).2).1 (by decide)
        · exact paired earlier later (List.cons.inj (List.cons.inj split).2).2
      · intro paired earlier later split
        exact paired ('\r' :: '\n' :: earlier) later (by rw [split]; rfl)
  | case3 char rest single inductionHypothesis =>
      rw [Nat.add_eq_zero_iff, inductionHypothesis]
      constructor
      · rintro ⟨other, paired⟩ (_ | ⟨first, earlier⟩) later split
        · obtain ⟨rfl, _⟩ := List.cons.inj split
          cases other
        · exact paired earlier later (List.cons.inj split).2
      · intro paired
        refine ⟨if_neg ?_, fun earlier later split =>
          paired (char :: earlier) later (by rw [split]; rfl)⟩
        rintro rfl
        obtain ⟨later, rfl⟩ := List.head?_eq_some_iff.mp (paired [] rest rfl)
        exact single later rfl rfl

/-- The carriage returns in front of a place have line feeds after them exactly when the text up to
the place has no lone one, unless a line feed stands at the place. -/
theorem loneReturns_eq_zero_iff_of_append
    {before after : List Char}
    (ends : ∀ char ∈ after.head?, char ≠ '\n') :
    loneReturns before = 0 ↔
      ∀ earlier later,
        before ++ after = earlier ++ '\r' :: later →
          byteWidth earlier < byteWidth before → later.head? = some '\n' := by
  rw [loneReturns_eq_zero_iff]
  constructor
  · intro paired earlier later split shorter
    obtain ⟨rest, rfl, _⟩ | ⟨rest, rfl, onward⟩ := List.append_eq_append_iff.mp split
    · rw [byteWidth_append] at shorter
      omega
    · cases rest with
      | nil =>
          rw [List.append_nil] at shorter
          exact absurd shorter (Nat.lt_irrefl _)
      | cons first rest =>
          obtain ⟨rfl, rfl⟩ := List.cons.inj onward
          have follows := paired earlier rest rfl
          obtain ⟨later, rfl⟩ := List.head?_eq_some_iff.mp follows
          rfl
  · intro paired earlier later split
    have shorter : byteWidth earlier < byteWidth before := by
      rw [split, byteWidth_append, byteWidth_cons]
      have positive := Char.utf8Size_pos '\r'
      omega
    have follows := paired earlier (later ++ after) (by rw [split, List.append_assoc]; rfl) shorter
    cases later with
    | nil => exact absurd rfl (ends _ follows)
    | cons next later => exact follows

end Text

namespace Position

section Compare

variable
  {text : List Char}
  (ordinary : ∀ char ∈ text, Text.endsLine char = true → char = '\n' ∨ char = '\r')

include ordinary

/-- Where nothing but line feeds and carriage returns ends a line, a drawing counts one line more
for each lone carriage return. -/
theorem line_drawn (position other : Position) :
    (position.drawn text).line + other.line =
      (other.advance text).line + position.line + Text.loneReturns text := by
  fun_induction drawn position text generalizing other with
  | case1 position =>
      rw [Text.loneReturns, advance_nil]
      omega
  | case2 position rest inductionHypothesis =>
      have later := inductionHypothesis
        (fun char member => ordinary char (List.mem_cons_of_mem _ (List.mem_cons_of_mem _ member)))
        ((other.step '\r').step '\n')
      have feed : ((other.step '\r').step '\n').line = other.line + 1 := rfl
      rw [feed] at later
      dsimp only at later
      rw [Text.loneReturns, advance_cons, advance_cons]
      omega
  | case3 position char rest single ending inductionHypothesis =>
      have later := inductionHypothesis
        (fun char member => ordinary char (List.mem_cons_of_mem _ member)) (other.step char)
      rw [Text.loneReturns_cons single, advance_cons]
      obtain rfl | rfl := ordinary char List.mem_cons_self ending
      · have feed : (other.step '\n').line = other.line + 1 := rfl
        rw [feed] at later
        dsimp only at later
        rw [if_neg (by decide)]
        omega
      · have stays : (other.step '\r').line = other.line := rfl
        rw [stays] at later
        dsimp only at later
        rw [if_pos rfl]
        omega
  | case4 position char rest single goesOn inductionHypothesis =>
      have later := inductionHypothesis
        (fun char member => ordinary char (List.mem_cons_of_mem _ member)) (other.step char)
      have noFeed : char ≠ '\n' := by
        rintro rfl
        exact goesOn rfl
      have noReturn : char ≠ '\r' := by
        rintro rfl
        exact goesOn rfl
      rw [step, if_neg noFeed] at later
      dsimp only at later
      rw [Text.loneReturns_cons single, advance_cons, if_neg noReturn, step, if_neg noFeed]
      omega

/-- Without lone carriage returns, a drawing counts like a position does. -/
theorem drawn_eq_advance (paired : Text.loneReturns text = 0) (position : Position) :
    position.drawn text = position.advance text := by
  fun_induction drawn position text with
  | case1 position => rfl
  | case2 position rest inductionHypothesis =>
      exact inductionHypothesis
        (fun char member => ordinary char (List.mem_cons_of_mem _ (List.mem_cons_of_mem _ member)))
        paired
  | case3 position char rest single ending inductionHypothesis =>
      rw [Text.loneReturns_cons single, Nat.add_eq_zero_iff] at paired
      obtain rfl | rfl := ordinary char List.mem_cons_self ending
      · exact inductionHypothesis
          (fun char member => ordinary char (List.mem_cons_of_mem _ member)) paired.2
      · exact absurd paired.1 (by decide)
  | case4 position char rest single goesOn inductionHypothesis =>
      have noFeed : char ≠ '\n' := by
        rintro rfl
        exact goesOn rfl
      rw [Text.loneReturns_cons single, Nat.add_eq_zero_iff] at paired
      rw [advance_cons, step, if_neg noFeed]
      exact inductionHypothesis
        (fun char member => ordinary char (List.mem_cons_of_mem _ member)) paired.2

/-- A drawing names the position of what follows a text exactly when the text has no lone carriage
return. -/
theorem drawn_start_eq_iff :
    start.drawn text = after text ↔ Text.loneReturns text = 0 := by
  rw [← advance_start]
  constructor
  · intro same
    have lines := line_drawn ordinary start start
    rw [same] at lines
    omega
  · exact fun paired => drawn_eq_advance ordinary paired start

end Compare

end Position
end DecisionRules
