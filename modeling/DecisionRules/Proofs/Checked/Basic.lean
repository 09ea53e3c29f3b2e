import DecisionRules.Proofs.Token.Position

/-!
# Checked programs

A checked program works on a state, and every operation of it that is not defined everywhere is
checked before it is carried out: a range has to be a part of the text that it is cut out of, an
index has to be that of an element, and a number that is counted down must not be zero.  A breach
is an operation that fails its check.

A program with loops or calls of itself is given a number of steps, which bounds how deep they go,
and is unfinished where the steps do not suffice.  So a program that yields something comes to an
end, and no operation on the way is a breach.
-/

namespace DecisionRules

/-! ## Parts of texts -/

namespace Text

theorem exists_takeBytes_append (count : Nat) (text : List Char) :
    ∃ after, text = takeBytes count text ++ after := by
  induction text generalizing count with
  | nil => exact ⟨[], rfl⟩
  | cons char rest inductionHypothesis =>
      rw [takeBytes]
      split
      · obtain ⟨after, split⟩ := inductionHypothesis (count - char.utf8Size)
        exact ⟨after, congrArg (char :: ·) split⟩
      · exact ⟨char :: rest, rfl⟩

/-- An offset stands between two characters when the characters before it take up all bytes before
it. -/
theorem isPlace_iff (text : List Char) (offset : Nat) :
    IsPlace text offset ↔ byteWidth (takeBytes offset text) = offset := by
  constructor
  · rintro ⟨before, after, rfl, rfl⟩
    rw [takeBytes_append]
  · intro full
    obtain ⟨after, split⟩ := exists_takeBytes_append offset text
    exact ⟨takeBytes offset text, after, split, full.symm⟩

instance (text : List Char) (offset : Nat) : Decidable (IsPlace text offset) :=
  decidable_of_iff _ (isPlace_iff text offset).symm

instance (text : List Char) (span : Span) : Decidable (IsPart text span) :=
  decidable_of_iff
    (IsPlace text span.start ∧ IsPlace text span.stop ∧ span.start ≤ span.stop)
    ⟨fun part => ⟨part.1, part.2.1, part.2.2⟩,
      fun part => ⟨part.starts, part.stops, part.ordered⟩⟩

end Text

/-! ## Programs -/

/-- An operation that cannot be carried out. -/
inductive Breach
  /-- A range is cut out of a text that it is no part of. -/
  | slice (span : Span)
  /-- There is no element of an index. -/
  | lookup (index : Nat)
  /-- Zero is counted down. -/
  | countdown
  /-- An element is removed from a list that has none. -/
  | removal
  deriving DecidableEq

/-- A program that works on a state.  It yields a value, breaks off with a breach or is not
finished. -/
abbrev Checked (State : Type) :=
  StateT State (ExceptT Breach Option)

/-- A program that is started in one state comes to an end without a breach, with a value and in
another state. -/
def Yields (program : Checked State α) (before : State) (value : α) (after : State) : Prop :=
  program before = some (.ok (value, after))

namespace Checked

variable {State : Type}

/-- A program whose steps do not suffice. -/
def unfinished : Checked State α :=
  fun _ => none

/-- A program that breaks off. -/
def breach (reason : Breach) : Checked State α :=
  fun _ => some (.error reason)

/-- The characters of a text in a range, which has to be a part of the text. -/
def slice (text : List Char) (span : Span) : Checked State (List Char) :=
  if Text.IsPart text span then pure (Text.slice text span) else breach (.slice span)

/-- The element of an index, which a list has to have. -/
def lookup (list : List α) (index : Nat) : Checked State α :=
  match list[index]? with
  | some element => pure element
  | none => breach (.lookup index)

/-- The number before a number, which must not be zero. -/
def countdown : Nat → Checked State Nat
  | 0 => breach .countdown
  | number + 1 => pure number

/-- The first element of a list, which has to have one. -/
def removeFirst : List α → Checked State α
  | [] => breach .removal
  | first :: _ => pure first

end Checked

namespace Yields

variable {State : Type} {before middle after : State}

theorem pure (value : α) (state : State) : Yields (pure value) state value state :=
  rfl

/-- A program goes on with the value and the state that its beginning yields. -/
theorem bind
    {program : Checked State α}
    {next : α → Checked State β}
    {value : α}
    {result : β}
    (first : Yields program before value middle)
    (second : Yields (next value) middle result after) :
    Yields (program >>= next) before result after := by
  change Option.bind (program before) _ = _
  rw [first]
  exact second

theorem get (state : State) : Yields (MonadState.get : Checked State State) state state state :=
  rfl

theorem modify {change : State → State} (same : change before = after) :
    Yields (modify change : Checked State Unit) before () after := by
  subst same
  rfl

/-- What a program yields can be put into another form. -/
theorem map
    {program : Checked State α}
    {value : α}
    (yields : Yields program before value after)
    (form : α → β) :
    Yields (form <$> program) before (form value) after := by
  change Option.bind (program before) _ = _
  rw [yields]
  rfl

/-- A program can be run for its value alone. -/
theorem run'
    {program : Checked State α}
    {value : α}
    (yields : Yields program before value after) :
    program.run' before = ExceptT.mk (some (.ok value)) := by
  change Option.bind (program before) _ = _
  rw [yields]
  rfl

/-- A part of a text is cut out of it. -/
theorem slice
    {text : List Char}
    {span : Span}
    (part : Text.IsPart text span)
    (state : State) :
    Yields (Checked.slice text span) state (Text.slice text span) state := by
  rw [Checked.slice, if_pos part]
  exact .pure _ _

/-- An element is found at its index. -/
theorem lookup
    {list : List α}
    {index : Nat}
    {element : α}
    (found : list[index]? = some element)
    (state : State) :
    Yields (Checked.lookup list index) state element state := by
  rw [Checked.lookup, found]
  exact .pure _ _

end Yields
end DecisionRules
