import DecisionRules.Proofs.Checked.Basic

/-!
# Programs with a journal

What a checked program yields does not tell which states it has passed on the way.  A program with a
journal carries out the operations of a checked program, and before each of them it notes something
about the state in which the operation begins.  The journal is there even when the program breaks
off or is not finished.

A program with a journal is proved to run like the same program without one, together with what
holds of its notes and of its end.  There is one law for each way to put programs together.
-/

namespace DecisionRules

/-- How a program ends: with a value and a state of which something holds, with a range that is cut
out of a text and is no part of it, or unfinished, for which it needs an excuse. -/
inductive Ends (excuse : Prop) (holds : α → State → Prop) :
    Option (Except Breach (α × State)) → Prop
  | value
      {value : α}
      {after : State}
      (reached : holds value after) :
      Ends excuse holds (some (.ok (value, after)))
  | slice (span : Span) : Ends excuse holds (some (.error (.slice span)))
  | unfinished (excused : excuse) : Ends excuse holds none

namespace Ends

variable {State : Type}

/-- A program that yields something ends with it. -/
theorem of_yields
    {excuse : Prop}
    {holds : α → State → Prop}
    {program : Checked State α}
    {start after : State}
    {value : α}
    (yields : Yields program start value after)
    (reached : holds value after) :
    Ends excuse holds (program start) := by
  rw [yields]
  exact .value reached

/-- Where a program has ended with something, the rest of it goes on. -/
theorem bind
    {excuse : Prop}
    {reaches : α → State → Prop}
    {holds : β → State → Prop}
    {program : Checked State α}
    {next : α → Checked State β}
    {start : State}
    (first : Ends excuse reaches (program start))
    (rest : ∀ value middle, reaches value middle → Ends excuse holds (next value middle)) :
    Ends excuse holds ((program >>= next) start) := by
  change Ends excuse holds (Option.bind (program start) _)
  generalize program start = outcome at first
  cases first with
  | value reached => exact rest _ _ reached
  | slice span => exact .slice span
  | unfinished excused => exact .unfinished excused

/-- Where a program has yielded something, the rest of it goes on. -/
theorem after
    {excuse : Prop}
    {holds : β → State → Prop}
    {program : Checked State α}
    {next : α → Checked State β}
    {start middle : State}
    {value : α}
    (first : Yields program start value middle)
    (rest : Ends excuse holds (next value middle)) :
    Ends excuse holds ((program >>= next) start) := by
  change Ends excuse holds (Option.bind (program start) _)
  rw [first]
  exact rest

/-- What a program ends with can be put into another form. -/
theorem map
    {excuse : Prop}
    {reaches : α → State → Prop}
    {holds : β → State → Prop}
    {program : Checked State α}
    {start : State}
    (first : Ends excuse reaches (program start))
    (form : α → β)
    (formed : ∀ value after, reaches value after → holds (form value) after) :
    Ends excuse holds ((form <$> program) start) := by
  change Ends excuse holds (Option.bind (program start) _)
  generalize program start = outcome at first
  cases first with
  | value reached => exact .value (formed _ _ reached)
  | slice span => exact .slice span
  | unfinished excused => exact .unfinished excused

/-- Less may be said of an end, and more excused. -/
theorem imp
    {excuse excuse' : Prop}
    {holds holds' : α → State → Prop}
    {outcome : Option (Except Breach (α × State))}
    (ends : Ends excuse holds outcome)
    (excuses : excuse → excuse')
    (follows : ∀ value after, holds value after → holds' value after) :
    Ends excuse' holds' outcome := by
  cases ends with
  | value reached => exact .value (follows _ _ reached)
  | slice span => exact .slice span
  | unfinished excused => exact .unfinished (excuses excused)

/-- What is said of an end holds of all that is yielded. -/
theorem holds_of_yields
    {excuse : Prop}
    {holds : α → State → Prop}
    {program : Checked State α}
    {start after : State}
    {value : α}
    (ends : Ends excuse holds (program start))
    (yields : Yields program start value after) :
    holds value after := by
  rw [yields] at ends
  cases ends with
  | value reached => exact reached

/-- A program without an excuse yields something or cuts out a range that is no part of a text. -/
theorem yields_or_slice
    {excuse : Prop}
    {holds : α → State → Prop}
    {program : Checked State α}
    {start : State}
    (ends : Ends excuse holds (program start))
    (unexcused : ¬excuse) :
    (∃ value after, Yields program start value after) ∨
      ∃ span, program start = some (.error (.slice span)) := by
  simp only [Yields]
  generalize program start = outcome at ends
  cases ends with
  | value reached => exact .inl ⟨_, _, rfl⟩
  | slice span => exact .inr ⟨span, rfl⟩
  | unfinished excused => exact absurd excused unexcused

end Ends

/-! ## Journals -/

/-- A program that works on a state and keeps a journal.  It comes to what a checked program comes
to, and to the notes that it has made until then. -/
def Journaled (State Note α : Type) :=
  State → Option (Except Breach (α × State)) × List Note

namespace Journaled

variable {State Note : Type}

instance : Monad (Journaled State Note) where
  pure value := fun start => (some (.ok (value, start)), [])
  bind program next := fun start =>
    match program start with
    | (some (.ok (value, middle)), notes) =>
      ((next value middle).1, notes ++ (next value middle).2)
    | (some (.error reason), notes) => (some (.error reason), notes)
    | (none, notes) => (none, notes)

/-- Carries out an operation and notes something about the state in which it begins. -/
def noting {α : Type} (mark : State → Note) (operation : Checked State α) :
    Journaled State Note α :=
  fun start => (operation start, [mark start])

/-- A program whose steps do not suffice. -/
def unfinished {α : Type} : Journaled State Note α :=
  fun _ => (none, [])

/-- The first note of a program is that of its first part. -/
theorem head?_bind
    {α β : Type}
    {program : Journaled State Note α}
    {next : α → Journaled State Note β}
    {start : State}
    {note : Note}
    (begins : (program start).2.head? = some note) :
    ((program >>= next) start).2.head? = some note := by
  simp only [Bind.bind]
  obtain ⟨later, notes⟩ := List.head?_eq_some_iff.mp begins
  rcases came : program start with ⟨_ | ⟨reason⟩ | ⟨value, middle⟩, made⟩
  all_goals
    rw [came] at notes
    obtain rfl : made = note :: later := notes
    rfl

end Journaled

/-- A program with a journal that is started in a state does what a program without one does, and
ends as is said.  All that it notes is good. -/
structure Runs {State Note α : Type}
    (good : Note → Prop)
    (program : Journaled State Note α)
    (plain : Checked State α)
    (start : State)
    (excuse : Prop)
    (holds : α → State → Prop) : Prop where
  /-- The journal makes no difference. -/
  outcome : (program start).1 = plain start
  /-- What is noted is good. -/
  noted : ∀ note ∈ (program start).2, good note
  /-- The program ends as is said. -/
  ends : Ends excuse holds (plain start)

namespace Runs

variable {State Note α β : Type} {good : Note → Prop} {start : State} {excuse : Prop}

theorem pure
    {holds : α → State → Prop}
    {value : α}
    (reached : holds value start) :
    Runs good (pure value : Journaled State Note α) (pure value) start excuse holds :=
  ⟨rfl, List.forall_mem_nil _, .value reached⟩

/-- An operation is noted as its start is. -/
theorem noting
    {holds : α → State → Prop}
    {mark : State → Note}
    {operation : Checked State α}
    (marked : good (mark start))
    (ends : Ends excuse holds (operation start)) :
    Runs good (.noting mark operation) operation start excuse holds :=
  ⟨rfl, List.forall_mem_singleton.mpr marked, ends⟩

theorem unfinished {holds : α → State → Prop} (excused : excuse) :
    Runs good (.unfinished : Journaled State Note α) .unfinished start excuse holds :=
  ⟨rfl, List.forall_mem_nil _, .unfinished excused⟩

/-- Where a program has ended with something, the rest of it runs on. -/
theorem bind
    {reaches : α → State → Prop}
    {holds : β → State → Prop}
    {program : Journaled State Note α}
    {plain : Checked State α}
    {next : α → Journaled State Note β}
    {plainNext : α → Checked State β}
    (first : Runs good program plain start excuse reaches)
    (rest : ∀ value middle,
      reaches value middle → Runs good (next value) (plainNext value) middle excuse holds) :
    Runs good (program >>= next) (plain >>= plainNext) start excuse holds := by
  have ends := first.ends.bind fun value middle reached => (rest value middle reached).ends
  suffices both : ((program >>= next) start).1 = (plain >>= plainNext) start ∧
      ∀ note ∈ ((program >>= next) start).2, good note from
    ⟨both.1, both.2, ends⟩
  have came : program start = (plain start, (program start).2) := Prod.ext first.outcome rfl
  have noted := first.noted
  have reached := first.ends
  generalize (program start).2 = notes at came noted
  change (_ = Option.bind (plain start) _) ∧ _
  simp only [Bind.bind, came]
  generalize plain start = outcome at reached
  cases reached with
  | value reached =>
      have later := rest _ _ reached
      exact ⟨later.outcome, List.forall_mem_append.mpr ⟨noted, later.noted⟩⟩
  | slice span => exact ⟨rfl, noted⟩
  | unfinished excused => exact ⟨rfl, noted⟩

/-- Less may be said of an end, and more excused. -/
theorem imp
    {excuse' : Prop}
    {holds holds' : α → State → Prop}
    {program : Journaled State Note α}
    {plain : Checked State α}
    (runs : Runs good program plain start excuse holds)
    (excuses : excuse → excuse')
    (follows : ∀ value after, holds value after → holds' value after) :
    Runs good program plain start excuse' holds' :=
  ⟨runs.outcome, runs.noted, runs.ends.imp excuses follows⟩

end Runs
end DecisionRules
