import DecisionRules.Text.Span

/-!
# Ranges of lists of spans

The range of a list of spans starts with its first member and stops with its last one, so that
ranges of neighbouring parts of a list join to the range of the whole.  Where the members stand
one after another, each of them lies within the range of the list.
-/

namespace DecisionRules
namespace Span

/-- Where the last span of a list stops; a list without spans stops where it is said to. -/
def lastStop (stop : Nat) (spans : List Span) : Nat :=
  spans.foldl (fun _ span => span.stop) stop

@[simp] theorem lastStop_nil (stop : Nat) : lastStop stop [] = stop := rfl

@[simp] theorem lastStop_cons (stop : Nat) (first : Span) (rest : List Span) :
    lastStop stop (first :: rest) = lastStop first.stop rest := rfl

theorem lastStop_append (stop : Nat) (left right : List Span) :
    lastStop stop (left ++ right) = lastStop (lastStop stop left) right :=
  List.foldl_append

/-- The range of a list starts with its first member and stops with its last one. -/
theorem joinAll_cons (first : Span) (rest : List Span) :
    joinAll (first :: rest) = ⟨first.start, lastStop first.stop rest⟩ := by
  have stops (span : Span) : (rest.getLastD span).stop = lastStop span.stop rest := by
    induction rest generalizing span with
    | nil => rfl
    | cons second rest inductionHypothesis =>
        rw [List.getLastD_cons, lastStop_cons, inductionHypothesis]
  rw [joinAll, join, stops]

theorem stop_joinAll {spans : List Span} (nonempty : spans ≠ []) (stop : Nat) :
    (joinAll spans).stop = lastStop stop spans := by
  obtain ⟨first, rest, rfl⟩ := List.exists_cons_of_ne_nil nonempty
  rw [joinAll_cons, lastStop_cons]

/-- The range of a list goes on with the list. -/
theorem joinAll_append
    {left : List Span}
    (nonempty : left ≠ [])
    (right : List Span) :
    joinAll (left ++ right) = ⟨(joinAll left).start, lastStop (joinAll left).stop right⟩ := by
  obtain ⟨first, rest, rfl⟩ := List.exists_cons_of_ne_nil nonempty
  rw [List.cons_append, joinAll_cons, joinAll_cons, lastStop_append]

/-- The range of a list extends from its first member to the end of the remaining list. -/
theorem joinAll_cons_cons (first second : Span) (rest : List Span) :
    joinAll (first :: second :: rest) = first.join (joinAll (second :: rest)) := by
  rw [joinAll_cons, joinAll_cons, lastStop_cons, join]

/-- The range of a list begins with the range of its first two members. -/
theorem joinAll_join (first second : Span) (rest : List Span) :
    joinAll (first.join second :: rest) = joinAll (first :: second :: rest) := by
  rw [joinAll_cons, joinAll_cons, lastStop_cons, join]

/-- The range of a list stops where one of its members does. -/
theorem exists_stop_joinAll {spans : List Span} (nonempty : spans ≠ []) :
    ∃ last ∈ spans, (joinAll spans).stop = last.stop := by
  obtain ⟨first, rest, rfl⟩ := List.exists_cons_of_ne_nil nonempty
  exact ⟨rest.getLastD first, List.getLastD_mem_cons .., rfl⟩

/-! ## Changes of places -/

/-- A change of places that takes a join to the join of what its parts are taken to. -/
def Respects (change : Span → Span) : Prop :=
  ∀ first last : Span, change (first.join last) = (change first).join (change last)

theorem respects_id : Respects id :=
  fun _ _ => rfl

theorem respects_origin : Respects fun _ => origin :=
  fun _ _ => rfl

theorem respects_shift (distance : Nat) : Respects (shift distance) :=
  fun _ _ => rfl

/-- The range of changed spans is the changed range. -/
theorem Respects.joinAll_map
    {change : Span → Span}
    (respects : Respects change)
    {spans : List Span}
    (nonempty : spans ≠ []) :
    joinAll (spans.map change) = change (joinAll spans) := by
  obtain ⟨first, rest, rfl⟩ := List.exists_cons_of_ne_nil nonempty
  rw [List.map_cons, joinAll, joinAll, respects, List.getLastD_map]

/-! ## Spans one after another -/

/-- Spans of at least one byte each that stand one after another. -/
structure Ordered (spans : List Span) : Prop where
  /-- Each span has a byte. -/
  nonempty : ∀ span ∈ spans, span.start < span.stop
  /-- No span starts before an earlier one has stopped. -/
  pairwise : spans.Pairwise fun earlier later => earlier.stop ≤ later.start

namespace Ordered

variable {first : Span} {rest spans : List Span}

theorem nil : Ordered [] :=
  ⟨by simp, .nil⟩

theorem tail (ordered : Ordered (first :: rest)) : Ordered rest :=
  ⟨(List.forall_mem_cons.mp ordered.nonempty).2, (List.pairwise_cons.mp ordered.pairwise).2⟩

theorem sublist {part : List Span} (ordered : Ordered spans) (within : part.Sublist spans) :
    Ordered part :=
  ⟨fun span member => ordered.nonempty span (within.subset member),
    ordered.pairwise.sublist within⟩

/-- No span stops after the range of the list. -/
theorem stop_le (ordered : Ordered spans) : ∀ span ∈ spans, span.stop ≤ (joinAll spans).stop := by
  induction spans with
  | nil => simp
  | cons first rest inductionHypothesis =>
      cases rest with
      | nil => simp
      | cons second rest =>
          have later := inductionHypothesis ordered.tail
          rw [joinAll_cons_cons, List.forall_mem_cons]
          refine ⟨?_, later⟩
          have next := (List.pairwise_cons.mp ordered.pairwise).1 second List.mem_cons_self
          have nonempty := ordered.tail.nonempty second List.mem_cons_self
          have last := later second List.mem_cons_self
          change first.stop ≤ (joinAll (second :: rest)).stop
          omega

/-- No span starts before the range of the list. -/
theorem start_le (ordered : Ordered spans) :
    ∀ span ∈ spans, (joinAll spans).start ≤ span.start := by
  cases spans with
  | nil => simp
  | cons first rest =>
      rw [start_joinAll_cons, List.forall_mem_cons]
      refine ⟨Nat.le_refl _, ?_⟩
      intro span member
      have nonempty := ordered.nonempty first List.mem_cons_self
      have next := (List.pairwise_cons.mp ordered.pairwise).1 span member
      omega

/-- The ranges of parts of a list, one after another, stand one after another. -/
theorem map_joinAll
    {parts : List (List Span)}
    (ordered : Ordered parts.flatten)
    (nonempty : ∀ part ∈ parts, part ≠ []) :
    Ordered (parts.map joinAll) := by
  have orderedPart : ∀ part ∈ parts, Ordered part :=
    fun part member => ordered.sublist (List.sublist_flatten_of_mem member)
  constructor
  · rw [List.forall_mem_map]
    intro part member
    obtain ⟨first, rest, rfl⟩ := List.exists_cons_of_ne_nil (nonempty part member)
    have start := (orderedPart _ member).nonempty first List.mem_cons_self
    have stop := (orderedPart _ member).stop_le first List.mem_cons_self
    rw [start_joinAll_cons]
    omega
  · rw [List.pairwise_map]
    refine (List.pairwise_flatten.mp ordered.pairwise).2.imp_of_mem ?_
    intro earlier later memberEarlier memberLater apart
    obtain ⟨last, memberLast, stop⟩ := exists_stop_joinAll (nonempty earlier memberEarlier)
    obtain ⟨first, rest, rfl⟩ := List.exists_cons_of_ne_nil (nonempty later memberLater)
    rw [stop, start_joinAll_cons]
    exact apart last memberLast first List.mem_cons_self

end Ordered

end Span
end DecisionRules
