/-!
# Byte ranges of a text

A span is the half-open range of UTF-8 bytes that a token, a tree node or an error takes up in
a rule text.
-/

namespace DecisionRules

/-- A half-open range of byte offsets. -/
structure Span where
  /-- The offset of the first byte. -/
  start : Nat
  /-- The offset just after the last byte. -/
  stop : Nat
  deriving DecidableEq

namespace Span

/-- The empty range at the start of a text. -/
def origin : Span := ⟨0, 0⟩

/-- The range moved to the right by a number of bytes. -/
def shift (distance : Nat) (span : Span) : Span :=
  ⟨span.start + distance, span.stop + distance⟩

/-- The range from the start of one span to the end of another. -/
def join (first last : Span) : Span :=
  ⟨first.start, last.stop⟩

/-- The range from the first span of a list to its last one; a list without spans is at the
origin. -/
def joinAll : List Span → Span
  | [] => origin
  | first :: rest => first.join (rest.getLastD first)

/-- An empty range is widened to one byte, so that there is something to point at. -/
def widen (span : Span) : Span :=
  if span.stop ≤ span.start then ⟨span.start, span.start + 1⟩ else span

@[simp] theorem shift_zero (span : Span) : span.shift 0 = span := rfl

theorem shift_shift (first second : Nat) (span : Span) :
    (span.shift first).shift second = span.shift (first + second) := by
  simp [shift, Nat.add_assoc]

@[simp] theorem shift_join (distance : Nat) (first last : Span) :
    (first.join last).shift distance =
      (first.shift distance).join (last.shift distance) := rfl

@[simp] theorem joinAll_nil : joinAll [] = origin := rfl

@[simp] theorem joinAll_singleton (span : Span) : joinAll [span] = span := rfl

theorem start_joinAll_cons (first : Span) (rest : List Span) :
    (joinAll (first :: rest)).start = first.start := rfl

theorem start_lt_stop_widen (span : Span) : span.widen.start < span.widen.stop := by
  unfold widen
  split <;> simp_all

end Span
end DecisionRules
