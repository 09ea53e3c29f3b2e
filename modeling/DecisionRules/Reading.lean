/-!
# Readings

A reading is a value that was read from the front of a list, together with what follows it.  It
carries the proof that at least one element was taken, which is why reading again and again
comes to an end.
-/

namespace DecisionRules

/-- A value read from the front of a list. -/
structure Reading (α : Type) (input : List σ) where
  /-- What was read. -/
  value : α
  /-- What follows. -/
  rest : List σ
  /-- At least one element was taken. -/
  shorter : rest.length < input.length

namespace Reading

/-- The same reading with its value put into another form. -/
def map
    {input : List σ}
    (form : α → β)
    (reading : Reading α input) :
    Reading β input :=
  ⟨form reading.value, reading.rest, reading.shorter⟩

/-- A reading of the later part of a list is one of the list. -/
def widen
    {input part : List σ}
    (reading : Reading α part)
    (within : part.length ≤ input.length) :
    Reading α input :=
  ⟨reading.value, reading.rest, Nat.lt_of_lt_of_le reading.shorter within⟩

@[simp] theorem value_map
    {input : List σ}
    (form : α → β)
    (reading : Reading α input) :
    (reading.map form).value = form reading.value := rfl

@[simp] theorem rest_map
    {input : List σ}
    (form : α → β)
    (reading : Reading α input) :
    (reading.map form).rest = reading.rest := rfl

end Reading
end DecisionRules
