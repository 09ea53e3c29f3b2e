import DecisionRules.Value

/-!
# Facts

Rules are evaluated in a context, which is all that can be asked about names.  Facts are a
finite context: a list of names with their values, in the order of the names and each name
once, so that equal facts are equal lists.
-/

namespace DecisionRules

/-- What is known of each name. -/
abbrev Context := String → Option Value

/-- Entries are ordered when each name comes before all later ones. -/
def Facts.Ordered (entries : List (String × Value)) : Prop :=
  entries.Pairwise fun earlier later => earlier.1 < later.1

/-- Values bound to finitely many names. -/
structure Facts where
  /-- The names with their values. -/
  entries : List (String × Value)
  /-- The names are in order, and each occurs once. -/
  ordered : Facts.Ordered entries

namespace Facts

/-- Binds a name in ordered entries, in place of what it was bound to. -/
def insertEntry (name : String) (value : Value) :
    List (String × Value) → List (String × Value)
  | [] => [(name, value)]
  | entry :: rest =>
    if name < entry.1 then (name, value) :: entry :: rest
    else if name = entry.1 then (name, value) :: rest
    else entry :: insertEntry name value rest

theorem mem_insertEntry
    {name : String}
    {value : Value}
    {entry : String × Value}
    {entries : List (String × Value)}
    (member : entry ∈ insertEntry name value entries) :
    entry = (name, value) ∨ entry ∈ entries := by
  induction entries with
  | nil => simpa [insertEntry] using member
  | cons head rest ih =>
      simp only [insertEntry] at member
      split at member
      · simpa using member
      · split at member
        · simp only [List.mem_cons] at member ⊢
          exact member.imp_right .inr
        · simp only [List.mem_cons] at member ⊢
          obtain same | later := member
          · exact .inr (.inl same)
          · exact (ih later).imp_right .inr

theorem ordered_insertEntry
    (name : String)
    (value : Value)
    {entries : List (String × Value)}
    (ordered : Ordered entries) :
    Ordered (insertEntry name value entries) := by
  induction entries with
  | nil => exact List.pairwise_singleton ..
  | cons head rest ih =>
      obtain ⟨first, remaining⟩ := List.pairwise_cons.mp ordered
      simp only [insertEntry]
      split
      next before =>
        refine List.pairwise_cons.mpr ⟨?_, ordered⟩
        intro entry member
        obtain rfl | later := List.mem_cons.mp member
        · exact before
        · exact String.lt_trans before (first entry later)
      next notBefore =>
        split
        next same =>
          subst same
          exact List.pairwise_cons.mpr ⟨first, remaining⟩
        next different =>
          refine List.pairwise_cons.mpr ⟨?_, ih remaining⟩
          intro entry member
          obtain rfl | later := mem_insertEntry member
          · exact Std.lt_of_le_of_ne (String.not_lt.mp notBefore) (Ne.symm different)
          · exact first entry later

/-- Nothing is known. -/
def empty : Facts := ⟨[], List.Pairwise.nil⟩

/-- The facts with a name bound to a value, in place of what it was bound to. -/
def insert (facts : Facts) (name : String) (value : Value) : Facts :=
  ⟨insertEntry name value facts.entries, ordered_insertEntry name value facts.ordered⟩

/-- The facts that a list of bindings leaves, where the last binding of a name counts. -/
def ofList (bindings : List (String × Value)) : Facts :=
  bindings.foldl (fun facts binding => facts.insert binding.1 binding.2) empty

/-- The context in which these facts hold and nothing else is known. -/
def context (facts : Facts) : Context :=
  fun name => facts.entries.lookup name

@[simp] theorem context_empty (name : String) : empty.context name = none := rfl

/-- The first entry answers for its name, and the later ones for all other names. -/
theorem lookup_cons
    (query : String)
    (entry : String × Value)
    (rest : List (String × Value)) :
    (entry :: rest).lookup query =
      if query = entry.1 then some entry.2 else rest.lookup query := by
  rw [List.lookup_cons]
  by_cases same : query = entry.1
  · rw [beq_iff_eq.mpr same, if_pos same]
  · rw [beq_eq_false_iff_ne.mpr same, if_neg same]

theorem lookup_insertEntry
    (name query : String)
    (value : Value)
    (entries : List (String × Value)) :
    (insertEntry name value entries).lookup query =
      if query = name then some value else entries.lookup query := by
  induction entries with
  | nil => simp [insertEntry, lookup_cons]
  | cons head rest ih =>
      simp only [insertEntry]
      split
      · simp [lookup_cons]
      · split
        next equal => simp only [lookup_cons, equal]; split <;> rfl
        next different =>
          simp only [lookup_cons, ih]
          by_cases same : query = name
          · subst same
            simp [different]
          · simp [same]

/-- An inserted binding answers for its name, and the others answer as before. -/
theorem context_insert
    (facts : Facts)
    (name query : String)
    (value : Value) :
    (facts.insert name value).context query =
      if query = name then some value else facts.context query :=
  lookup_insertEntry name query value facts.entries

end Facts
end DecisionRules
