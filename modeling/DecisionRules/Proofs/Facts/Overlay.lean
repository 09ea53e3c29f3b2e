import DecisionRules.Proofs.Facts.Order

/-!
# Facts on top of others

Facts are known by their context: whatever binds each name to the same value is the same facts.  So
the bindings of two lists, one after the other, leave the facts of the second list on top of those
of the first one.
-/

namespace DecisionRules
namespace Facts

/-- An entry of facts answers for its name. -/
theorem context_of_mem
    {facts : Facts}
    {entry : String × Value}
    (member : entry ∈ facts.entries) :
    facts.context entry.1 = some entry.2 := by
  obtain ⟨entries, ordered⟩ := facts
  change entry ∈ entries at member
  change entries.lookup entry.1 = some entry.2
  induction ordered with
  | nil => cases member
  | @cons first rest before _ inductionHypothesis =>
      rw [lookup_cons]
      obtain rfl | later := List.mem_cons.mp member
      · exact if_pos rfl
      · have different : entry.1 ≠ first.1 := fun same =>
          absurd (same ▸ before entry later) (String.lt_irrefl _)
        rw [if_neg different]
        exact inductionHypothesis later

/-- A value that is known is that of an entry. -/
theorem mem_of_context
    {facts : Facts}
    {name : String}
    {value : Value}
    (known : facts.context name = some value) :
    (name, value) ∈ facts.entries := by
  obtain ⟨before, after, split, _⟩ := List.lookup_eq_some_iff.mp known
  rw [split]
  exact List.mem_append_right _ List.mem_cons_self

/-- Facts that bind each name to the same value are the same. -/
theorem eq_of_context_eq {facts others : Facts} (same : facts.context = others.context) :
    facts = others := by
  have subset {first second : Facts} (same : first.context = second.context) :
      first.entries ⊆ second.entries := fun entry member =>
    mem_of_context (same ▸ context_of_mem member)
  have nodup (facts : Facts) : facts.entries.Nodup := .of_map _ facts.nodup_names
  exact eq_of_perm ((List.perm_ext_iff_of_nodup (nodup facts) (nodup others)).mpr fun _ =>
    ⟨@subset _ _ same _, @subset _ _ same.symm _⟩)

/-- Facts with other facts on top, which count where both bind a name. -/
def overlaid (facts others : Facts) : Facts :=
  ofList (facts.entries ++ others.entries)

/-- Bindings are asked from the last one to the first. -/
theorem context_ofList_append (earlier later : List (String × Value)) (name : String) :
    (ofList (earlier ++ later)).context name =
      ((ofList later).context name).or ((ofList earlier).context name) := by
  rw [context_ofList, context_ofList, context_ofList, List.reverse_append, List.lookup_append]

/-- The facts on top answer for the names that they bind, and the facts beneath for all others. -/
theorem context_overlaid (facts others : Facts) (name : String) :
    (facts.overlaid others).context name = (others.context name).or (facts.context name) := by
  rw [overlaid, context_ofList_append, ofList_of_perm (.refl _), ofList_of_perm (.refl _)]

/-- Later bindings leave their facts on top of those that earlier bindings leave. -/
theorem ofList_append (earlier later : List (String × Value)) :
    ofList (earlier ++ later) = (ofList earlier).overlaid (ofList later) :=
  eq_of_context_eq (funext fun name => by rw [context_ofList_append, context_overlaid])

end Facts
end DecisionRules
