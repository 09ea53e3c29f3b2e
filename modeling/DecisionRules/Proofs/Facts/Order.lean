import DecisionRules.Facts
import Mathlib.Data.List.Induction
import Mathlib.Data.List.Nodup

/-!
# Facts and the order of bindings

Facts keep their entries in the order of the names, whatever order the bindings had that they were
made from.  The last binding of a name counts; where each name is bound once, the order has no
influence, and the facts have the bindings for their entries.
-/

namespace DecisionRules
namespace Facts

/-- The last binding is inserted last. -/
theorem ofList_concat (bindings : List (String × Value)) (binding : String × Value) :
    ofList (bindings ++ [binding]) = (ofList bindings).insert binding.1 binding.2 :=
  List.foldl_append

/-- The last binding of a name counts. -/
theorem context_ofList (bindings : List (String × Value)) (name : String) :
    (ofList bindings).context name = bindings.reverse.lookup name := by
  induction bindings using List.reverseRecOn with
  | nil => rfl
  | append_singleton bindings binding inductionHypothesis =>
      rw [ofList_concat, context_insert, inductionHypothesis, List.reverse_append,
        List.reverse_singleton, List.singleton_append, lookup_cons]

/-- No name occurs twice in facts. -/
theorem nodup_names (facts : Facts) : (facts.entries.map Prod.fst).Nodup := by
  rw [List.Nodup, List.pairwise_map]
  refine facts.ordered.imp fun before same => ?_
  rw [same] at before
  exact String.lt_irrefl _ before

/-- Facts with the same entries are the same. -/
theorem eq_of_perm
    {facts others : Facts}
    (rearranged : facts.entries.Perm others.entries) :
    facts = others := by
  obtain ⟨entries, ordered⟩ := facts
  obtain ⟨otherEntries, otherOrdered⟩ := others
  have antisymmetric : ∀ first second : String × Value,
      first ∈ entries → second ∈ otherEntries →
        first.1 < second.1 → second.1 < first.1 → first = second :=
    fun _ _ _ _ before after => absurd (String.lt_trans before after) (String.lt_irrefl _)
  obtain rfl := rearranged.eq_of_pairwise antisymmetric ordered otherOrdered
  rfl

/-- A new name is added to the entries. -/
theorem perm_insertEntry
    {name : String}
    {value : Value}
    {entries : List (String × Value)}
    (new : name ∉ entries.map Prod.fst) :
    (insertEntry name value entries).Perm ((name, value) :: entries) := by
  induction entries with
  | nil => exact .refl _
  | cons entry rest inductionHypothesis =>
      rw [List.map_cons, List.mem_cons, not_or] at new
      rw [insertEntry, if_neg new.1]
      split
      · exact .refl _
      · exact ((inductionHypothesis new.2).cons entry).trans (.swap ..)

/-- Facts have the bindings for their entries where each name is bound once. -/
theorem perm_entries_ofList
    {bindings : List (String × Value)}
    (distinct : (bindings.map Prod.fst).Nodup) :
    (ofList bindings).entries.Perm bindings := by
  induction bindings using List.reverseRecOn with
  | nil => exact .refl _
  | append_singleton bindings binding inductionHypothesis =>
      rw [List.map_append, List.nodup_append] at distinct
      obtain ⟨distinctEarlier, _, apart⟩ := distinct
      have earlier := inductionHypothesis distinctEarlier
      have new : binding.1 ∉ (ofList bindings).entries.map Prod.fst := by
        rw [(earlier.map Prod.fst).mem_iff]
        exact fun member => apart _ member _ (List.mem_singleton_self _) rfl
      rw [ofList_concat]
      exact (perm_insertEntry new).trans ((earlier.cons binding).trans
        (List.perm_append_singleton binding bindings).symm)

/-- Bindings that are the entries of facts in any order state these facts. -/
theorem ofList_of_perm
    {facts : Facts}
    {bindings : List (String × Value)}
    (rearranged : bindings.Perm facts.entries) :
    ofList bindings = facts := by
  have distinct := (rearranged.map Prod.fst).nodup_iff.mpr facts.nodup_names
  exact eq_of_perm ((perm_entries_ofList distinct).trans rearranged)

end Facts
end DecisionRules
