import DecisionRules.Error
import DecisionRules.Proofs.Binding.Reading
import DecisionRules.Proofs.Facts.Overlay
import Mathlib.Data.List.Perm.Basic

/-!
# Arguments one after another

The arguments of two lists, one after the other, state the facts of the second list on top of those
of the first one.  They state none as soon as one list states none, and then the error is that of
the first argument that is no binding, whatever follows it.  So the last argument with a name binds
the name, and arguments with different names may stand in any order.
-/

namespace DecisionRules
namespace Binding

/-- The name that an argument has: what stands before the first equals sign, without the blanks
around it. -/
def name? (argument : String) : Option String :=
  (split? argument.toList).map fun parts => String.ofList (Text.trim parts.1)

/-- The last argument that has a name binds it to a value. -/
def LastBinds (arguments : List String) (name : String) (value : Value) : Prop :=
  ∃ before argument after,
    arguments = before ++ argument :: after ∧
      States argument (name, value) ∧
      ∀ later ∈ after, name? later ≠ some name

/-- The first argument that states no binding has an error. -/
def FirstFails (arguments : List String) (error : BindingError) : Prop :=
  ∃ before argument after,
    arguments = before ++ argument :: after ∧
      (∀ earlier ∈ before, ∃ binding, States earlier binding) ∧
      read argument = .error error

/-! ## Names and bindings -/

/-- An argument binds the name that it has. -/
theorem name?_of_states
    {argument : String}
    {binding : String × Value}
    (states : States argument binding) :
    name? argument = some binding.1 := by
  rw [States, read] at states
  rw [name?]
  cases parts : split? argument.toList with
  | none =>
      rw [parts] at states
      cases states
  | some parts =>
      simp only [parts] at states
      split at states
      · cases states
      · split at states
        · cases states
        · cases states
          rfl

theorem map_name?_of_states
    {arguments : List String}
    {bindings : List (String × Value)}
    (states : List.Forall₂ States arguments bindings) :
    arguments.map name? = bindings.map fun binding => some binding.1 := by
  induction states with
  | nil => rfl
  | cons first _ inductionHypothesis =>
      rw [List.map_cons, List.map_cons, name?_of_states first, inductionHypothesis]

/-- Arguments that are read state what is read. -/
theorem states_of_readEach
    {arguments : List String}
    {bindings : List (String × Value)}
    (found : readEach arguments = .ok bindings) :
    List.Forall₂ States arguments bindings := by
  induction arguments generalizing bindings with
  | nil =>
      cases found
      exact .nil
  | cons argument rest inductionHypothesis =>
      rw [readEach] at found
      cases first : read argument with
      | error error =>
          rw [first] at found
          cases found
      | ok binding =>
          rw [first] at found
          obtain ⟨later, foundLater, rfl⟩ := exists_ok_of_map_eq_ok found
          exact .cons first (inductionHypothesis foundLater)

/-- Facts that are read are those that some bindings leave, which the arguments state. -/
theorem exists_states_of_readAll
    {arguments : List String}
    {facts : Facts}
    (found : readAll arguments = .ok facts) :
    ∃ bindings, List.Forall₂ States arguments bindings ∧ Facts.ofList bindings = facts := by
  obtain ⟨bindings, foundEach, left⟩ := exists_ok_of_map_eq_ok found
  exact ⟨bindings, states_of_readEach foundEach, left⟩

/-- Arguments that state bindings are read as the facts that these leave. -/
theorem readAll_of_states
    {arguments : List String}
    {bindings : List (String × Value)}
    (states : List.Forall₂ States arguments bindings) :
    readAll arguments = .ok (Facts.ofList bindings) := by
  rw [readAll, readEach_of_states states]
  rfl

/-! ## Lists of arguments -/

/-- Bindings are read from two lists of arguments in turn, as far as the first error. -/
theorem readEach_append (earlier later : List String) :
    readEach (earlier ++ later) = do
      let bindings ← readEach earlier
      let others ← readEach later
      return bindings ++ others := by
  induction earlier with
  | nil =>
      change readEach later = (readEach later).bind Except.ok
      cases readEach later <;> rfl
  | cons argument rest inductionHypothesis =>
      rw [List.cons_append, readEach, readEach, inductionHypothesis]
      cases read argument with
      | error error => rfl
      | ok binding =>
          cases readEach rest with
          | error error => rfl
          | ok bindings => cases readEach later <;> rfl

/-- The facts of later arguments come on top of those of earlier ones. -/
theorem readAll_append (earlier later : List String) :
    readAll (earlier ++ later) = do
      let facts ← readAll earlier
      let others ← readAll later
      return facts.overlaid others := by
  rw [readAll, readAll, readAll, readEach_append]
  cases readEach earlier with
  | error error => rfl
  | ok bindings =>
      cases readEach later with
      | error error => rfl
      | ok others => exact congrArg Except.ok (Facts.ofList_append bindings others)

/-- An argument that states a binding and is followed by others binds its name, unless one of them
does. -/
theorem lastBinds_concat
    {arguments : List String}
    {last name : String}
    {binding : String × Value}
    {value : Value}
    (states : States last binding) :
    LastBinds (arguments ++ [last]) name value ↔
      if name = binding.1 then binding.2 = value else LastBinds arguments name value := by
  have named := name?_of_states states
  constructor
  · rintro ⟨before, argument, after, split, statesValue, unnamed⟩
    obtain rfl | ⟨between, final, rfl⟩ := after.eq_nil_or_concat
    · obtain ⟨_, same⟩ := List.append_inj' split rfl
      obtain rfl := List.singleton_inj.mp same
      cases Except.ok.inj (states.symm.trans statesValue)
      rw [if_pos rfl]
    · rw [List.concat_eq_append, ← List.cons_append, ← List.append_assoc] at split
      obtain ⟨rfl, same⟩ := List.append_inj' split rfl
      obtain rfl := List.singleton_inj.mp same
      have different : name ≠ binding.1 := fun same =>
        unnamed last (by simp) (named.trans (congrArg some same.symm))
      rw [if_neg different]
      exact ⟨before, argument, between, rfl, statesValue, fun later member =>
        unnamed later (by simp [member])⟩
  · intro binds
    split at binds
    next same =>
      subst same binds
      exact ⟨arguments, last, [], rfl, states, List.forall_mem_nil _⟩
    next different =>
      obtain ⟨before, argument, after, rfl, statesValue, unnamed⟩ := binds
      refine ⟨before, argument, after ++ [last], by simp, statesValue, ?_⟩
      intro later member
      obtain member | member := List.mem_append.mp member
      · exact unnamed later member
      · obtain rfl := List.mem_singleton.mp member
        rw [named]
        exact fun same => different (Option.some.inj same).symm

/-- The facts of two lists of arguments are those of each list. -/
theorem exists_of_readAll_append
    {earlier later : List String}
    {facts : Facts}
    (found : readAll (earlier ++ later) = .ok facts) :
    ∃ beneath above,
      readAll earlier = .ok beneath ∧ readAll later = .ok above ∧ facts = beneath.overlaid above := by
  rw [readAll_append] at found
  cases foundEarlier : readAll earlier with
  | error error =>
      rw [foundEarlier] at found
      cases found
  | ok beneath =>
      cases foundLater : readAll later with
      | error error =>
          rw [foundEarlier, foundLater] at found
          cases found
      | ok above =>
          rw [foundEarlier, foundLater] at found
          exact ⟨beneath, above, rfl, rfl, (Except.ok.inj found).symm⟩

/-- A name has the value to which the last argument with this name binds it. -/
theorem context_eq_some_iff_lastBinds
    {arguments : List String}
    {facts : Facts}
    (found : readAll arguments = .ok facts)
    (name : String)
    (value : Value) :
    facts.context name = some value ↔ LastBinds arguments name value := by
  induction arguments using List.reverseRecOn generalizing facts with
  | nil =>
      cases found
      simp [LastBinds, Facts.ofList]
  | append_singleton arguments last inductionHypothesis =>
      obtain ⟨beneath, above, foundEarlier, foundLast, rfl⟩ := exists_of_readAll_append found
      obtain ⟨bindings, statesLast, rfl⟩ := exists_states_of_readAll foundLast
      obtain ⟨binding, _, states, ⟨⟩, rfl⟩ := List.forall₂_cons_left_iff.mp statesLast
      rw [lastBinds_concat states, Facts.context_overlaid, Facts.context_ofList,
        List.reverse_singleton, Facts.lookup_cons]
      split
      · simp
      · exact inductionHypothesis foundEarlier

/-- Arguments are read exactly when each of them states a binding. -/
theorem exists_readAll_eq_ok_iff (arguments : List String) :
    (∃ facts, readAll arguments = .ok facts) ↔
      ∀ argument ∈ arguments, ∃ binding, States argument binding := by
  constructor
  · rintro ⟨facts, found⟩ argument member
    by_contra stateless
    obtain ⟨error, fails⟩ := exists_readEach_eq_error member (not_exists.mp stateless)
    rw [readAll, fails] at found
    cases found
  · intro each
    obtain ⟨bindings, states⟩ := exists_states each
    exact ⟨_, readAll_of_states states⟩

/-- The error of arguments is that of the first one that states no binding. -/
theorem readAll_eq_error_iff (arguments : List String) (error : BindingError) :
    readAll arguments = .error error ↔ FirstFails arguments error := by
  constructor
  · intro fails
    induction arguments with
    | nil => cases fails
    | cons argument rest inductionHypothesis =>
        rw [readAll, readEach] at fails
        cases first : read argument with
        | error failure =>
            rw [first] at fails
            cases fails
            exact ⟨[], argument, rest, rfl, List.forall_mem_nil _, first⟩
        | ok binding =>
            rw [first] at fails
            have failsLater : readAll rest = .error error :=
              congrArg (Except.map Facts.ofList)
                (eq_error_of_map_eq_error (eq_error_of_map_eq_error fails))
            obtain ⟨before, failing, after, rfl, each, failure⟩ := inductionHypothesis failsLater
            exact ⟨argument :: before, failing, after, rfl,
              List.forall_mem_cons.mpr ⟨⟨binding, first⟩, each⟩, failure⟩
  · rintro ⟨before, argument, after, rfl, each, fails⟩
    obtain ⟨facts, found⟩ := (exists_readAll_eq_ok_iff before).mpr each
    rw [readAll_append, found, readAll, readEach, fails]
    rfl

/-- Arguments with different names state the same facts in any order. -/
theorem readAll_of_perm
    {arguments rearranged : List String}
    {facts : Facts}
    (found : readAll arguments = .ok facts)
    (distinct : (arguments.map name?).Nodup)
    (permuted : arguments.Perm rearranged) :
    readAll rearranged = .ok facts := by
  obtain ⟨bindings, states, rfl⟩ := exists_states_of_readAll found
  obtain ⟨others, statesOthers, same⟩ := List.perm_comp_forall₂ permuted.symm states
  have distinctBound : (bindings.map Prod.fst).Nodup := by
    rw [map_name?_of_states states, ← Function.comp_def some, ← List.map_map] at distinct
    exact distinct.of_map some
  rw [readAll_of_states statesOthers,
    Facts.ofList_of_perm (same.trans (Facts.perm_entries_ofList distinctBound).symm)]

/-- What the arguments of two lists state, one list after the other, and what follows from it.  The
error of the earlier arguments comes first, then that of the later ones; without an error, the later
facts come on top, so that they answer for the names that they bind and the earlier ones for all
others.  Hence arguments are read exactly when each of them states a binding, a name has the value
to which the last argument with this name binds it, the error is that of the first argument that
states no binding, and arguments with different names may be put in any order. -/
theorem readAll_combined (arguments : List String) :
    (∀ later,
      readAll (arguments ++ later) = do
        let facts ← readAll arguments
        let others ← readAll later
        return facts.overlaid others) ∧
    (∀ (facts others : Facts) name,
      (facts.overlaid others).context name = (others.context name).or (facts.context name)) ∧
    ((∃ facts, readAll arguments = .ok facts) ↔
      ∀ argument ∈ arguments, ∃ binding, States argument binding) ∧
    (∀ facts,
      readAll arguments = .ok facts →
        ∀ name value, facts.context name = some value ↔ LastBinds arguments name value) ∧
    (∀ error, readAll arguments = .error error ↔ FirstFails arguments error) ∧
    (∀ facts rearranged,
      readAll arguments = .ok facts →
        (arguments.map name?).Nodup →
          arguments.Perm rearranged → readAll rearranged = .ok facts) :=
  ⟨readAll_append arguments, Facts.context_overlaid, exists_readAll_eq_ok_iff arguments,
    fun _ => context_eq_some_iff_lastBinds, readAll_eq_error_iff arguments,
    fun _ _ => readAll_of_perm⟩

/-- A truth value and a number after a wide blank may change places, and a later number takes the
place of the earlier one that has the same name behind the blank. -/
theorem readAll_combined_of_blanks :
    (∃ facts,
      readAll ["A=TRUE", "\u2003days = 7"] = .ok facts ∧
        (["A=TRUE", "\u2003days = 7"].map name?).Nodup ∧
        readAll ["\u2003days = 7", "A=TRUE"] = .ok facts) ∧
    ∃ facts value,
      readAll ["days=3", "\u2003days = 7"] = .ok facts ∧
        LastBinds ["days=3", "\u2003days = 7"] "days" value ∧
        facts.context "days" = some value := by
  have distinct : (["A=TRUE", "\u2003days = 7"].map name?).Nodup := by decide +kernel
  obtain ⟨facts, read⟩ : ∃ facts, readAll ["A=TRUE", "\u2003days = 7"] = .ok facts :=
    exists_ok_of_isSome (by decide +kernel)
  obtain ⟨merged, readMerged⟩ : ∃ facts, readAll ["days=3", "\u2003days = 7"] = .ok facts :=
    exists_ok_of_isSome (by decide +kernel)
  obtain ⟨_, _, _, _, _, rearranged⟩ := readAll_combined ["A=TRUE", "\u2003days = 7"]
  obtain ⟨_, _, each, lastBinds, _, _⟩ := readAll_combined ["days=3", "\u2003days = 7"]
  refine ⟨⟨facts, read, distinct, rearranged facts _ read distinct (.swap ..)⟩, merged, ?_⟩
  obtain ⟨⟨name, value⟩, states⟩ := each.mp ⟨merged, readMerged⟩ "\u2003days = 7" (by simp)
  obtain rfl : "days" = name := by
    have named : name? "\u2003days = 7" = some "days" := by decide +kernel
    exact Option.some.inj (named.symm.trans (name?_of_states states))
  have binds : LastBinds ["days=3", "\u2003days = 7"] "days" value :=
    ⟨["days=3"], _, [], rfl, states, List.forall_mem_nil _⟩
  exact ⟨value, readMerged, binds, (lastBinds merged readMerged "days" value).mpr binds⟩

end Binding
end DecisionRules
