import DecisionRules.Binding
import Mathlib.Data.List.Forall2

/-!
# Arguments that state bindings

Arguments are read one after another.  They are read when each of them states a binding, and then
they state these bindings in their order.
-/

namespace DecisionRules
namespace Binding

/-- An argument states a binding. -/
def States (argument : String) (binding : String × Value) : Prop :=
  read argument = .ok binding

/-- Arguments that state bindings are read. -/
theorem readEach_of_states
    {arguments : List String}
    {bindings : List (String × Value)}
    (states : List.Forall₂ States arguments bindings) :
    readEach arguments = .ok bindings := by
  induction states with
  | nil => rfl
  | cons first _ inductionHypothesis =>
      rw [States] at first
      rw [readEach, first, inductionHypothesis]
      rfl

/-- Arguments of which one states no binding are not read. -/
theorem exists_readEach_eq_error
    {arguments : List String}
    {argument : String}
    (member : argument ∈ arguments)
    (stateless : ∀ binding, ¬ States argument binding) :
    ∃ error, readEach arguments = .error error := by
  induction arguments with
  | nil => cases member
  | cons first rest inductionHypothesis =>
      rw [readEach]
      cases found : read first with
      | error error => exact ⟨error, rfl⟩
      | ok binding =>
          obtain rfl | memberRest := List.mem_cons.mp member
          · exact absurd found (stateless binding)
          · obtain ⟨error, fails⟩ := inductionHypothesis memberRest
            exact ⟨error, congrArg (Except.map (binding :: ·)) fails⟩

/-- When each of some arguments states a binding, they state a list of bindings. -/
theorem exists_states
    {arguments : List String}
    (each : ∀ argument ∈ arguments, ∃ binding, States argument binding) :
    ∃ bindings, List.Forall₂ States arguments bindings := by
  induction arguments with
  | nil => exact ⟨[], .nil⟩
  | cons first rest inductionHypothesis =>
      obtain ⟨⟨binding, states⟩, later⟩ := List.forall_mem_cons.mp each
      obtain ⟨bindings, statesLater⟩ := inductionHypothesis later
      exact ⟨binding :: bindings, .cons states statesLater⟩

end Binding
end DecisionRules
