/-!
# Letter case

Words are compared without regard to the case of their ASCII letters; any other character
stands for itself.
-/

namespace DecisionRules
namespace Text

/-- Two words have the same letters when they differ at most in the case of ASCII letters. -/
def sameLetters (left right : String) : Bool :=
  left.toList.map Char.toLower == right.toList.map Char.toLower

theorem sameLetters_iff (left right : String) :
    sameLetters left right = true ↔
      left.toList.map Char.toLower = right.toList.map Char.toLower := by
  simp [sameLetters]

theorem sameLetters_refl (word : String) : sameLetters word word = true := by
  simp [sameLetters]

theorem sameLetters_comm (left right : String) :
    sameLetters left right = sameLetters right left := by
  rw [Bool.eq_iff_iff, sameLetters_iff, sameLetters_iff]
  exact eq_comm

end Text
end DecisionRules
