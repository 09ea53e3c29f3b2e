import DecisionRules.Proofs.Token.Lexeme
import DecisionRules.Vocabulary

/-!
# Words with the same letters

Two texts with the same letters are both words or both not, stand for the same reserved word and
for the same variable of a vocabulary.  Since the vocabulary's own spelling of a word has the same
letters, it is a word as well, is not reserved if the word is not, and stands for itself.
-/

namespace DecisionRules

/-! ## Letter case of words -/

namespace Terminal

/-- The letter case does not decide whether a character begins a word. -/
theorem beginsWord_toLower (char : Char) : beginsWord char.toLower = beginsWord char := by
  have letters (letter : Char) (isAlpha : letter.isAlpha = true) : beginsWord letter = true := by
    rw [beginsWord, isAlpha, Bool.true_or]
  exact apply_toLower letters char

/-- The letter case does not decide whether a character belongs to a word. -/
theorem continuesWord_toLower (char : Char) : continuesWord char.toLower = continuesWord char := by
  have letters (letter : Char) (isAlpha : letter.isAlpha = true) : continuesWord letter = true := by
    rw [continuesWord, Char.isAlphanum, isAlpha, Bool.true_or, Bool.true_or]
  exact apply_toLower letters char

end Terminal

/-! ## Words with the same letters -/

section SameLetters

variable {left right : String} (same : Text.sameLetters left right = true)

include same

/-- What has the letters of a word is a word. -/
theorem isWord_of_sameLetters (word : Terminal.IsWord right.toList) :
    Terminal.IsWord left.toList := by
  rw [Text.sameLetters_iff] at same
  obtain ⟨first, rest, spelled, begins, continues⟩ := word
  rw [spelled, List.map_cons] at same
  obtain ⟨firstLeft, restLeft, spelledLeft, sameFirst, sameRest⟩ := List.map_eq_cons_iff.mp same
  refine ⟨firstLeft, restLeft, spelledLeft, ?_, ?_⟩
  · rw [← Terminal.beginsWord_toLower, sameFirst, Terminal.beginsWord_toLower]
    exact begins
  · intro char member
    have lower : char.toLower ∈ rest.map Char.toLower := sameRest ▸ List.mem_map_of_mem member
    obtain ⟨other, otherMember, sameChar⟩ := List.mem_map.mp lower
    rw [← Terminal.continuesWord_toLower, ← sameChar, Terminal.continuesWord_toLower]
    exact continues other otherMember

/-- What has the same letters has the same letters as any other text. -/
theorem sameLetters_congr (other : String) :
    Text.sameLetters other left = Text.sameLetters other right := by
  rw [Text.sameLetters_iff] at same
  rw [Text.sameLetters, same, Text.sameLetters]

/-- What has the letters of a reserved word is that reserved word. -/
theorem ofKeyword?_congr : Terminal.ofKeyword? left = Terminal.ofKeyword? right := by
  rw [Terminal.ofKeyword?, Terminal.ofKeyword?]
  simp only [sameLetters_congr same]

/-- What has the same letters has the same spelling in a vocabulary. -/
theorem canonical?_congr (vocabulary : Vocabulary) :
    vocabulary.canonical? left = vocabulary.canonical? right := by
  rw [Vocabulary.canonical?, Vocabulary.canonical?]
  simp only [sameLetters_congr same]

end SameLetters

namespace Vocabulary

/-- The variable of a word has the letters of the word and stands for itself. -/
theorem resolve?_spec
    {vocabulary : Vocabulary}
    {word name : String}
    (resolved : vocabulary.resolve? word = some name) :
    Text.sameLetters name word = true ∧ vocabulary.resolve? name = some name := by
  rw [resolve?] at resolved
  split at resolved
  next spelling canonical =>
    obtain rfl := Option.some.inj resolved
    have same : Text.sameLetters spelling word = true :=
      List.find?_some (p := fun name => Text.sameLetters name word) canonical
    refine ⟨same, ?_⟩
    rw [resolve?, canonical?_congr same, canonical]
  next unknown =>
    split at resolved
    next letter =>
      obtain rfl := Option.some.inj resolved
      refine ⟨Text.sameLetters_refl word, ?_⟩
      rw [resolve?, unknown]
      exact if_pos letter
    next => cases resolved

end Vocabulary
end DecisionRules
