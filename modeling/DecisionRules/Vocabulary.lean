import DecisionRules.Text.LetterCase

/-!
# Vocabularies

A vocabulary lists the variables that rules may name, in any letter case.  A single ASCII
letter is a variable beside them.
-/

namespace DecisionRules

/-- The names of the variables of a rule, in the spelling that facts use. -/
structure Vocabulary where
  /-- The names, of which an earlier one goes before a later one with the same letters. -/
  names : List String
  deriving DecidableEq

namespace Vocabulary

/-- The variables that rules know of when nothing else is said. -/
def standard : Vocabulary :=
  ⟨["followers_count", "following_count", "tweet_count", "days", "favourites_count",
    "media_count"]⟩

/-- The vocabulary's own spelling of a word. -/
def canonical? (vocabulary : Vocabulary) (word : String) : Option String :=
  vocabulary.names.find? fun name => Text.sameLetters name word

/-- A word that is one ASCII letter. -/
def isSingleLetter (word : String) : Bool :=
  match word.toList with
  | [char] => char.isAlpha
  | _ => false

/-- The variable that a word of a rule stands for. -/
def resolve? (vocabulary : Vocabulary) (word : String) : Option String :=
  match vocabulary.canonical? word with
  | some name => some name
  | none => if isSingleLetter word then some word else none

end Vocabulary
end DecisionRules
