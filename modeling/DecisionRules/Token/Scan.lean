import DecisionRules.Token.Basic

/-!
# Scanning

Scanning cuts a rule text into tokens.  Spaces, tabs and line ends separate tokens, a token is
as long as it can be, and a character that begins no token is an error.
-/

namespace DecisionRules

/-- The characters that may stand between tokens. -/
def isSeparator (char : Char) : Bool :=
  char == ' ' || char == '\t' || char == '\r' || char == '\n'

/-- The character that an operator can have for its second one. -/
def secondOf? (first : Char) : Option Char :=
  if first == '!' || first == '=' || first == '<' || first == '>' then some '='
  else if first == '&' then some '&'
  else if first == '|' then some '|'
  else none

/-- What follows the first character of a token and belongs to it. -/
def lexemeTail (first : Char) (rest : List Char) : List Char :=
  if first.isDigit then rest.takeWhile Char.isDigit
  else if Terminal.beginsWord first then rest.takeWhile Terminal.continuesWord
  else if (secondOf? first).isSome && rest.head? == secondOf? first then rest.take 1
  else []

namespace Tokens

/-- Scans a text that stands at a cursor. -/
def scanAt (cursor : Cursor) (text : List Char) : Except RuleError Tokens :=
  match text with
  | [] => .ok ⟨[], ⟨.finish, "", ⟨cursor.offset, cursor.offset⟩, cursor.position⟩⟩
  | first :: rest =>
    if isSeparator first then scanAt (cursor.step first) rest
    else
      let tail := lexemeTail first rest
      let next := cursor.advance (first :: tail)
      let lexeme := String.ofList (first :: tail)
      match Terminal.ofLexeme? (first :: tail) with
      | none =>
        .error (.malformed .unexpectedCharacter (String.singleton first)
          ⟨cursor.offset, (cursor.step first).offset⟩ cursor.position)
      | some terminal =>
        (scanAt next (rest.drop tail.length)).map
          (cons ⟨terminal, lexeme, ⟨cursor.offset, next.offset⟩, cursor.position⟩)
  termination_by text.length
  decreasing_by
    · simp
    · simp only [List.length_drop, List.length_cons]
      omega

/-- Scans a rule text. -/
def scan (source : String) : Except RuleError Tokens :=
  scanAt .start source.toList

theorem scanAt_nil (cursor : Cursor) :
    scanAt cursor [] =
      .ok ⟨[], ⟨.finish, "", ⟨cursor.offset, cursor.offset⟩, cursor.position⟩⟩ := by
  rw [scanAt]

theorem scanAt_separator
    (cursor : Cursor)
    {first : Char}
    (rest : List Char)
    (separator : isSeparator first = true) :
    scanAt cursor (first :: rest) = scanAt (cursor.step first) rest := by
  rw [scanAt, if_pos separator]

end Tokens
end DecisionRules
