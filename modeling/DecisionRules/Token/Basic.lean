import DecisionRules.Error
import DecisionRules.Text.LetterCase

/-!
# Tokens

A rule text is read as a sequence of tokens.  A token is a terminal symbol of the grammar, as
it is spelled at one place of the text.  The spelling of a token determines its symbol, and
`Terminal.ofLexeme?` says how.
-/

namespace DecisionRules

/-- The terminal symbols of the grammar. -/
inductive Terminal
  | leftParen
  | rightParen
  | star
  | slash
  | plus
  | minus
  | less
  | lessEqual
  | greater
  | greaterEqual
  | equal
  | equalEqual
  | bangEqual
  | conjunction
  | disjunction
  | negation
  | number
  | truth
  | falsehood
  | identifier
  /-- The end of the text. -/
  | finish
  deriving DecidableEq

/-- What a terminal symbol is for. -/
inductive Category
  | numberLiteral
  | booleanLiteral
  | identifier
  | operator
  | punctuation
  deriving DecidableEq

namespace Category

/-- The name of a category. -/
def name : Category → String
  | .numberLiteral => "NumberLiteral"
  | .booleanLiteral => "BooleanLiteral"
  | .identifier => "Identifier"
  | .operator => "Operator"
  | .punctuation => "Punctuation"

end Category

namespace Terminal

/-- All terminal symbols. -/
def all : List Terminal :=
  [leftParen, rightParen, star, slash, plus, minus, less, lessEqual, greater, greaterEqual,
    equal, equalEqual, bangEqual, conjunction, disjunction, negation, number, truth, falsehood,
    identifier, finish]

theorem mem_all (terminal : Terminal) : terminal ∈ all := by
  cases terminal <;> decide

/-- The name of a terminal symbol. -/
def name : Terminal → String
  | .leftParen => "LeftParen"
  | .rightParen => "RightParen"
  | .star => "Star"
  | .slash => "Slash"
  | .plus => "Plus"
  | .minus => "Minus"
  | .less => "Less"
  | .lessEqual => "LessEqual"
  | .greater => "Greater"
  | .greaterEqual => "GreaterEqual"
  | .equal => "Equal"
  | .equalEqual => "EqualEqual"
  | .bangEqual => "BangEqual"
  | .conjunction => "And"
  | .disjunction => "Or"
  | .negation => "Not"
  | .number => "Number"
  | .truth => "True"
  | .falsehood => "False"
  | .identifier => "Identifier"
  | .finish => "EOF"

/-- The terminal symbol of a name. -/
def ofName? (name : String) : Option Terminal :=
  all.find? fun terminal => terminal.name == name

/-- What a terminal symbol is for. -/
def category : Terminal → Category
  | .number => .numberLiteral
  | .truth | .falsehood => .booleanLiteral
  | .identifier => .identifier
  | .leftParen | .rightParen | .finish => .punctuation
  | .star | .slash | .plus | .minus | .less | .lessEqual | .greater | .greaterEqual | .equal
  | .equalEqual | .bangEqual | .conjunction | .disjunction | .negation => .operator

/-- The reserved words. -/
def keywords : List (String × Terminal) :=
  [("and", .conjunction), ("or", .disjunction), ("not", .negation), ("true", .truth),
    ("false", .falsehood)]

/-- The terminal symbol of a reserved word, in any letter case. -/
def ofKeyword? (word : String) : Option Terminal :=
  (keywords.find? fun keyword => Text.sameLetters keyword.1 word).map Prod.snd

/-- The spellings of parentheses and operators. -/
def spellings : List (List Char × Terminal) :=
  [(['('], .leftParen), ([')'], .rightParen), (['*'], .star), (['/'], .slash), (['+'], .plus),
    (['-'], .minus), (['<'], .less), (['<', '='], .lessEqual), (['>'], .greater),
    (['>', '='], .greaterEqual), (['='], .equal), (['=', '='], .equalEqual),
    (['!', '='], .bangEqual), (['!'], .negation), (['&'], .conjunction),
    (['&', '&'], .conjunction), (['|'], .disjunction), (['|', '|'], .disjunction)]

/-- A word begins with a letter or an underscore. -/
def beginsWord (char : Char) : Bool :=
  char.isAlpha || char == '_'

/-- A word goes on with letters, digits and underscores. -/
def continuesWord (char : Char) : Bool :=
  char.isAlphanum || char == '_'

/-- The terminal symbol that a lexeme spells: a run of digits is a number, a word is a reserved
word or an identifier, and the rest is listed. -/
def ofLexeme? (lexeme : List Char) : Option Terminal :=
  match lexeme with
  | [] => none
  | first :: rest =>
    if first.isDigit && rest.all Char.isDigit then some .number
    else if beginsWord first && rest.all continuesWord then
      some ((ofKeyword? (String.ofList lexeme)).getD .identifier)
    else (spellings.find? fun spelling => spelling.1 == lexeme).map Prod.snd

end Terminal

/-- A terminal symbol at a place of a rule text. -/
structure Token where
  /-- The symbol. -/
  terminal : Terminal
  /-- How the symbol is spelled. -/
  lexeme : String
  /-- The bytes that it takes up. -/
  span : Span
  /-- The position of its first character. -/
  position : Position
  deriving DecidableEq

namespace Token

/-- A token's symbol and spelling. -/
def text (token : Token) : String :=
  token.terminal.name ++ " " ++ token.lexeme

end Token

/-- The tokens of a text. -/
structure Tokens where
  /-- The tokens before the end of the text. -/
  body : List Token
  /-- The token that stands for the end of the text. -/
  finish : Token
  deriving DecidableEq

namespace Tokens

/-- All tokens, the end of the text included. -/
def toList (tokens : Tokens) : List Token :=
  tokens.body ++ [tokens.finish]

/-- One more token in front. -/
def cons (token : Token) (tokens : Tokens) : Tokens :=
  ⟨token :: tokens.body, tokens.finish⟩

/-- The tokens of a list as far as its first end of a text; what follows is not read. -/
def ofList? : List Token → Option Tokens
  | [] => none
  | token :: rest =>
    if token.terminal = .finish then some ⟨[], token⟩ else (ofList? rest).map (cons token)

/-- The position that the first token at an offset has.  Where no token begins, the text counts
as one line. -/
def positionAt (tokens : Tokens) (offset : Nat) : Position :=
  match tokens.toList.find? fun token => token.span.start == offset with
  | some token => token.position
  | none => ⟨1, offset + 1⟩

end Tokens
end DecisionRules
