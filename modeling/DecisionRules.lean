import DecisionRules.Text.Span
import DecisionRules.Text.Position
import DecisionRules.Text.Slice
import DecisionRules.Text.Blank
import DecisionRules.Text.LetterCase
import DecisionRules.Text.Lines
import DecisionRules.Decimal.Rank
import DecisionRules.Decimal.Shortest
import DecisionRules.Decimal.Numeral
import DecisionRules.Value
import DecisionRules.Facts
import DecisionRules.Error
import DecisionRules.Vocabulary
import DecisionRules.Reading
import DecisionRules.Token.Basic
import DecisionRules.Token.Scan
import DecisionRules.Operand
import DecisionRules.Expr.Basic
import DecisionRules.Expr.Printer
import DecisionRules.Expr.Evaluation
import DecisionRules.Grammar.Obstacle
import DecisionRules.Grammar.Run
import DecisionRules.Grammar.Production
import DecisionRules.Expr.Parser
import DecisionRules.Rule
import DecisionRules.Json.Basic
import DecisionRules.Json.Reader
import DecisionRules.Settings.Basic
import DecisionRules.Settings.Reader
import DecisionRules.Engine
import DecisionRules.Report
import DecisionRules.Canvas
import DecisionRules.Log
import DecisionRules.Binding
import DecisionRules.Command
import DecisionRules.Main
import DecisionRules.Proofs.Text.LetterCase
import DecisionRules.Proofs.Text.Span
import DecisionRules.Proofs.Text.Position
import DecisionRules.Proofs.Text.Lines
import DecisionRules.Proofs.Decimal.Rounding
import DecisionRules.Proofs.Decimal.Shortest
import DecisionRules.Proofs.Decimal.Bits
import DecisionRules.Proofs.Decimal.Digits
import DecisionRules.Proofs.Decimal.Positional
import DecisionRules.Proofs.Decimal.RoundTrip
import DecisionRules.Proofs.Token.Lexeme
import DecisionRules.Proofs.Token.Tiling
import DecisionRules.Proofs.Token.Alphabet
import DecisionRules.Proofs.Token.ForeignCharacter
import DecisionRules.Proofs.Token.Position
import DecisionRules.Proofs.Token.Lexing
import DecisionRules.Proofs.Token.Words
import DecisionRules.Proofs.Token.MaximalMunch
import DecisionRules.Proofs.Expr.Places
import DecisionRules.Proofs.Expr.Nodes
import DecisionRules.Proofs.Expr.Connective
import DecisionRules.Proofs.Expr.Rearrangement
import DecisionRules.Proofs.Expr.Binarization
import DecisionRules.Proofs.Expr.Relocation
import DecisionRules.Proofs.Expr.Failure
import DecisionRules.Proofs.Grammar.Phrase
import DecisionRules.Proofs.Grammar.Nesting
import DecisionRules.Proofs.Grammar.Extent
import DecisionRules.Proofs.Grammar.Production
import DecisionRules.Proofs.Grammar.Exactness
import DecisionRules.Proofs.Grammar.RuleText
import DecisionRules.Proofs.Grammar.Progress
import DecisionRules.Proofs.Grammar.Meaning
import DecisionRules.Proofs.Grammar.Placement
import DecisionRules.Proofs.Grammar.Resemblance
import DecisionRules.Proofs.Grammar.Standalone
import DecisionRules.Proofs.Grammar.Signs
import DecisionRules.Proofs.Grammar.CanonicalToken
import DecisionRules.Proofs.Grammar.CanonicalText
import DecisionRules.Proofs.Grammar.RoundTrip
import DecisionRules.Proofs.Rule.Composition
import DecisionRules.Proofs.Engine.Fallback
import DecisionRules.Proofs.Engine.DefaultRule
import DecisionRules.Proofs.Engine.StandardRule
import DecisionRules.Proofs.Grammar.Viability
import DecisionRules.Proofs.Grammar.ErrorPlace
import DecisionRules.Proofs.Grammar.NestingLimit
import DecisionRules.Proofs.Grammar.Culprit
import DecisionRules.Proofs.Token.Respacing
import DecisionRules.Proofs.Engine.Respacing
import DecisionRules.Proofs.Expr.Skipping
import DecisionRules.Proofs.Expr.Surplus
import DecisionRules.Proofs.Engine.Relevance
import DecisionRules.Proofs.Engine.TruthAsNumber
import DecisionRules.Proofs.Expr.Height
import DecisionRules.Proofs.Grammar.Shape
import DecisionRules.Proofs.Grammar.Synonym
import DecisionRules.Proofs.Token.Recasing
import DecisionRules.Proofs.Grammar.Recasing
import DecisionRules.Proofs.Token.Exchange
import DecisionRules.Proofs.Grammar.Respelling
import DecisionRules.Proofs.Report.Drawing
import DecisionRules.Proofs.Report.Header
import DecisionRules.Proofs.Checked.Basic
import DecisionRules.Proofs.Checked.Scanner
import DecisionRules.Proofs.Checked.Parser
import DecisionRules.Proofs.Checked.Parsing
import DecisionRules.Proofs.Checked.Journal
import DecisionRules.Proofs.Checked.Discipline
import DecisionRules.Proofs.Facts.Order
import DecisionRules.Proofs.Facts.Overlay
import DecisionRules.Proofs.Binding.Reading
import DecisionRules.Proofs.Binding.Combination
import DecisionRules.Proofs.Binding.RoundTrip
import DecisionRules.Proofs.Command.Result
