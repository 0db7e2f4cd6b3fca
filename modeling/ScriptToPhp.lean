import ScriptToPhp.Command.Arguments
import ScriptToPhp.Command.Files
import ScriptToPhp.Command.Help
import ScriptToPhp.Command.Host
import ScriptToPhp.Command.Run
import ScriptToPhp.Config.Basic
import ScriptToPhp.Config.Json
import ScriptToPhp.Diagnostic.Basic
import ScriptToPhp.Diagnostic.Message
import ScriptToPhp.Grammar.Event
import ScriptToPhp.Grammar.Expression
import ScriptToPhp.Grammar.Parse
import ScriptToPhp.Grammar.Script
import ScriptToPhp.Grammar.Statement
import ScriptToPhp.Log
import ScriptToPhp.Main
import ScriptToPhp.Options
import ScriptToPhp.Path
import ScriptToPhp.Php.Captures
import ScriptToPhp.Php.Emit
import ScriptToPhp.Php.Fragment
import ScriptToPhp.Php.Literal
import ScriptToPhp.Php.Prelude
import ScriptToPhp.Php.Printer
import ScriptToPhp.Php.Render
import ScriptToPhp.Php.Style
import ScriptToPhp.Php.Writer
import ScriptToPhp.Project
import ScriptToPhp.Proofs.Below
import ScriptToPhp.Proofs.Brackets
import ScriptToPhp.Proofs.Captured
import ScriptToPhp.Proofs.DeclarationSite
import ScriptToPhp.Proofs.Derivation
import ScriptToPhp.Proofs.Hygiene
import ScriptToPhp.Proofs.Layout
import ScriptToPhp.Proofs.Lexeme
import ScriptToPhp.Proofs.Made
import ScriptToPhp.Proofs.Occurrence
import ScriptToPhp.Proofs.Ownership
import ScriptToPhp.Proofs.PlainTree
import ScriptToPhp.Proofs.PrintedLiteral
import ScriptToPhp.Proofs.Reaches
import ScriptToPhp.Proofs.Reading
import ScriptToPhp.Proofs.ReadingSound
import ScriptToPhp.Proofs.Reprint
import ScriptToPhp.Proofs.Resolution
import ScriptToPhp.Proofs.Scanning
import ScriptToPhp.Proofs.Separation
import ScriptToPhp.Proofs.Shown
import ScriptToPhp.Proofs.Spelling
import ScriptToPhp.Proofs.Starts
import ScriptToPhp.Proofs.TextOrder
import ScriptToPhp.Proofs.Tiling
import ScriptToPhp.Proofs.Unplaced
import ScriptToPhp.Scope
import ScriptToPhp.Text.Alphanumeric
import ScriptToPhp.Text.Bytes
import ScriptToPhp.Text.Character
import ScriptToPhp.Text.GraphemeExtend
import ScriptToPhp.Text.IdentifierPart
import ScriptToPhp.Text.IdentifierStart
import ScriptToPhp.Text.Lines
import ScriptToPhp.Text.Quote
import ScriptToPhp.Text.Ranges
import ScriptToPhp.Text.Replace
import ScriptToPhp.Text.Source
import ScriptToPhp.Text.Span
import ScriptToPhp.Text.Unprintable
import ScriptToPhp.Text.Uppercase
import ScriptToPhp.Token.Basic
import ScriptToPhp.Token.Rule
import ScriptToPhp.Token.Scanner
import ScriptToPhp.Token.Stream
import ScriptToPhp.Token.Words
import ScriptToPhp.Tree.Basic
import ScriptToPhp.Tree.Dump
import ScriptToPhp.Tree.Visitor
import ScriptToPhp.Tree.Walk
import ScriptToPhp.Proofs.PrintedVariables
import ScriptToPhp.Proofs.Outline
import ScriptToPhp.Proofs.PrintedOutline
import ScriptToPhp.Proofs.OpenTernaries
import ScriptToPhp.Proofs.LoopHeaders
import ScriptToPhp.Proofs.Lookahead
import ScriptToPhp.Proofs.ScopeTree
import ScriptToPhp.Proofs.Totality
import ScriptToPhp.Proofs.Refusal
import ScriptToPhp.Proofs.WellFormed
import ScriptToPhp.Proofs.SpanArithmetic
import ScriptToPhp.Proofs.SpanNesting
import ScriptToPhp.Proofs.RunInput
import ScriptToPhp.Proofs.RunOutcome
import ScriptToPhp.Proofs.FileTree
import ScriptToPhp.Proofs.OutputPlaces
import ScriptToPhp.Proofs.StringUnits
import ScriptToPhp.Proofs.StringValue
import ScriptToPhp.Proofs.FunctionBinding
import ScriptToPhp.Proofs.Pieces
import ScriptToPhp.Proofs.HelperUse
import ScriptToPhp.Proofs.HelperDefinitions
import ScriptToPhp.Proofs.Locations
import ScriptToPhp.Proofs.Bodies
import ScriptToPhp.Proofs.DanglingElse
import ScriptToPhp.Proofs.Written
import ScriptToPhp.Proofs.Runs
import ScriptToPhp.Proofs.OperatorChains
import ScriptToPhp.Proofs.DeclarationLists
import ScriptToPhp.Proofs.WordBoundaries
import ScriptToPhp.Proofs.Templates
import ScriptToPhp.Proofs.UnexpectedTokens
import ScriptToPhp.Proofs.ReservedNames
import ScriptToPhp.Proofs.Writing
import ScriptToPhp.Proofs.Reuse
import ScriptToPhp.Proofs.Visiting
import ScriptToPhp.Proofs.LineOrder
import ScriptToPhp.Proofs.QuotedText
