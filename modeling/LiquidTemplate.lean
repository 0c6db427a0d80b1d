import LiquidTemplate.CommandLine.Arguments
import LiquidTemplate.CommandLine.Run
import LiquidTemplate.CommandLine.Session
import LiquidTemplate.CommandLine.Style
import LiquidTemplate.Date.Calendar
import LiquidTemplate.Date.Pattern
import LiquidTemplate.Date.Read
import LiquidTemplate.Date.Written
import LiquidTemplate.Delimiters
import LiquidTemplate.Diagnostic
import LiquidTemplate.Extension.Case
import LiquidTemplate.Extension.Do
import LiquidTemplate.Extension.Shout
import LiquidTemplate.Filter
import LiquidTemplate.Filter.Arguments
import LiquidTemplate.Filter.Arithmetic
import LiquidTemplate.Filter.Collection
import LiquidTemplate.Filter.Failure
import LiquidTemplate.Filter.Markup
import LiquidTemplate.Filter.Sort
import LiquidTemplate.Filter.Truncate
import LiquidTemplate.Filter.Url
import LiquidTemplate.Grammar.Arguments
import LiquidTemplate.Grammar.Basic
import LiquidTemplate.Grammar.Body
import LiquidTemplate.Grammar.Dump
import LiquidTemplate.Grammar.Loop
import LiquidTemplate.Grammar.Operators
import LiquidTemplate.Grammar.Parser
import LiquidTemplate.Grammar.Primary
import LiquidTemplate.Grammar.Statement
import LiquidTemplate.Grammar.Tags
import LiquidTemplate.Json.Number
import LiquidTemplate.Json.Reader
import LiquidTemplate.Json.Settings
import LiquidTemplate.Json.Skip
import LiquidTemplate.Json.Text
import LiquidTemplate.Json.Value
import LiquidTemplate.Loop
import LiquidTemplate.Main
import LiquidTemplate.Number.Binary64
import LiquidTemplate.Number.Power
import LiquidTemplate.Number.Quantity
import LiquidTemplate.Number.Read
import LiquidTemplate.Number.Shortest
import LiquidTemplate.Number.Text
import LiquidTemplate.Number.Word
import LiquidTemplate.Proofs.Cases.Blocks
import LiquidTemplate.Proofs.Cases.Meaning
import LiquidTemplate.Proofs.Cases.Names
import LiquidTemplate.Proofs.Cases.Sessions
import LiquidTemplate.Proofs.Concatenation.CaseTags
import LiquidTemplate.Proofs.Concatenation.Expressions
import LiquidTemplate.Proofs.Concatenation.Renaming
import LiquidTemplate.Proofs.Concatenation.Sequels
import LiquidTemplate.Proofs.Concatenation.Statements
import LiquidTemplate.Proofs.Concatenation.Templates
import LiquidTemplate.Proofs.Conditions.Chains
import LiquidTemplate.Proofs.Conditions.Parts
import LiquidTemplate.Proofs.Conduct.Counting
import LiquidTemplate.Proofs.Conduct.Expressions
import LiquidTemplate.Proofs.Conduct.InsideTags
import LiquidTemplate.Proofs.Conduct.Rules
import LiquidTemplate.Proofs.Conduct.Statements
import LiquidTemplate.Proofs.Delivery
import LiquidTemplate.Proofs.Echoes.Expressions
import LiquidTemplate.Proofs.Echoes.Grammars
import LiquidTemplate.Proofs.Echoes.Parsers
import LiquidTemplate.Proofs.Echoes.Statements
import LiquidTemplate.Proofs.Errors.Lexing
import LiquidTemplate.Proofs.Errors.Positions
import LiquidTemplate.Proofs.Errors.Templates
import LiquidTemplate.Proofs.Exchange.Alone
import LiquidTemplate.Proofs.Exchange.Arguments
import LiquidTemplate.Proofs.Exchange.Edges
import LiquidTemplate.Proofs.Exchange.Expressions
import LiquidTemplate.Proofs.Exchange.Grammars
import LiquidTemplate.Proofs.Exchange.Literals
import LiquidTemplate.Proofs.Exchange.PrintTags
import LiquidTemplate.Proofs.Exchange.Ranges
import LiquidTemplate.Proofs.Exchange.Sessions
import LiquidTemplate.Proofs.Exchange.Streams
import LiquidTemplate.Proofs.Filters.Addresses
import LiquidTemplate.Proofs.Filters.Arithmetic
import LiquidTemplate.Proofs.Filters.Escaping
import LiquidTemplate.Proofs.Filters.Mapping
import LiquidTemplate.Proofs.Filters.Numerals
import LiquidTemplate.Proofs.Filters.Occurrences
import LiquidTemplate.Proofs.Filters.Order
import LiquidTemplate.Proofs.Filters.Ranges
import LiquidTemplate.Proofs.Filters.Replacing
import LiquidTemplate.Proofs.Filters.Slices
import LiquidTemplate.Proofs.Filters.Sorting
import LiquidTemplate.Proofs.Filters.Stripping
import LiquidTemplate.Proofs.Filters.Truncating
import LiquidTemplate.Proofs.Forms.Arguments
import LiquidTemplate.Proofs.Forms.Bodies
import LiquidTemplate.Proofs.Forms.Expressions
import LiquidTemplate.Proofs.Forms.Layouts
import LiquidTemplate.Proofs.Forms.Places
import LiquidTemplate.Proofs.Forms.Statements
import LiquidTemplate.Proofs.Forms.Tags
import LiquidTemplate.Proofs.Inert.Driven
import LiquidTemplate.Proofs.Inert.Unused
import LiquidTemplate.Proofs.Lexing.Elsewhere
import LiquidTemplate.Proofs.Lexing.RawBlocks
import LiquidTemplate.Proofs.Lexing.Shifted
import LiquidTemplate.Proofs.Lexing.TrimmedNewlines
import LiquidTemplate.Proofs.Lines
import LiquidTemplate.Proofs.Nesting.Bodies
import LiquidTemplate.Proofs.Nesting.Heads
import LiquidTemplate.Proofs.Nesting.Tags
import LiquidTemplate.Proofs.Nesting.Targets
import LiquidTemplate.Proofs.Nesting.Templates
import LiquidTemplate.Proofs.Operands.ArgumentLists
import LiquidTemplate.Proofs.Operands.ColonFilters
import LiquidTemplate.Proofs.Operands.Enclosed
import LiquidTemplate.Proofs.Operands.LoopModifiers
import LiquidTemplate.Proofs.Operands.LoopTests
import LiquidTemplate.Proofs.Progress.Expressions
import LiquidTemplate.Proofs.Progress.Grammars
import LiquidTemplate.Proofs.Progress.OpenTags
import LiquidTemplate.Proofs.Progress.Operations
import LiquidTemplate.Proofs.Progress.Rounds
import LiquidTemplate.Proofs.Progress.Routes
import LiquidTemplate.Proofs.Progress.Statements
import LiquidTemplate.Proofs.Reading
import LiquidTemplate.Proofs.Respelling.Delimiters
import LiquidTemplate.Proofs.Respelling.Literals
import LiquidTemplate.Proofs.Respelling.Tags
import LiquidTemplate.Proofs.Respelling.Templates
import LiquidTemplate.Proofs.RoundTrip.Arguments
import LiquidTemplate.Proofs.RoundTrip.Bodies
import LiquidTemplate.Proofs.RoundTrip.Expressions
import LiquidTemplate.Proofs.RoundTrip.Levels
import LiquidTemplate.Proofs.RoundTrip.Operators
import LiquidTemplate.Proofs.RoundTrip.Postfix
import LiquidTemplate.Proofs.RoundTrip.Primaries
import LiquidTemplate.Proofs.RoundTrip.Statements
import LiquidTemplate.Proofs.RoundTrip.Tags
import LiquidTemplate.Proofs.RoundTrip.Targets
import LiquidTemplate.Proofs.RoundTrip.Trailers
import LiquidTemplate.Proofs.Scanning.Constructs
import LiquidTemplate.Proofs.Scanning.Course
import LiquidTemplate.Proofs.Scanning.Cuts
import LiquidTemplate.Proofs.Scanning.Gaps
import LiquidTemplate.Proofs.Scanning.Joined
import LiquidTemplate.Proofs.Scanning.Openings
import LiquidTemplate.Proofs.Scanning.Printed
import LiquidTemplate.Proofs.Scanning.Rounds
import LiquidTemplate.Proofs.Scanning.Shape
import LiquidTemplate.Proofs.Sources.Positions
import LiquidTemplate.Proofs.Texts.Bodies
import LiquidTemplate.Proofs.Texts.Cases
import LiquidTemplate.Proofs.Texts.Expressions
import LiquidTemplate.Proofs.Texts.Grammars
import LiquidTemplate.Proofs.Texts.Quiet
import LiquidTemplate.Proofs.Texts.Tags
import LiquidTemplate.Proofs.Texts.Templates
import LiquidTemplate.Proofs.Trees.Expressions
import LiquidTemplate.Proofs.Trees.Roles
import LiquidTemplate.Proofs.Trees.Statements
import LiquidTemplate.Proofs.Trees.Templates
import LiquidTemplate.Proofs.Trees.Walks
import LiquidTemplate.Proofs.Written
import LiquidTemplate.Source
import LiquidTemplate.SyntaxError
import LiquidTemplate.Text.Basic
import LiquidTemplate.Text.Blank
import LiquidTemplate.Text.Case
import LiquidTemplate.Text.CaseTables
import LiquidTemplate.Text.Outline
import LiquidTemplate.Text.Property
import LiquidTemplate.Text.Quoted
import LiquidTemplate.Text.Ranges
import LiquidTemplate.Text.Search
import LiquidTemplate.Text.Utf8
import LiquidTemplate.Token
import LiquidTemplate.Token.Lexeme
import LiquidTemplate.Token.Literal
import LiquidTemplate.Token.Stream
import LiquidTemplate.Token.Tag
import LiquidTemplate.Token.Template
import LiquidTemplate.Tree.Dump
import LiquidTemplate.Tree.Expr
import LiquidTemplate.Tree.Stmt
import LiquidTemplate.Tree.Walk
import LiquidTemplate.Value.Basic
import LiquidTemplate.Value.Coercion
import LiquidTemplate.Value.Order
import LiquidTemplate.Value.Text
