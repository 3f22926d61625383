import EntityFlux.Calendar.Date
import EntityFlux.Calendar.Instant
import EntityFlux.Calendar.Reader
import EntityFlux.Command.Arguments
import EntityFlux.Command.Config
import EntityFlux.Command.Files
import EntityFlux.Command.Run
import EntityFlux.Decimal.Binary64
import EntityFlux.Decimal.Layout
import EntityFlux.Decimal.Reader
import EntityFlux.Decimal.Shortest
import EntityFlux.Dictionary
import EntityFlux.Execution
import EntityFlux.Flux.Document
import EntityFlux.Flux.Json
import EntityFlux.Flux.Pipeline
import EntityFlux.Flux.Request
import EntityFlux.Json.Decode
import EntityFlux.Json.Number
import EntityFlux.Json.Printer
import EntityFlux.Json.Reader
import EntityFlux.Json.Value
import EntityFlux.Lowering.Basic
import EntityFlux.Lowering.Event
import EntityFlux.Lowering.Predicate
import EntityFlux.Lowering.Settings
import EntityFlux.Main
import EntityFlux.Model.Expr
import EntityFlux.Model.Json
import EntityFlux.Model.Literal
import EntityFlux.Model.Query
import EntityFlux.Proofs.Arguments
import EntityFlux.Proofs.Assembly
import EntityFlux.Proofs.Attempt
import EntityFlux.Proofs.Bindings
import EntityFlux.Proofs.ClauseGroups
import EntityFlux.Proofs.Commuting
import EntityFlux.Proofs.Conversation
import EntityFlux.Proofs.Dates
import EntityFlux.Proofs.DayNumbers
import EntityFlux.Proofs.DocumentText
import EntityFlux.Proofs.DurationText
import EntityFlux.Proofs.Durations
import EntityFlux.Proofs.ExprJson
import EntityFlux.Proofs.Instants
import EntityFlux.Proofs.JsonChanges
import EntityFlux.Proofs.JsonRecords
import EntityFlux.Proofs.JsonText
import EntityFlux.Proofs.Lexemes
import EntityFlux.Proofs.Mentions
import EntityFlux.Proofs.Nodes
import EntityFlux.Proofs.Numerals
import EntityFlux.Proofs.Offences
import EntityFlux.Proofs.Ordering
import EntityFlux.Proofs.Paging
import EntityFlux.Proofs.PartTexts
import EntityFlux.Proofs.Pieces
import EntityFlux.Proofs.Precedence
import EntityFlux.Proofs.Printing
import EntityFlux.Proofs.QueryJson
import EntityFlux.Proofs.QuotedLists
import EntityFlux.Proofs.Readings
import EntityFlux.Proofs.RecordAccess
import EntityFlux.Proofs.RecordScope
import EntityFlux.Proofs.References
import EntityFlux.Proofs.Regrouping
import EntityFlux.Proofs.Renaming
import EntityFlux.Proofs.RequestJson
import EntityFlux.Proofs.SchemaReads
import EntityFlux.Proofs.Shape
import EntityFlux.Proofs.SharedParameters
import EntityFlux.Proofs.Spellings
import EntityFlux.Proofs.StableSort
import EntityFlux.Proofs.Stages
import EntityFlux.Proofs.StringLiterals
import EntityFlux.Proofs.Trace
import EntityFlux.Proofs.Uniformity
import EntityFlux.Proofs.Units
import EntityFlux.Refusal
import EntityFlux.Schema.Basic
import EntityFlux.Schema.Json
import EntityFlux.Span
import EntityFlux.Text.Blank
import EntityFlux.Text.CodePoints
import EntityFlux.Text.GraphemeExtend
import EntityFlux.Text.Numeral
import EntityFlux.Text.Quoted
import EntityFlux.Text.Unprintable
import EntityFlux.Toml.Document
import EntityFlux.Toml.Reader
import EntityFlux.Toml.Scalar
import EntityFlux.Proofs.QueryChanges
