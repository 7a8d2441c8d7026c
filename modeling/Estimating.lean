import Estimating.Binary64
import Estimating.Bindings
import Estimating.Catalog.Defaults
import Estimating.Catalog.Record
import Estimating.Catalog.Store
import Estimating.CommandLine.Arguments
import Estimating.CommandLine.Display
import Estimating.CommandLine.Grid
import Estimating.CommandLine.Replay
import Estimating.CommandLine.Run
import Estimating.Correction.Basic
import Estimating.Correction.Log
import Estimating.Decimal.Arithmetic
import Estimating.Decimal.Basic
import Estimating.Decimal.Numeral
import Estimating.Decimal.Rounding
import Estimating.EntryId
import Estimating.Expression.Compiled
import Estimating.Expression.Error
import Estimating.Expression.Evaluation
import Estimating.Expression.Lexer
import Estimating.Expression.ReversePolish
import Estimating.Expression.Token
import Estimating.Json.Reader
import Estimating.Json.Record
import Estimating.Json.Value
import Estimating.Json.Writer
import Estimating.Learning.Application
import Estimating.Learning.Confidence
import Estimating.Learning.Insight
import Estimating.Learning.Pattern
import Estimating.Learning.Policy
import Estimating.Learning.Recording
import Estimating.Learning.Sample
import Estimating.Learning.Store
import Estimating.Main
import Estimating.Owned
import Estimating.Project.Key
import Estimating.Project.Requirements
import Estimating.Project.Rule
import Estimating.Project.Store
import Estimating.Proofs.Correction.Forms
import Estimating.Proofs.Correction.Log
import Estimating.Proofs.Decimal.Exact
import Estimating.Proofs.Decimal.HalfAway
import Estimating.Proofs.Decimal.Nearest
import Estimating.Proofs.Decimal.Numerals
import Estimating.Proofs.Decimal.Overflow
import Estimating.Proofs.Decimal.Quotients
import Estimating.Proofs.Decimal.Rounding
import Estimating.Proofs.Expression.Balance
import Estimating.Proofs.Expression.Evaluation
import Estimating.Proofs.Expression.Exact
import Estimating.Proofs.Expression.Grammar
import Estimating.Proofs.Expression.Lexemes
import Estimating.Proofs.Expression.Limits
import Estimating.Proofs.Expression.Literals
import Estimating.Proofs.Expression.Names
import Estimating.Proofs.Expression.Places
import Estimating.Proofs.Expression.ReversePolish
import Estimating.Proofs.Expression.Tokens
import Estimating.Proofs.Expression.Tree
import Estimating.Proofs.Expression.Written
import Estimating.Proofs.Json.Bindings
import Estimating.Proofs.Json.Texts
import Estimating.Proofs.Learning.Application
import Estimating.Proofs.Learning.Bounds
import Estimating.Proofs.Learning.Calls
import Estimating.Proofs.Learning.Forgetting
import Estimating.Proofs.Learning.History
import Estimating.Proofs.Learning.Insights
import Estimating.Proofs.Learning.Interleaving
import Estimating.Proofs.Learning.Median
import Estimating.Proofs.Learning.Observation
import Estimating.Proofs.Learning.Ranks
import Estimating.Proofs.Learning.Ratios
import Estimating.Proofs.Learning.Reach
import Estimating.Proofs.Learning.Repetition
import Estimating.Proofs.Learning.Script
import Estimating.Proofs.Learning.Window
import Estimating.Proofs.Project.Identifiers
import Estimating.Proofs.Project.Keys
import Estimating.Proofs.Quote.Drafts
import Estimating.Proofs.Results
import Estimating.Proofs.Service.Amounts
import Estimating.Proofs.Service.Calm
import Estimating.Proofs.Service.Confinement
import Estimating.Proofs.Service.Extremes
import Estimating.Proofs.Service.Feedback
import Estimating.Proofs.Service.Frames
import Estimating.Proofs.Service.Generation
import Estimating.Proofs.Service.Habits
import Estimating.Proofs.Service.Lines
import Estimating.Proofs.Service.Masks
import Estimating.Proofs.Service.Moderate
import Estimating.Proofs.Service.Outages
import Estimating.Proofs.Service.Reports
import Estimating.Proofs.Service.Rules
import Estimating.Proofs.Service.Run
import Estimating.Proofs.Service.Tenants
import Estimating.Proofs.Service.Totals
import Estimating.Proofs.Service.Views
import Estimating.Quote.Draft
import Estimating.Quote.Item
import Estimating.Quote.Report
import Estimating.Quote.Totals
import Estimating.Service.Config
import Estimating.Service.Error
import Estimating.Service.Learning
import Estimating.Service.Operations
import Estimating.Service.Seed
import Estimating.Service.World
import Estimating.Settings.Load
import Estimating.Settings.Overlay
import Estimating.Settings.Path
import Estimating.Settings.Value
import Estimating.StoreError
import Estimating.Table
import Estimating.Text.Blank
import Estimating.Text.Columns
import Estimating.Text.Emoji
import Estimating.Text.Ligature
import Estimating.Text.Ranges
import Estimating.Text.Visible
import Estimating.Text.Width
import Estimating.Timestamp
