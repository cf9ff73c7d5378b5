import SnippetExpansion.Ai
import SnippetExpansion.Api.Basic
import SnippetExpansion.Api.MediaType
import SnippetExpansion.Api.Query
import SnippetExpansion.Api.Route
import SnippetExpansion.Change
import SnippetExpansion.CommandLine.Arguments
import SnippetExpansion.CommandLine.Console
import SnippetExpansion.CommandLine.Grammar
import SnippetExpansion.CommandLine.Invocation
import SnippetExpansion.CommandLine.Run
import SnippetExpansion.CommandLine.Terminal
import SnippetExpansion.CommandLine.Usage
import SnippetExpansion.CommandLine.Value
import SnippetExpansion.Dialogue
import SnippetExpansion.Dictionary
import SnippetExpansion.Failure
import SnippetExpansion.Home
import SnippetExpansion.Ids
import SnippetExpansion.Json.Basic
import SnippetExpansion.Json.Double
import SnippetExpansion.Json.Mismatch
import SnippetExpansion.Json.Parser
import SnippetExpansion.Json.Reading
import SnippetExpansion.Json.Token
import SnippetExpansion.Main
import SnippetExpansion.Markup.Basic
import SnippetExpansion.Markup.Entity
import SnippetExpansion.Markup.Parser
import SnippetExpansion.Outside
import SnippetExpansion.Proofs.Api.Snippets
import SnippetExpansion.Proofs.CommandLine.NamedSnippet
import SnippetExpansion.Proofs.Dialogue
import SnippetExpansion.Proofs.Dictionary
import SnippetExpansion.Proofs.Json.ReadBack
import SnippetExpansion.Proofs.Markup.Content
import SnippetExpansion.Proofs.Markup.Escape
import SnippetExpansion.Proofs.Markup.NormalForm
import SnippetExpansion.Proofs.Markup.Scan
import SnippetExpansion.Proofs.Markup.Seam
import SnippetExpansion.Proofs.Markup.TagName
import SnippetExpansion.Proofs.Markup.Written
import SnippetExpansion.Proofs.Outside
import SnippetExpansion.Proofs.Protocol
import SnippetExpansion.Proofs.Session.Abreast
import SnippetExpansion.Proofs.Session.Asking
import SnippetExpansion.Proofs.Session.Course
import SnippetExpansion.Proofs.Session.Debounce
import SnippetExpansion.Proofs.Session.Incremental
import SnippetExpansion.Proofs.Session.PlainField
import SnippetExpansion.Proofs.Session.RichRegion
import SnippetExpansion.Proofs.Session.Runs
import SnippetExpansion.Proofs.Session.SideBySide
import SnippetExpansion.Proofs.Session.SingleFlight
import SnippetExpansion.Proofs.Session.Steps
import SnippetExpansion.Proofs.Session.Trace
import SnippetExpansion.Proofs.Store.ByShortcut
import SnippetExpansion.Proofs.Store.Categories
import SnippetExpansion.Proofs.Store.Following
import SnippetExpansion.Proofs.Store.History
import SnippetExpansion.Proofs.Store.Operation
import SnippetExpansion.Proofs.Store.SavedVariable
import SnippetExpansion.Proofs.Store.Tidy
import SnippetExpansion.Proofs.Store.VariableNames
import SnippetExpansion.Proofs.Store.Written
import SnippetExpansion.Proofs.StoredData.ReadBack
import SnippetExpansion.Proofs.Surface.Caret
import SnippetExpansion.Proofs.Surface.Selection
import SnippetExpansion.Proofs.Template.BareName
import SnippetExpansion.Proofs.Template.Clipboard
import SnippetExpansion.Proofs.Template.Command
import SnippetExpansion.Proofs.Template.Consulting
import SnippetExpansion.Proofs.Template.Contribution
import SnippetExpansion.Proofs.Template.DateFormat
import SnippetExpansion.Proofs.Template.Flat
import SnippetExpansion.Proofs.Template.Holes
import SnippetExpansion.Proofs.Template.InnerTokens
import SnippetExpansion.Proofs.Template.Masked
import SnippetExpansion.Proofs.Template.Nesting
import SnippetExpansion.Proofs.Template.OutsideText
import SnippetExpansion.Proofs.Template.Pattern
import SnippetExpansion.Proofs.Template.Placeholder
import SnippetExpansion.Proofs.Template.Resolution
import SnippetExpansion.Proofs.Template.Running
import SnippetExpansion.Proofs.Template.Segment
import SnippetExpansion.Proofs.Template.Table
import SnippetExpansion.Proofs.Template.TokenByToken
import SnippetExpansion.Proofs.Template.Unanswered
import SnippetExpansion.Proofs.Template.Unasked
import SnippetExpansion.Proofs.Template.WiderToken
import SnippetExpansion.Proofs.Template.Wrapped
import SnippetExpansion.Proofs.Text.Cut
import SnippetExpansion.Proofs.Text.Positions
import SnippetExpansion.Proofs.Text.Replace
import SnippetExpansion.Proofs.Text.Utf8
import SnippetExpansion.Proofs.Transfer.Again
import SnippetExpansion.Proofs.Transfer.Collisions
import SnippetExpansion.Proofs.Transfer.Conservation
import SnippetExpansion.Proofs.Transfer.Counting
import SnippetExpansion.Proofs.Transfer.Merge
import SnippetExpansion.Proofs.Transfer.ReadBack
import SnippetExpansion.Proofs.Transfer.RoundTrip
import SnippetExpansion.Proofs.Transfer.Suffix
import SnippetExpansion.Proofs.Transfer.Variables
import SnippetExpansion.Proofs.Trigger
import SnippetExpansion.Session.Basic
import SnippetExpansion.Session.Burst
import SnippetExpansion.Session.Detection
import SnippetExpansion.Session.Move
import SnippetExpansion.Session.Replacement
import SnippetExpansion.Session.Scene
import SnippetExpansion.Settings
import SnippetExpansion.Snapshot
import SnippetExpansion.Snippet
import SnippetExpansion.Store.Basic
import SnippetExpansion.Store.ByShortcut
import SnippetExpansion.Store.Edit
import SnippetExpansion.Store.Following
import SnippetExpansion.Store.Listening
import SnippetExpansion.StoredData
import SnippetExpansion.Surface.Basic
import SnippetExpansion.Surface.Plain
import SnippetExpansion.Surface.Rich
import SnippetExpansion.Surface.Site
import SnippetExpansion.Template.Command
import SnippetExpansion.Template.DateFormat
import SnippetExpansion.Template.Expand
import SnippetExpansion.Template.Pattern
import SnippetExpansion.Template.Placeholder
import SnippetExpansion.Template.Resolve
import SnippetExpansion.Template.Segment
import SnippetExpansion.Text.Basic
import SnippetExpansion.Text.Blank
import SnippetExpansion.Text.Case
import SnippetExpansion.Text.CaseTable
import SnippetExpansion.Text.Cut
import SnippetExpansion.Text.Hex
import SnippetExpansion.Text.Quoted
import SnippetExpansion.Text.UnseenTable
import SnippetExpansion.Text.Utf8
import SnippetExpansion.Transfer.Exchange
import SnippetExpansion.Transfer.Import
import SnippetExpansion.Transfer.Merge
import SnippetExpansion.Transfer.Policy
import SnippetExpansion.Transfer.Suffix
import SnippetExpansion.Trigger
import SnippetExpansion.Uuid
