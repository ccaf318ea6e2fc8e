import Sitewright.Archive
import Sitewright.Brief
import Sitewright.Check.Checked
import Sitewright.Check.Issue
import Sitewright.Check.Scalar
import Sitewright.Decimal.Basic
import Sitewright.Decimal.Binary64
import Sitewright.Decimal.Text
import Sitewright.Deployment
import Sitewright.Dict
import Sitewright.Dispatch
import Sitewright.Editor
import Sitewright.Enrichment
import Sitewright.Error
import Sitewright.Generation
import Sitewright.Ids
import Sitewright.Journal.Entry
import Sitewright.Journal.Line
import Sitewright.Journal.Message
import Sitewright.Json.Basic
import Sitewright.Json.Display
import Sitewright.Json.Printer
import Sitewright.Json.Reader
import Sitewright.Project.Basic
import Sitewright.Project.Call
import Sitewright.Project.Document
import Sitewright.Project.DocumentStore
import Sitewright.Project.Mismatch
import Sitewright.Project.Order
import Sitewright.Project.Saving
import Sitewright.Project.Store
import Sitewright.Project.Value
import Sitewright.Prompt
import Sitewright.Proofs.Archive
import Sitewright.Proofs.Brief
import Sitewright.Proofs.Checked
import Sitewright.Proofs.Decimal.Digits
import Sitewright.Proofs.Decimal.Rounding
import Sitewright.Proofs.Decimal.Shortest
import Sitewright.Proofs.Decimal.Successor
import Sitewright.Proofs.Dictionary
import Sitewright.Proofs.Dispatch
import Sitewright.Proofs.Dispatch.Reading
import Sitewright.Proofs.Editor.Edits
import Sitewright.Proofs.Editor.Frame
import Sitewright.Proofs.Editor.Independence
import Sitewright.Proofs.Editor.Run
import Sitewright.Proofs.Editor.Sections
import Sitewright.Proofs.Editor.Tidy
import Sitewright.Proofs.Editor.Titles
import Sitewright.Proofs.Editor.Undo
import Sitewright.Proofs.Enrichment.Complete
import Sitewright.Proofs.Enrichment.Kept
import Sitewright.Proofs.Enrichment.Passes
import Sitewright.Proofs.Enrichment.Sections
import Sitewright.Proofs.Enrichment.Texts
import Sitewright.Proofs.Generation
import Sitewright.Proofs.Generation.Dependence
import Sitewright.Proofs.Generation.Layout
import Sitewright.Proofs.Ids
import Sitewright.Proofs.Journal
import Sitewright.Proofs.Json.HtmlSafe
import Sitewright.Proofs.Json.Number
import Sitewright.Proofs.Json.Readable
import Sitewright.Proofs.Json.RoundTrip
import Sitewright.Proofs.Json.Text
import Sitewright.Proofs.Outcome
import Sitewright.Proofs.Project.Agreement
import Sitewright.Proofs.Project.Counting
import Sitewright.Proofs.Project.Creation
import Sitewright.Proofs.Project.Documents
import Sitewright.Proofs.Project.Failing
import Sitewright.Proofs.Project.History
import Sitewright.Proofs.Project.Listing
import Sitewright.Proofs.Project.Saving
import Sitewright.Proofs.Props.Normal
import Sitewright.Proofs.Props.Pipeline
import Sitewright.Proofs.Props.Shape
import Sitewright.Proofs.Schema.Embedding
import Sitewright.Proofs.Schema.Normal
import Sitewright.Proofs.Schema.Readable
import Sitewright.Proofs.Schema.RoundTrip
import Sitewright.Proofs.Service.Editing
import Sitewright.Proofs.Service.Effect
import Sitewright.Proofs.Service.Export
import Sitewright.Proofs.Service.Frame
import Sitewright.Proofs.Service.Listing
import Sitewright.Proofs.Service.Reporting
import Sitewright.Proofs.Service.Sound
import Sitewright.Proofs.Service.Stored
import Sitewright.Proofs.Service.Visit
import Sitewright.Proofs.Sorting
import Sitewright.Proofs.Synthesis
import Sitewright.Proofs.Synthesis.Brief
import Sitewright.Proofs.Template
import Sitewright.Proofs.Template.Plain
import Sitewright.Proofs.Text.Alphabet
import Sitewright.Proofs.Text.Replace
import Sitewright.Proofs.Text.Runs
import Sitewright.Proofs.Text.Slug
import Sitewright.Props.Kinds
import Sitewright.Props.Shape
import Sitewright.Registry.Basic
import Sitewright.Registry.Defaults
import Sitewright.Schema.Basic
import Sitewright.Schema.Decode
import Sitewright.Schema.Kind
import Sitewright.Service.Body
import Sitewright.Service.Handlers
import Sitewright.Service.Reply
import Sitewright.Service.Route
import Sitewright.Service.Run
import Sitewright.Service.Visit
import Sitewright.Sorting
import Sitewright.Synthesis
import Sitewright.Template.Basic
import Sitewright.Template.Fragments
import Sitewright.Template.Library
import Sitewright.Template.Pages
import Sitewright.Template.Scaffold
import Sitewright.Text.Basic
import Sitewright.Text.Encoding
import Sitewright.Text.Lower
import Sitewright.Text.Printable
import Sitewright.Text.Quoted
import Sitewright.Text.Slug
import Sitewright.Time.Calendar
import Sitewright.Time.Text
import Sitewright.Time.Timestamp
import Sitewright.Time.Unix
import Sitewright.Turns
