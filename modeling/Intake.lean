import Intake.Address
import Intake.Archive
import Intake.Archive.Inflate
import Intake.Barrier
import Intake.Bench.Command
import Intake.Bench.Names
import Intake.Bench.Parts
import Intake.Bench.Perform
import Intake.Bench.Sessions
import Intake.Bench.Shutdown
import Intake.Bench.State
import Intake.Bench.Turn
import Intake.Bench.Work
import Intake.Config
import Intake.Decimal
import Intake.Delimited
import Intake.Event
import Intake.EventStream
import Intake.Extraction
import Intake.Http.ApiError
import Intake.Http.Exchange
import Intake.Http.Form
import Intake.Http.Message
import Intake.Http.Query
import Intake.Http.Service
import Intake.Http.Upload
import Intake.Identifier
import Intake.Json
import Intake.Launch
import Intake.Main
import Intake.Media.Header
import Intake.Media.Kind
import Intake.Media.Signature
import Intake.Media.Sniff
import Intake.Notification
import Intake.Office
import Intake.Office.Document
import Intake.Office.Package
import Intake.Office.Workbook
import Intake.Pdf
import Intake.Pdf.File
import Intake.Pdf.Font
import Intake.Pdf.Page
import Intake.Pdf.Value
import Intake.Product
import Intake.Registry
import Intake.Relay
import Intake.Route
import Intake.Route.Rule
import Intake.Session
import Intake.Settings
import Intake.Sink
import Intake.Spool
import Intake.Summary
import Intake.Task
import Intake.Text.Blank
import Intake.Text.Charset
import Intake.Text.Digits
import Intake.Text.Lines
import Intake.Text.Printable
import Intake.Text.Quoted
import Intake.Text.Utf8
import Intake.Timestamp
import Intake.Toml
import Intake.Toml.Reader
import Intake.Toml.Scalar
import Intake.Toml.Writer
import Intake.Worker
import Intake.Xml
import Intake.Xml.Token
import Intake.Proofs.Calls
import Intake.Proofs.Epochs
import Intake.Proofs.Outlet
import Intake.Proofs.Course
import Intake.Proofs.Lines
import Intake.Proofs.Looks
import Intake.Proofs.Traffic
import Intake.Proofs.Rounds
import Intake.Proofs.Weave
import Intake.Proofs.Log
import Intake.Proofs.Accounts
import Intake.Proofs.Ledger
import Intake.Proofs.Dispatch
import Intake.Proofs.Rivals
import Intake.Proofs.Search
import Intake.Proofs.Texts
import Intake.Proofs.History
import Intake.Proofs.Delivery
import Intake.Proofs.Assessments
import Intake.Proofs.Reports
import Intake.Proofs.Mirror
import Intake.Proofs.Closure
import Intake.Proofs.Halves
import Intake.Proofs.Tickets
import Intake.Proofs.Deadline
import Intake.Proofs.Unmirrored
import Intake.Proofs.Passage
import Intake.Proofs.Handover
import Intake.Proofs.Balance
import Intake.Proofs.Renderings
import Intake.Proofs.Neighbours
import Intake.Proofs.Closeout
import Intake.Proofs.Expiry
import Intake.Proofs.Fleet
import Intake.Proofs.Isolation
import Intake.Proofs.Ownership
import Intake.Proofs.Aftermath
import Intake.Proofs.Release
import Intake.Proofs.Reflection
import Intake.Proofs.Frames
import Intake.Proofs.Finalizer
import Intake.Proofs.Uploads
import Intake.Proofs.Previews
import Intake.Proofs.Normalized
import Intake.Proofs.Sniffing
import Intake.Proofs.Sheets
import Intake.Proofs.Custody
import Intake.Proofs.Depot
import Intake.Proofs.Beginnings
import Intake.Proofs.Crossing
import Intake.Proofs.Alignment
import Intake.Proofs.Scalars
import Intake.Proofs.Documents
import Intake.Proofs.Fitting
import Intake.Proofs.Configured
import Intake.Proofs.Selection
