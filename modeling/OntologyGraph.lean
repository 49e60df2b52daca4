import OntologyGraph.Command.Basic
import OntologyGraph.Command.Dispatch
import OntologyGraph.Command.Outcome
import OntologyGraph.Command.Queries
import OntologyGraph.Datatypes
import OntologyGraph.Decimal.Layout
import OntologyGraph.Decimal.Numeral
import OntologyGraph.Decimal.Shortest
import OntologyGraph.Except
import OntologyGraph.Fault
import OntologyGraph.Instances
import OntologyGraph.Json
import OntologyGraph.Main
import OntologyGraph.Node
import OntologyGraph.NodeId
import OntologyGraph.PropertyMap
import OntologyGraph.Schema.Lineage
import OntologyGraph.Schema.Rule
import OntologyGraph.Schema.Vocabulary
import OntologyGraph.Schema.Walk
import OntologyGraph.Script.Parse
import OntologyGraph.Script.Printer
import OntologyGraph.Script.Reader
import OntologyGraph.Script.Tree
import OntologyGraph.Session
import OntologyGraph.Settings
import OntologyGraph.SortedMap
import OntologyGraph.Store.Canned
import OntologyGraph.Store.Connection
import OntologyGraph.Store.Journal
import OntologyGraph.Store.Program
import OntologyGraph.Store.Scripted
import OntologyGraph.Text.Backtick
import OntologyGraph.Text.Blank
import OntologyGraph.Text.Hex
import OntologyGraph.Text.Hidden
import OntologyGraph.Text.Name
import OntologyGraph.Text.Quoted
import OntologyGraph.Text.Shown
import OntologyGraph.TextMap
import OntologyGraph.Time.Calendar
import OntologyGraph.Time.Instant
import OntologyGraph.Time.Timestamp
import OntologyGraph.Validation.Instances
import OntologyGraph.Validation.Properties
import OntologyGraph.Validation.Report
import OntologyGraph.Value
import OntologyGraph.Proofs.Script.Acceptance
import OntologyGraph.Proofs.Command.Outline
import OntologyGraph.Proofs.Command.Requests
import OntologyGraph.Proofs.Command.Course
import OntologyGraph.Proofs.Command.WriteDiscipline
import OntologyGraph.Proofs.Hierarchy.Graph
import OntologyGraph.Proofs.Hierarchy.Handlers
import OntologyGraph.Proofs.Hierarchy.Safety
import OntologyGraph.Proofs.Command.GuardedText
import OntologyGraph.Proofs.Command.Failures
import OntologyGraph.Proofs.Session.Conduct
import OntologyGraph.Proofs.Store.Repeating
import OntologyGraph.Proofs.Schema.Lookups
import OntologyGraph.Proofs.Schema.StoredLabels
import OntologyGraph.Proofs.Schema.Climb
import OntologyGraph.Proofs.Schema.Ascent
import OntologyGraph.Proofs.Schema.RowOrder
import OntologyGraph.Proofs.Maps.Entries
import OntologyGraph.Proofs.Script.Splicing
import OntologyGraph.Proofs.Command.Redefinition
import OntologyGraph.Proofs.Hierarchy.Records
import OntologyGraph.Proofs.Hierarchy.Served
import OntologyGraph.Proofs.Hierarchy.ChecksAndGuards
import OntologyGraph.Proofs.Hierarchy.Lengthening
import OntologyGraph.Proofs.Command.ProbeText
import OntologyGraph.Proofs.Script.Detection
import OntologyGraph.Proofs.Session.Parts
import OntologyGraph.Proofs.Schema.Declarations
import OntologyGraph.Proofs.Validation.Labels
import OntologyGraph.Proofs.Validation.Ancestors
import OntologyGraph.Proofs.Text.ByteOrder
import OntologyGraph.Proofs.Validation.Findings
import OntologyGraph.Proofs.Command.Shapes
import OntologyGraph.Proofs.Maps.Insertions
import OntologyGraph.Proofs.Maps.Sorting
import OntologyGraph.Proofs.Values.Parts
import OntologyGraph.Proofs.Values.JsonForm
import OntologyGraph.Proofs.Nodes.Storing
import OntologyGraph.Proofs.Nodes.Quoting
import OntologyGraph.Proofs.Maps.Operations
import OntologyGraph.Proofs.Validation.Combining
import OntologyGraph.Proofs.Values.JsonText
import OntologyGraph.Proofs.Store.Canned
import OntologyGraph.Proofs.Time.Calendar
import OntologyGraph.Proofs.Time.Timestamp
import OntologyGraph.Proofs.Decimal.Integers
import OntologyGraph.Proofs.Values.Coercion
