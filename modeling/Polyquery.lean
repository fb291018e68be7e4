import Polyquery.Number.Shortest
import Polyquery.Number.Reader
import Polyquery.Text.Capital
import Polyquery.Text.Lower
import Polyquery.Text.Quoted
import Polyquery.Text.Search
import Polyquery.Text.Word
import Polyquery.Value
import Polyquery.Value.Document
import Polyquery.Failure
import Polyquery.Value.Integer
import Polyquery.Registry
import Polyquery.Sql.JsonPath
import Polyquery.Sql.Condition
import Polyquery.Sql.Command
import Polyquery.Query.Compiler
import Polyquery.Session.Policy
import Polyquery.Session.Recorder
import Polyquery.Session.StatementCache
import Polyquery.Session.ColumnCache
import Polyquery.Session.Connection
import Polyquery.Session.Transaction
import Polyquery.Query.Terminal
import Polyquery.Validation.Settings
import Polyquery.Validation.Query
import Polyquery.Moment
import Polyquery.Log
import Polyquery.Session.Opening
import Polyquery.Session.Access
import Polyquery.Rehearsal.Stage
import Polyquery.Rehearsal.Play
import Polyquery.Query.Call
import Polyquery.Session.Report
import Polyquery.Failure.Report
import Polyquery.Text.Hex
import Polyquery.Rehearsal.Setup
import Polyquery.Query.CompilerCall
import Polyquery.Sql.Call
import Polyquery.Proofs.Legible
import Polyquery.Proofs.Reading
import Polyquery.Proofs.ConditionReading
import Polyquery.Proofs.Isolation
import Polyquery.Proofs.LegibleCommand
import Polyquery.Proofs.Placement
import Polyquery.Proofs.After
import Polyquery.Proofs.Atomicity
import Polyquery.Proofs.Erasure
import Polyquery.Proofs.Script
import Polyquery.Proofs.Work
import Polyquery.Proofs.Attempts
import Polyquery.Proofs.Engine
import Polyquery.Proofs.Keyset
import Polyquery.Proofs.Reach
import Polyquery.Proofs.Upsert
import Polyquery.Proofs.Readonly
import Polyquery.Proofs.Screening
import Polyquery.Proofs.DryRun
import Polyquery.Proofs.Hooks
import Polyquery.Proofs.Answers
import Polyquery.Proofs.Course
import Polyquery.Proofs.Uniformity
import Polyquery.Proofs.Leads
import Polyquery.Proofs.Repetition
import Polyquery.Proofs.Trash
import Polyquery.Proofs.Recency
import Polyquery.Proofs.Cleanup
import Polyquery.Proofs.Enclosure
import Polyquery.Proofs.Quoting
import Polyquery.Proofs.Registrations
import Polyquery.Proofs.Chains
import Polyquery.Proofs.Deeds
import Polyquery.Proofs.Observation
import Polyquery.Proofs.Lookups
import Polyquery.Proofs.KeyOrder
import Polyquery.Proofs.LeadingKeyword
import Polyquery.Proofs.Demands
import Polyquery.Proofs.Offenders
import Polyquery.Proofs.Translation
import Polyquery.Proofs.TimeLimits
import Polyquery.Proofs.Routing
import Polyquery.Proofs.GeneratedKey
import Polyquery.Proofs.Decision
import Polyquery.Proofs.PathLiteral
import Polyquery.Proofs.PathGrammar
import Polyquery.Proofs.Headings
import Polyquery.Proofs.Composition
import Polyquery.Proofs.Pieces
import Polyquery.Proofs.Windows
import Polyquery.Proofs.Paging
import Polyquery.Proofs.Alignment
import Polyquery.Proofs.Percent
import Polyquery.Proofs.Grouping
import Polyquery.Proofs.DerivedReads
import Polyquery.Proofs.Made
import Polyquery.Proofs.Settled
import Polyquery.Proofs.Errands
import Polyquery.Proofs.Prefixes
import Polyquery.Proofs.Collector
import Polyquery.Proofs.Excerpt
import Polyquery.Proofs.Edits
