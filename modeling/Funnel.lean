import Funnel.Calendar.Date
import Funnel.Calendar.Iso
import Funnel.Calendar.Moment
import Funnel.Calendar.Zone
import Funnel.Catalog.Attribution
import Funnel.Catalog.Audit
import Funnel.Catalog.Metric
import Funnel.Catalog.Registry
import Funnel.Catalog.Table
import Funnel.Catalog.Terms
import Funnel.DataView.Account
import Funnel.DataView.Side
import Funnel.DataView.Users
import Funnel.Display
import Funnel.Engine
import Funnel.Fault
import Funnel.Filter.Check
import Funnel.Filter.Condition
import Funnel.Filter.Identifier
import Funnel.Filter.Request
import Funnel.Filter.Standard
import Funnel.Hours.Shift
import Funnel.Hours.Window
import Funnel.Json.Reader
import Funnel.Json.Writer
import Funnel.Named
import Funnel.Names
import Funnel.Number.Binary
import Funnel.Number.Decimal
import Funnel.Number.Decimal.Arithmetic
import Funnel.Number.Division
import Funnel.Number.Fixed
import Funnel.Number.Numeral
import Funnel.Number.Power
import Funnel.Number.Shortest
import Funnel.Number.Sum
import Funnel.Plan.Chart
import Funnel.Plan.Formula
import Funnel.Plan.Generic
import Funnel.Plan.Options
import Funnel.Pool
import Funnel.Query.Bound
import Funnel.Query.Guard
import Funnel.Query.Parser
import Funnel.Query.Placeholder
import Funnel.Query.Select
import Funnel.Recognizer.Goal
import Funnel.Recognizer.Grammar
import Funnel.Recognizer.Operand
import Funnel.Recognizer.Signature
import Funnel.Recognizer.Source
import Funnel.Recognizer.Statement
import Funnel.Recognizer.Token
import Funnel.Recognizer.Vocabulary
import Funnel.Result
import Funnel.Series.Bucket
import Funnel.Store.Remote
import Funnel.Store.Session
import Funnel.Text.Blank
import Funnel.Text.Case
import Funnel.Text.Digit
import Funnel.Text.Printable
import Funnel.Text.Quoted
import Funnel.Text.Ranges
import Funnel.Text.Word
import Funnel.Value
import Funnel.Value.Coerce
import Funnel.Value.Compare
import Funnel.Value.Figure
import Funnel.Web.Query
import Funnel.Web.Route
import Funnel.Wire.Check
import Funnel.Wire.Read
import Funnel.Wire.Write
import Funnel.Work.Day
import Funnel.Work.Derive
import Funnel.Proofs.Query.Splits
import Funnel.Proofs.Query.Words
import Funnel.Proofs.Query.Keywords
import Funnel.Proofs.Query.Lexical
import Funnel.Proofs.Query.Guard
import Funnel.Proofs.Store.Asks
import Funnel.Proofs.Named
import Funnel.Proofs.Query.Placeholders
import Funnel.Proofs.Filter.Conditions
import Funnel.Proofs.Query.Plain
import Funnel.Proofs.Catalog.Texts
import Funnel.Proofs.Filter.Conjuncts
import Funnel.Proofs.Plan.Draft
import Funnel.Proofs.Query.Tenancy
import Funnel.Proofs.Plan.Fragments
import Funnel.Proofs.Plan.Isolation
import Funnel.Proofs.Engine.Isolation
import Funnel.Proofs.Filter.Checked
import Funnel.Proofs.Plan.Form
import Funnel.Proofs.Calendar.Months
import Funnel.Proofs.Series.Buckets
import Funnel.Proofs.Filter.Bound
import Funnel.Proofs.Plan.Binding
import Funnel.Proofs.Plan.Narrowing
import Funnel.Proofs.Fault
import Funnel.Proofs.Result
import Funnel.Proofs.Engine.Answer
import Funnel.Proofs.Series.Partition
import Funnel.Proofs.Calendar.Iso
import Funnel.Proofs.Store.Gives
import Funnel.Proofs.Pool
import Funnel.Proofs.Engine.Steady
import Funnel.Proofs.Engine.Pointwise
import Funnel.Proofs.DataView.Profiles
import Funnel.Proofs.DataView.Cells
import Funnel.Proofs.DataView.Ownership
import Funnel.Proofs.Number.Bits
import Funnel.Proofs.Number.Nearest
import Funnel.Proofs.Display
import Funnel.Proofs.DataView.Figure
import Funnel.Proofs.DataView.Table
import Funnel.Proofs.Pool.History
import Funnel.Proofs.Pool.Failing
import Funnel.Proofs.Store.Faults
import Funnel.Proofs.Store.Between
import Funnel.Proofs.Filter.Disguise
import Funnel.Proofs.Engine.Disguise
import Funnel.Proofs.Plan.Denominators
import Funnel.Proofs.Engine.Cost
import Funnel.Proofs.Number.Whole
import Funnel.Proofs.Series.Tally
import Funnel.Proofs.DataView.Counts
import Funnel.Proofs.DataView.PeriodRows
import Funnel.Proofs.DataView.Periods
import Funnel.Proofs.Work.Callers
import Funnel.Proofs.Work.Narrowing
import Funnel.Proofs.DataView.Answered
import Funnel.Proofs.DataView.Rejection
import Funnel.Proofs.DataView.Reasons
import Funnel.Proofs.Plan.Reps
import Funnel.Proofs.Plan.Nothing
import Funnel.Proofs.Engine.Gaps
import Funnel.Proofs.Engine.Spelling
import Funnel.Proofs.DataView.Spelling
import Funnel.Proofs.Filter.Spelling
import Funnel.Proofs.Engine.Coverage
import Funnel.Proofs.Store.Remote
import Funnel.Proofs.Catalog.Families
import Funnel.Proofs.Catalog.Queryable
import Funnel.Proofs.Query.Productions
import Funnel.Proofs.Query.Derived
import Funnel.Proofs.Query.Phrases
import Funnel.Proofs.Filter.Phrases
import Funnel.Proofs.Catalog.Phrases
import Funnel.Proofs.Plan.Phrases
import Funnel.Proofs.Plan.Statements
import Funnel.Proofs.Plan.Accepted
import Funnel.Proofs.Wire.Reads
import Funnel.Proofs.Wire.RoundTrip
import Funnel.Proofs.Calendar.Clock
import Funnel.Proofs.Calendar.Instants
import Funnel.Proofs.Hours.Opening
import Funnel.Proofs.Hours.NextOpen
import Funnel.Proofs.Hours.Forward
import Funnel.Proofs.Hours.Stored
import Funnel.Proofs.Work.Grouping
import Funnel.Proofs.Series.Alignment
import Funnel.Proofs.Number.Numeral
import Funnel.Proofs.Value.Coercion
import Funnel.Proofs.Number.Order
import Funnel.Proofs.Number.Quotient
import Funnel.Proofs.Plan.RepRows
import Funnel.Proofs.Plan.Allocation
import Funnel.Proofs.Series.Length
import Funnel.Proofs.Hours.Longest
import Funnel.Proofs.Engine.Lookup
import Funnel.Proofs.Number.Unsigned
import Funnel.Proofs.Plan.Speed
import Funnel.Proofs.Query.Occurrences
import Funnel.Proofs.Calendar.Written
import Funnel.Proofs.Number.Units
import Funnel.Proofs.Number.Rounded
import Funnel.Proofs.Number.Floored
import Funnel.Proofs.Value.Compared
import Funnel.Proofs.Display.Unit
import Funnel.Proofs.Display.Readable
import Funnel.Proofs.Filter.Adding
