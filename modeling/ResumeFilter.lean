import ResumeFilter.Backend.Borrowed
import ResumeFilter.Backend.Tally
import ResumeFilter.Backend.Transcript
import ResumeFilter.Journal
import ResumeFilter.Proofs.Decimal.RoundTrip
import ResumeFilter.Proofs.Lowering.Plan
import ResumeFilter.Proofs.Query.Grammar
import ResumeFilter.Proofs.Query.Literal
import ResumeFilter.Proofs.Query.Parsing
import ResumeFilter.Proofs.Query.Printable
import ResumeFilter.Proofs.Query.RoundTrip
import ResumeFilter.Proofs.Query.Spelling
import ResumeFilter.Proofs.Sql.Binding
import ResumeFilter.Proofs.Sql.Formula
import ResumeFilter.Proofs.Sql.Lowered
import ResumeFilter.Proofs.Sql.Meaning
import ResumeFilter.Proofs.Sql.Reader
import ResumeFilter.Proofs.Sql.Reading
import ResumeFilter.Proofs.Sql.Words
import ResumeFilter.Proofs.Text.Place
import ResumeFilter.Proofs.Token.Pattern
import ResumeFilter.Proofs.Token.Tiling
import ResumeFilter.Query.Outline
import ResumeFilter.Query.Traversal
import ResumeFilter.Report
import ResumeFilter.Sql.Session
import ResumeFilter.Proofs.Query.Traversal
import ResumeFilter.Proofs.Lowering.Joins
import ResumeFilter.Proofs.Lowering.Recursion
import ResumeFilter.Proofs.Lowering.Refinement
import ResumeFilter.Proofs.Sql.Building
import ResumeFilter.Proofs.Sql.Scope
import ResumeFilter.Proofs.Query.Literals
import ResumeFilter.Proofs.Sql.Placeholders
import ResumeFilter.Proofs.Query.Alike
import ResumeFilter.Proofs.Query.Lockstep
import ResumeFilter.Proofs.Query.Splicing
import ResumeFilter.Proofs.Sql.Independence
import ResumeFilter.Proofs.Lowering.Failure
import ResumeFilter.Proofs.Query.Beginning
import ResumeFilter.Proofs.Query.Failing
import ResumeFilter.Proofs.Query.Earliest
import ResumeFilter.Proofs.Query.Nesting
import ResumeFilter.Proofs.Query.Limit
import ResumeFilter.Proofs.Sql.Levels
import ResumeFilter.Proofs.Sql.ReadBack
import ResumeFilter.Proofs.Query.Layout
import ResumeFilter.Proofs.Query.Deepest
import ResumeFilter.Proofs.Query.Composing
import ResumeFilter.Proofs.Query.Cheapest
import ResumeFilter.Proofs.Sql.Canonical
import ResumeFilter.Proofs.Sql.Conjunction
import ResumeFilter.Proofs.Sql.Accumulating
import ResumeFilter.Proofs.Query.Number
import ResumeFilter.Proofs.Query.Conversion
import ResumeFilter.Proofs.Query.Places
import ResumeFilter.Proofs.Query.Pointing
import ResumeFilter.Proofs.Report.Drawable
import ResumeFilter.Proofs.Query.Pending
import ResumeFilter.Proofs.Query.Outline
import ResumeFilter.Proofs.Query.Machine
import ResumeFilter.Proofs.Sql.Configuration
import ResumeFilter.Proofs.Lowering.Pending
import ResumeFilter.Proofs.Sql.Pending
