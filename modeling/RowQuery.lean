import RowQuery.Compile.Extensions
import RowQuery.Compile.Filter
import RowQuery.Proofs.Plan.SortChain
import RowQuery.Query.Encode
import RowQuery.Search.Searcher
import RowQuery.Proofs.Plan.Meaning
import RowQuery.Proofs.Search.BuiltPlan
import RowQuery.Proofs.Search.Pages
import RowQuery.Proofs.Schema.Declaration
import RowQuery.Proofs.Compile.Answer
import RowQuery.Proofs.Predicate.Evaluate
import RowQuery.Proofs.Compile.Meaning
import RowQuery.Proofs.Compile.Acceptance
import RowQuery.Proofs.Query.Acceptance
import RowQuery.Proofs.Query.RoundTrip
import RowQuery.Proofs.Compile.Leaf
import RowQuery.Proofs.Compile.Relations
import RowQuery.Proofs.Value.Numbers
import RowQuery.Proofs.Compile.Membership
import RowQuery.Proofs.Search.Commute
import RowQuery.Proofs.Search.OrderChain
import RowQuery.Proofs.Schema.ColumnOrder
import RowQuery.Proofs.Compile.Extension
import RowQuery.Proofs.Schema.Alignment
import RowQuery.Proofs.Compile.Derivation
import RowQuery.Proofs.Predicate.Decision
import RowQuery.Proofs.Predicate.Scope
import RowQuery.Proofs.Compile.Scope
import RowQuery.Proofs.Compile.Demand
import RowQuery.Proofs.Compile.Relaxation
import RowQuery.Proofs.Text.Pieces
import RowQuery.Proofs.Query.PageSize
import RowQuery.Proofs.Time.RoundTrip
import RowQuery.Proofs.Value.IntegerLiteral
import RowQuery.Proofs.Predicate.Congruence
import RowQuery.Proofs.Value.Casting
import RowQuery.Proofs.Search.Questions
import RowQuery.Proofs.Value.Ties
import RowQuery.Proofs.Search.Window
import RowQuery.Proofs.Text.Turns
