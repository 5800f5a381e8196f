import RowQuery.Plan.Run

/-!
# Sources of rows

A source answers two questions about a plan: which rows it yields, and how many
they are. Either answer may be an error of the source's own. `Source.ofRows`
answers from a list of rows, without error.
-/

namespace RowQuery

/-- Something that runs plans over rows of its own. -/
structure Source (R ε : Type) where
  fetch : RowPlan R → Reading (Except ε (List R))
  count : RowPlan R → Reading (Except ε UInt64)

/-- A question to a source. -/
inductive SourceCall (R : Type) where
  | fetch (plan : RowPlan R)
  | count (plan : RowPlan R)

namespace SourceCall

def isFetch {R : Type} : SourceCall R → Bool
  | .fetch _ => true
  | .count _ => false

def isCount {R : Type} (call : SourceCall R) : Bool := !call.isFetch

end SourceCall

def Source.ofRows {R : Type} (ε : Type) (rows : List R) : Source R ε :=
  { fetch := fun plan => (plan.run rows).map .ok
    count := fun plan => (plan.run rows).map fun yielded => .ok yielded.length.toUInt64 }

end RowQuery
