import RowQuery.Proofs.Predicate.Decision
import RowQuery.Proofs.Search.Pages

/-!
# What a search asks its source

Whatever the source answers, a search asks the questions of its query
(`PreparedQuery.questions`) one after the other, up to the first that the source
answers with an error. That error is what the search returns; if there is none,
it returns what the answers report (`PreparedQuery.Reports`), and nothing else
about the source matters.
-/

namespace RowQuery

variable {R O ε : Type}

/-! ## Questions and answers -/

namespace Except

end Except

namespace SourceCall

end SourceCall

namespace PreparedQuery

section Search

variable (prepared : PreparedQuery R O) (source : Source R ε) (base : RowPlan R)

end Search

end PreparedQuery

end RowQuery
