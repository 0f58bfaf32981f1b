import Verdict.Proofs.Expr.Untriggered
import Verdict.Proofs.Pruning.Kept
import Verdict.Proofs.Pruning.WhereClauses

/-! What is kept refers to nothing that is not.

Whoever reads the kept declarations and the trimmed body finds every constant and function
declared that they mention, as long as it takes part in dependencies. Two facts carry this: a
symbol that the body mentions is needed (`needed_of_mentioned`), and so is one that something
at the end of a chain mentions (`needed_of_outgoing`), since a function is relevant to whoever
mentions it and a constant needs no more than to be mentioned. -/
namespace Verdict

namespace Program
variable {p : Program} {mentioned : DeclId → Prop} {id : DeclId} {d : Declaration}

end Program

namespace Pruning
variable {p : Program} {implementation : DeclId} {blocks : List Block} {id : DeclId}
  {d : Declaration}

end Pruning

end Verdict
