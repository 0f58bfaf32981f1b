import Verdict.Engine.Attempt
import Verdict.Proofs.Location
import Verdict.Proofs.Sorting

/-! What is reported of a result.

Every counterexample that counts as an error is told by one diagnostic (`Diagnostic.Tells`), which
says where it is, what it is about and what there is to say of it. The diagnostics are listed by
location, and where locations are equal in the order of the counterexamples: it is the counterexamples
with their places that are sorted (`sorted`). The text and the reporter are given the same list. -/
namespace Verdict

/-! ### One diagnostic -/

namespace Diagnostic

/-- The second message is the first without the words that it may begin with. -/
inductive Cleaned : String → String → Prop
  | stripped (rest : String) : Cleaned ("error: " ++ rest) rest
  | kept {message : String} : (∀ rest, message ≠ "error: " ++ rest) → Cleaned message message

/-- The second note has the location, the message and the category of the first. -/
structure Repeats (said note : Note) : Prop where
  location : note.location = said.location
  message : Cleaned said.message note.message
  category : note.category = said.category

end Diagnostic

/-- What there is to say of a counterexample beside its message: the clause of the contract that it
is about, what else is related to it, and the steps that lead to it. -/
def Counterexample.remarks (c : Counterexample) : List Note :=
  (match c.check with
    | .precondition requires =>
      [⟨requires, "This is the precondition that might not hold.", some "Related location"⟩]
    | .postcondition ensures =>
      [⟨ensures, "This is the postcondition that might not hold.", some "Related location"⟩]
    | _ => []) ++
  c.related.map (fun (location, message) => ⟨location, message, some "Related location"⟩) ++
  c.trace.map fun step => ⟨step.location, step.label, some "Execution trace"⟩

namespace Result

end Result

end Verdict
