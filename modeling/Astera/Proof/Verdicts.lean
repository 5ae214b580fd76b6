import Astera.Arbitration.Court

/-!
# Verdicts and slashing

A verdict needs a quorum of revealed votes and follows their majority, a tie standing for the SME.
The minority is slashed when the winning share reaches the confidence, which a tie does at any
confidence of half or less.
-/

namespace Astera.Arbitration

open Fallible Machine Transition
open Invoices (Bytes DisputeResolution)

variable {W : Type} {s s' : State W} {a juror : Address} {n : ℕ}

section Loop

variable {outcome lopsided : Bool} {acc acc' : State W × ℤ} {revealed : List (Address × Bool)}

end Loop

end Astera.Arbitration
