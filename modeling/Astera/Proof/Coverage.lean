import Astera.Pool.System

/-!
# Collateral of a loan funded in parts

`fund_invoice` compares the collateral with what the principal of the present call requires, while
the record accumulates principal.  It is covered as long as every call covers the sum.
-/

namespace Astera.Pool

open Fallible Transition

variable {W : Type}

/-- An unsettled deposit for the invoice is at least the configured part of `principal`. -/
def DepositCovers (s : State W) (invoiceId : ℕ) (principal : ℤ) : Prop :=
  ∃ d, s.collateral.get invoiceId = some d ∧ d.settled = false ∧
    principal * s.params.collateralConfig.collateralBps / 10000 ≤ d.amount

/-- A recorded principal at or above the threshold is covered. -/
def Covered (s : State W) (invoiceId : ℕ) : Prop :=
  ∀ record, s.funded.get invoiceId = some record →
    s.params.collateralConfig.threshold ≤ record.principal →
    DepositCovers s invoiceId record.principal

def recordedPrincipal (s : State W) (invoiceId : ℕ) : ℤ :=
  ((s.funded.get invoiceId).map FundedInvoice.principal).getD 0

end Astera.Pool
