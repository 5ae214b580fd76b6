import Astera.Invoices.Types

/-!
# Data of the insurance reserve

The records, the errors and the constants of the insurance contract, with its names.
-/

namespace Astera.Insurance

inductive InsuranceError
  | AlreadyInitialized | NotInitialized | Unauthorized | ContractPaused | InvalidAmount
  | InvalidCoverageBps | InvalidPremiumConfig | InvalidMinCoverageRatio
  | CoverageRatioFloorBreached | AlreadyCovered | NoCoverageFound | InvoiceNotDefaulted
  | NoShortfall | AlreadyClaimed | AmountOverflow | FundedInvoiceNotFound | PoolCallFailed
  | InsufficientReserves
  deriving DecidableEq, Repr

inductive Fault
  | error (e : InsuranceError)
  | auth
  /-- A token transfer that the sender cannot make. -/
  | token
  /-- A call into another contract that failed. -/
  | call
  | overflow
  deriving DecidableEq, Repr

abbrev Res := Except Fault

def bpsDenom : ℕ := 10_000

def secsPerDay : ℕ := 86_400

def maxRiskMultiplierBps : ℕ := 100_000

structure RiskTier where
  minScore : ℕ
  maxScore : ℕ
  riskMultiplierBps : ℕ
  deriving DecidableEq, Repr

structure PremiumConfig where
  baseRateBps : ℕ
  tenorBpsPerDay : ℕ
  riskTiers : List RiskTier
  defaultRiskMultiplierBps : ℕ
  minPremiumBps : ℕ
  maxPremiumBps : ℕ
  defaultCoverageBps : ℕ
  deriving DecidableEq, Repr

structure ReserveFund where
  totalReserves : ℤ := 0
  totalPremiumsCollected : ℤ := 0
  totalClaimsPaid : ℤ := 0
  totalCoveredExposure : ℤ := 0
  coverageRatioBps : ℕ := 0
  minCoverageRatioBps : ℕ := 0
  deriving DecidableEq, Repr

structure CoverageRecord where
  invoiceId : ℕ
  token : Address
  principal : ℤ
  premiumPaid : ℤ
  coverageBps : ℕ
  purchasedAt : ℕ
  claimed : Bool
  paidToDate : ℤ
  deriving DecidableEq, Repr

structure ClaimHistoryItem where
  invoiceId : ℕ
  token : Address
  payout : ℤ
  shortfalls : ℤ
  timestamp : ℕ
  deriving DecidableEq, Repr

structure Config where
  admin : Address
  poolContract : Address
  invoiceContract : Address
  deriving DecidableEq, Repr

/-- `CreditScoreData`, as far as the reserve reads it. -/
structure CreditScoreData where
  score : ℕ
  blendedScore : ℕ
  deriving DecidableEq, Repr

/-- `FundedInvoiceView`, as far as the reserve reads it. -/
structure FundedInvoiceView where
  principal : ℤ
  repaidAmount : ℤ
  deriving DecidableEq, Repr

/-- `CollateralDepositView`, as far as the reserve reads it. -/
structure CollateralDepositView where
  settled : Bool
  settledPrice : ℤ
  deriving DecidableEq, Repr

end Astera.Insurance
