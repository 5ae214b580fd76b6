import Astera.Invoices.Types

/-!
# The data of the credit score contract

The records of the credit score contract under the names of its source, with the defaults of its
scoring configuration and the errors it raises.
-/

namespace Astera.CreditScore

open Invoices (Bytes)

inductive CreditScoreError
  | AlreadyInitialized | Unauthorized | ContractPaused | InvoiceAlreadyProcessed
  | InvalidThresholds | InvalidLateThreshold | PaymentHistoryLimitZero
  | UpgradeTimelockNotExpired | NoUpgradeProposed | InvalidUpgradeTimelock | InvalidWasmHash
  | AdminChangePending | AdminChangeTimelockNotExpired | NoAdminChangeProposed | AttestorNotFound
  | AttestorInactive | InvalidAttestorWeight | InvalidScoreContribution | InvalidAttestationExpiry
  | AttestationNotFound | AttestationNotActive | UnauthorizedDisputeCaller | DisputeNotFound
  | InvalidAttestationConfig | AccessControlNotConfigured | InvalidAttestorType | InvalidRiskSignal
  | InvalidScoringConfig
  deriving DecidableEq, Repr

/-- Why a call failed.  The host undoes all that a failed call did. -/
inductive Fault
  | error (e : CreditScoreError)
  | auth
  | overflow
  /-- A `clamp` whose lower end is above its upper end. -/
  | clamp
  deriving DecidableEq, Repr

abbrev Res := Except Fault

/-! ## Constants -/

def secsPerDay : ℕ := 24 * 60 * 60

def minScore : ℕ := 200

def maxScore : ℕ := 850

def baseScore : ℕ := 500

def latePaymentThresholdSecs : ℕ := 7 * 24 * 60 * 60

def adminChangeTimelockSecs : ℕ := 172800

def maxPaymentHistory : ℕ := 100

def maxScoreHistory : ℕ := 100

def maxSmePageSize : ℕ := 100

def maxWeightBps : ℕ := 10000

def maxScoreContribution : ℕ := 1000

def maxAttestationHorizonSecs : ℕ := 2 * 365 * 24 * 60 * 60

def simulateCacheTtlSecs : ℕ := 30

def debtorConcenThreshBps : ℕ := 5000

def debtorConcenPenaltyPts : ℤ := -15

def sizeRiskThreshBps : ℕ := 5000

def sizeRiskPenaltyPts : ℤ := -10

def trendWindow : ℕ := 10

def trendImprovingBonusPts : ℤ := 10

def trendDegradingPenaltyPts : ℤ := -15

inductive PaymentStatus
  | PaidOnTime | PaidLate | Defaulted
  deriving DecidableEq, Repr

structure PaymentRecord where
  invoiceId : ℕ
  sme : Address
  amount : ℤ
  dueDate : ℕ
  paidAt : ℕ
  status : PaymentStatus
  daysLate : ℤ
  deriving DecidableEq, Repr

structure ScoreSnapshot where
  score : ℕ
  invoiceId : ℕ
  recordedAt : ℕ
  deriving DecidableEq, Repr

structure CreditScoreData where
  sme : Address
  score : ℕ
  totalInvoices : ℕ := 0
  paidOnTime : ℕ := 0
  paidLate : ℕ := 0
  defaulted : ℕ := 0
  totalVolume : ℤ := 0
  averagePaymentDays : ℤ := 0
  lastUpdated : ℕ
  scoreVersion : ℕ
  deriving DecidableEq, Repr

structure SmeScoreEntry where
  sme : Address
  score : ℕ
  deriving DecidableEq, Repr

structure ScoreCoreConfig where
  paidOnTimePts : ℤ := 30
  paidLatePts : ℤ := 15
  defaultedPts : ℤ := -50
  baseScore : ℕ := CreditScore.baseScore
  minScore : ℕ := CreditScore.minScore
  maxScore : ℕ := CreditScore.maxScore
  scoreVersion : ℕ := 1
  deriving DecidableEq, Repr

structure ScoreAverageConfig where
  avgNegPts : ℤ := 20
  avgLt3Pts : ℤ := 15
  avgLt7Pts : ℤ := 10
  avgOverLatePts : ℤ := -15
  avgDaysLt3 : ℤ := 3
  avgDaysLt7 : ℤ := 7
  deriving DecidableEq, Repr

structure ScoreBonusConfig where
  invBonusThr1 : ℕ := 5
  invBonusThr2 : ℕ := 10
  invBonusThr3 : ℕ := 20
  invBonusPts : ℤ := 5
  volBonusThr1 : ℤ := 1000000000
  volBonusThr2 : ℤ := 10000000000
  volBonusThr3 : ℤ := 100000000000
  volBonusPts1 : ℤ := 5
  volBonusPts2 : ℤ := 15
  volBonusPts3 : ℤ := 25
  minMilestoneVolume : ℤ := 100000000
  deriving DecidableEq, Repr

structure ScoreAttestationConfig where
  internalWeightBps : ℕ := 7000
  externalWeightBps : ℕ := 3000
  deriving DecidableEq, Repr

/-- `ScoringConfig`; the default values are those of `ScoringConfig::defaults`. -/
structure ScoringConfig where
  core : ScoreCoreConfig := {}
  averages : ScoreAverageConfig := {}
  bonuses : ScoreBonusConfig := {}
  attestation : ScoreAttestationConfig := {}
  deriving DecidableEq, Repr

/-- `ScoreThresholds`; the default values are those of `ScoreThresholds::defaults`. -/
structure ScoreThresholds where
  excellent : ℕ := 800
  veryGood : ℕ := 740
  good : ℕ := 670
  fair : ℕ := 580
  deriving DecidableEq, Repr

inductive AttestorType
  | BusinessRegistry | CreditBureau | ExternalProtocol | Manual
  deriving DecidableEq, Repr

structure AttestorInfo where
  address : Address
  attestorType : AttestorType
  isActive : Bool
  weightBps : ℕ
  registeredAt : ℕ
  deriving DecidableEq, Repr

inductive AttestationStatus
  | Active | Disputed | Revoked | Expired
  deriving DecidableEq, Repr

structure Attestation where
  id : ℕ
  sme : Address
  attestor : Address
  attestationType : AttestorType
  scoreContribution : ℕ
  evidenceHash : Bytes
  submittedAt : ℕ
  expiresAt : ℕ
  status : AttestationStatus
  deriving DecidableEq, Repr

structure SimulateScoreCacheEntry where
  result : ℕ
  cachedAt : ℕ
  deriving DecidableEq, Repr

structure CreditScoreResponse where
  sme : Address
  score : ℕ
  totalInvoices : ℕ
  paidOnTime : ℕ
  paidLate : ℕ
  defaulted : ℕ
  totalVolume : ℤ
  averagePaymentDays : ℤ
  lastUpdated : ℕ
  scoreVersion : ℕ
  configVersion : ℕ
  isStale : Bool
  blendedScore : ℕ
  riskAdjustmentPts : ℤ
  trendAdjustmentPts : ℤ
  finalScore : ℕ
  deriving DecidableEq, Repr

end Astera.CreditScore
