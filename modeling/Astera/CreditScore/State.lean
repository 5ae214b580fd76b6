import Astera.CreditScore.Types

/-!
# The arithmetic and the storage of the credit score contract

One field for each kind of `DataKey`; an entry that is read with a default is kept with it.  The
contract calls no other contract.  Time-to-live extensions, events, the upgrade of the code and the
migration level are left out.
-/

namespace Astera.CreditScore

open Fallible Machine
open Invoices (Bytes)

/-! ## The arithmetic of the scores

Products of `i32` values and sums of counters are checked; the `i64` sums of the score and the
`i128` sums of the signals cannot leave their range.
-/

/-- `Ord::clamp`, which panics when the ends are the wrong way round. -/
def clamp (lo hi x : ℤ) : Res ℤ :=
  if lo ≤ hi then .ok (max lo (min hi x)) else .error .clamp

def calculateDaysLate (dueDate paidAt : ℕ) : ℤ :=
  if dueDate < paidAt then (toI 64 (paidAt - dueDate - 1 : ℕ)).tdiv secsPerDay + 1
  else -(toI 64 (dueDate - paidAt : ℕ)).tdiv secsPerDay

/-- One of the three `i32` products of the score. -/
def pointsFor (count : ℕ) (pts : ℤ) : Res ℤ := okOr (fitI 32 (toI 32 count * pts)) .overflow

def milestonePoints (bonuses : ScoreBonusConfig) (milestoneCount : ℕ) : ℤ :=
  (if bonuses.invBonusThr1 ≤ milestoneCount then bonuses.invBonusPts else 0) +
    (if bonuses.invBonusThr2 ≤ milestoneCount then bonuses.invBonusPts else 0) +
    (if bonuses.invBonusThr3 ≤ milestoneCount then bonuses.invBonusPts else 0)

def averagePoints (averages : ScoreAverageConfig) (lateThreshold averagePaymentDays : ℤ) : ℤ :=
  if averagePaymentDays < 0 then averages.avgNegPts
  else if averagePaymentDays < averages.avgDaysLt3 then averages.avgLt3Pts
  else if averagePaymentDays < averages.avgDaysLt7 then averages.avgLt7Pts
  else if lateThreshold < averagePaymentDays then averages.avgOverLatePts
  else 0

def volumePoints (bonuses : ScoreBonusConfig) (totalVolume : ℤ) : ℤ :=
  if bonuses.volBonusThr3 < totalVolume then bonuses.volBonusPts3
  else if bonuses.volBonusThr2 < totalVolume then bonuses.volBonusPts2
  else if bonuses.volBonusThr1 < totalVolume then bonuses.volBonusPts1
  else 0

/-- `calculate_score_with_config`; inconsistent counters only raise an event. -/
def calculateScoreWithConfig (config : ScoringConfig) (lateThreshold : ℤ)
    (totalInvoices paidOnTime paidLate defaulted : ℕ) (totalVolume averagePaymentDays : ℤ)
    (milestoneCount : ℕ) : Res ℕ :=
  if totalInvoices = 0 then return minScore
  else do
    let onTime ← pointsFor paidOnTime config.core.paidOnTimePts
    let late ← pointsFor paidLate config.core.paidLatePts
    let lost ← pointsFor defaulted config.core.defaultedPts
    let score := config.core.baseScore + onTime + late + lost +
      milestonePoints config.bonuses milestoneCount +
      averagePoints config.averages lateThreshold averagePaymentDays +
      volumePoints config.bonuses totalVolume
    if score < config.core.minScore then return config.core.minScore
    else if config.core.maxScore < score then return config.core.maxScore
    else return score.toNat

def calculateAveragePaymentDays (paidOnTime paidLate : ℕ) (totalLateDays : ℤ) : Res ℤ := do
  let totalPaid ← okOr (fitU 32 (paidOnTime + paidLate)) .overflow
  if totalPaid = 0 then return 0 else return totalLateDays.tdiv totalPaid

def computeExternalComponent (signals : List (ℕ × ℕ)) (minScore maxScore : ℕ) :
    Res (Option ℕ) :=
  let weightedSum : ℤ := (signals.map fun signal => (signal.1 : ℤ) * signal.2).sum
  let weightTotal : ℤ := (signals.map fun signal => (signal.1 : ℤ)).sum
  if signals = [] then return none
  else if weightTotal = 0 then return none
  else do
    let avgContribution := weightedSum.tdiv weightTotal
    let range : ℤ := maxScore - minScore
    let scaled ← clamp minScore maxScore
      (minScore + (avgContribution * range).tdiv maxScoreContribution)
    return some scaled.toNat

def blendScore (internalScore : ℕ) (external : Option ℕ) (config : ScoreAttestationConfig)
    (minScore maxScore : ℕ) : Res ℕ :=
  match external with
  | none => return internalScore
  | some externalScore =>
    let totalWeight : ℤ := config.internalWeightBps + config.externalWeightBps
    if totalWeight = 0 then return internalScore
    else do
      let blended ← clamp minScore maxScore
        (((internalScore : ℤ) * config.internalWeightBps +
          externalScore * config.externalWeightBps).tdiv totalWeight)
      return blended.toNat

def hashAttestationPairs (pairs : List (ℕ × ℕ)) (generation : ℕ) : ℕ :=
  let mix := fun h x => (h * 31 + x) % 2 ^ 64
  mix (pairs.foldl (fun h pair => mix (mix h pair.1) pair.2) 0) generation

def packRiskSignal (debtorConcentrationBps invoiceSizeRiskBps : ℕ) : ℕ :=
  (debtorConcentrationBps <<< 16) ||| invoiceSizeRiskBps

def unpackRiskSignal (packed : ℕ) : ℕ × ℕ := (packed >>> 16, packed &&& 0xFFFF)

/-- `compute_risk_adjustment`, from the signal that is stored. -/
def computeRiskAdjustment (packed : Option ℕ) : ℤ :=
  match packed with
  | none => 0
  | some packed =>
    let signal := unpackRiskSignal packed
    (if debtorConcenThreshBps ≤ signal.1 then debtorConcenPenaltyPts else 0) +
      (if sizeRiskThreshBps ≤ signal.2 then sizeRiskPenaltyPts else 0)

def computeTrendAdjustment (history : List PaymentRecord) (totalInvoices paidOnTime : ℕ) : ℤ :=
  if totalInvoices < trendWindow ∨ history.length < trendWindow then 0
  else
    let recent := history.drop (history.length - trendWindow)
    let recentOnTime := (recent.filter fun record => record.status = .PaidOnTime).length
    if recent.length = 0 then 0
    else
      let recentRateBps : ℤ := ((recentOnTime : ℤ) * 10000).tdiv recent.length
      let lifetimeRateBps : ℤ := ((paidOnTime : ℤ) * 10000).tdiv totalInvoices
      if lifetimeRateBps + 100 < recentRateBps then trendImprovingBonusPts
      else if recentRateBps < lifetimeRateBps - 100 then trendDegradingPenaltyPts
      else 0

/-! ## The storage -/

structure Config where
  admin : Address
  invoiceContract : Address
  poolContract : Address
  paused : Bool := false
  accessControl : Option Address := none
  maxPaymentHistory : ℕ := CreditScore.maxPaymentHistory
  scoring : ScoringConfig := {}
  lateThreshold : ℤ := 30
  scoreThresholds : ScoreThresholds := {}
  pendingAdmin : Option Address := none
  adminChangeScheduledAt : Option ℕ := none

/-- The payment history of an SME: the number of records, the slot of the oldest one, and the
slots. -/
structure Window where
  length : ℕ := 0
  start : ℕ := 0
  slots : ℕ → Option PaymentRecord := fun _ => none

/-- A record enters the payment history: it is added while the history is short, and overwrites the
oldest one otherwise. -/
def Window.push (w : Window) (maxHistory : ℕ) (record : PaymentRecord) : Window :=
  if w.length < maxHistory then
    { w with length := w.length + 1, slots := Function.update w.slots w.length (some record) }
  else
    { w with
      start := (w.start + 1) % maxHistory
      slots := Function.update w.slots w.start (some record) }

/-- What is stored about the SMEs and their invoices. -/
structure Ledger where
  creditScore : Address → Option CreditScoreData := fun _ => none
  /-- `PaymentHistory`, `PaymentHistoryStart` and `PaymentRecordIdx`. -/
  history : Address → Window := fun _ => {}
  paymentRecordScoreVersion : ℕ → Option ℕ := fun _ => none
  invoiceProcessed : ℕ → Bool := fun _ => false
  milestoneCount : Address → ℕ := fun _ => 0
  /-- `SmeLateThreshold`, which no entrypoint reads. -/
  smeLateThreshold : Address → Option ℤ := fun _ => none
  scoreHistory : Address → List ScoreSnapshot := fun _ => []

structure Registry where
  smeCount : ℕ := 0
  smeByIndex : ℕ → Option Address := fun _ => none

/-- What others say about the SMEs. -/
structure Signals where
  riskSignal : Address → Option ℕ := fun _ => none
  attestor : Address → Option AttestorInfo := fun _ => none
  activeAttestorList : List Address := []
  attestationCount : ℕ := 0
  attestation : ℕ → Option Attestation := fun _ => none
  smeAttestations : Address → List ℕ := fun _ => []
  attestationDisputeReason : ℕ → Option Bytes := fun _ => none
  attestationGeneration : Address → ℕ := fun _ => 0
  simulateScoreCache : Address → ℕ → Option SimulateScoreCacheEntry := fun _ _ => none

structure State extends Ledger, Registry, Signals where
  now : ℕ
  config : Config

/-- The state that `initialize` leaves. -/
def initialState (now : ℕ) (admin invoiceContract poolContract : Address) : State where
  now := now
  config :=
    { admin := admin
      invoiceContract := invoiceContract
      poolContract := poolContract }

def requireAuth (signers : List Address) (a : Address) : Res Unit := require (a ∈ signers) .auth

namespace State

variable (s : State)

def requireNotPaused : Res Unit := require (s.config.paused = false) (.error .ContractPaused)

def requireAdmin (admin : Address) : Res Unit :=
  require (admin = s.config.admin) (.error .Unauthorized)

def requireAccessControl (caller : Address) : Res Unit :=
  match s.config.accessControl with
  | some configured => require (configured = caller) (.error .Unauthorized)
  | none => .error (.error .AccessControlNotConfigured)

def freshData (sme : Address) : CreditScoreData where
  sme := sme
  score := s.config.scoring.core.minScore
  lastUpdated := s.now
  scoreVersion := s.config.scoring.core.scoreVersion

def register (sme : Address) : Res State := do
  let smeCount ← okOr (fitU 32 (s.smeCount + 1)) .overflow
  return { s with
    smeCount := smeCount
    smeByIndex := Function.update s.smeByIndex s.smeCount (some sme) }

/-- `get_or_create_credit_data`: an SME without a record is entered in the registry, whether or not
it is there already, and no record is stored. -/
def getOrCreateCreditData (sme : Address) : Res (State × CreditScoreData) :=
  match s.creditScore sme with
  | some data => return (s, data)
  | none => do
      let s' ← s.register sme
      return (s', s.freshData sme)

/-- The slot of the payment history that is `offset` after the oldest one. -/
def slotAt (sme : Address) (offset : ℕ) : Res ℕ := do
  let i ← okOr (fitU 32 ((s.history sme).start + offset)) .overflow
  return i % s.config.maxPaymentHistory

/-- `get_payment_history`: a slot without a record is passed over. -/
def getPaymentHistory (sme : Address) : Res (List PaymentRecord) :=
  (List.range (s.history sme).length).foldlM (fun records offset => do
    let i ← s.slotAt sme offset
    return records ++ ((s.history sme).slots i).toList) []

def getPaymentRecord (sme : Address) (index : ℕ) : Res (Option PaymentRecord) :=
  if (s.history sme).length ≤ index then return none
  else do
    let i ← s.slotAt sme index
    return (s.history sme).slots i

def maybeExpireAttestation (a : Attestation) : State × Attestation :=
  if a.status ≠ .Active then (s, a)
  else if s.now ≤ a.expiresAt then (s, a)
  else
    let expired := { a with status := .Expired }
    ({ s with attestation := Function.update s.attestation a.id (some expired) }, expired)

def loadAttestation (id : ℕ) : State × Option Attestation :=
  match s.attestation id with
  | none => (s, none)
  | some a =>
    let (s', a') := s.maybeExpireAttestation a
    (s', some a')

/-- One turn of the loop of `collect_active_attestation_signals`. -/
def collectSignal (x : State × List (ℕ × ℕ)) (id : ℕ) : State × List (ℕ × ℕ) :=
  match x.1.loadAttestation id with
  | (s', none) => (s', x.2)
  | (s', some a) =>
    if a.status = .Active then
      match s'.attestor a.attestor with
      | some info => (s', x.2 ++ [(info.weightBps, a.scoreContribution)])
      | none => (s', x.2)
    else (s', x.2)

def collectActiveAttestationSignals (sme : Address) : State × List (ℕ × ℕ) :=
  (s.smeAttestations sme).foldl collectSignal (s, [])

def computeBlendedScore (sme : Address) (internalScore : ℕ) : Res (State × ℕ) := do
  let core := s.config.scoring.core
  let (s', signals) := s.collectActiveAttestationSignals sme
  let external ← computeExternalComponent signals core.minScore core.maxScore
  let blended ← blendScore internalScore external s.config.scoring.attestation core.minScore
    core.maxScore
  return (s', blended)

def bumpAttestationGeneration (sme : Address) : State :=
  { s with
    attestationGeneration := Function.update s.attestationGeneration sme
      (min (s.attestationGeneration sme + 1) (2 ^ 32 - 1)) }

end State

end Astera.CreditScore
