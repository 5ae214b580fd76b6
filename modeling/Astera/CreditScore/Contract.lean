import Astera.CreditScore.State

/-!
# The entrypoints of the credit score contract

The queries may write: `get_credit_score`, `list_all_sme_stats` and
`simulate_score_with_attestations` enter an SME without a record in the registry, and reading an
attestation may mark it as expired.  An entrypoint that returns a value returns it beside the state.
-/

namespace Astera.CreditScore

open Fallible Machine
open Invoices (Bytes)

section Entrypoints

variable (signers : List Address) (s : State)

/-! ## Recording invoices -/

def CreditScoreData.count (data : CreditScoreData) (status : PaymentStatus) :
    Res CreditScoreData :=
  match status with
  | .PaidOnTime => do
      let paidOnTime ← okOr (fitU 32 (data.paidOnTime + 1)) .overflow
      return { data with paidOnTime := paidOnTime }
  | .PaidLate => do
      let paidLate ← okOr (fitU 32 (data.paidLate + 1)) .overflow
      return { data with paidLate := paidLate }
  | .Defaulted => do
      let defaulted ← okOr (fitU 32 (data.defaulted + 1)) .overflow
      return { data with defaulted := defaulted }

def State.milestoneCountAfter (sme : Address) (record : PaymentRecord) : Res ℕ :=
  if record.status ≠ .Defaulted ∧ s.config.scoring.bonuses.minMilestoneVolume ≤ record.amount then
    okOr (fitU 32 (s.milestoneCount sme + 1)) .overflow
  else return s.milestoneCount sme

/-- The average delay after a record; `data` has the counters after it, `prevPaid` is the number of
paid invoices before it.  A default leaves the average. -/
def CreditScoreData.averageAfter (data : CreditScoreData) (prevPaid : ℕ) (record : PaymentRecord) :
    Res ℤ :=
  if record.status = .Defaulted then return data.averagePaymentDays
  else do
    let product ← okOr (fitI 64 (data.averagePaymentDays * prevPaid)) .overflow
    let sum ← okOr (fitI 64 (product + record.daysLate)) .overflow
    calculateAveragePaymentDays data.paidOnTime data.paidLate sum

def appendScoreSnapshot (history : List ScoreSnapshot) (snapshot : ScoreSnapshot) :
    List ScoreSnapshot :=
  (if maxScoreHistory ≤ history.length then history.tail else history) ++ [snapshot]

def State.dataAfter (data : CreditScoreData) (record : PaymentRecord) (milestoneCount : ℕ) :
    Res CreditScoreData := do
  let scoring := s.config.scoring
  let prevPaid ← okOr (fitU 32 (data.paidOnTime + data.paidLate)) .overflow
  let counted ← data.count record.status
  let totalInvoices ← okOr (fitU 32 (counted.totalInvoices + 1)) .overflow
  let totalVolume ← okOr (checkedAdd counted.totalVolume record.amount) .overflow
  let average ← counted.averageAfter prevPaid record
  let score ← calculateScoreWithConfig scoring s.config.lateThreshold totalInvoices
    counted.paidOnTime counted.paidLate counted.defaulted totalVolume average milestoneCount
  return { counted with
    totalInvoices := totalInvoices
    totalVolume := totalVolume
    averagePaymentDays := average
    score := score
    scoreVersion := scoring.core.scoreVersion
    lastUpdated := s.now }

def commitPaymentRecord (sme : Address) (invoiceId : ℕ) (record : PaymentRecord) :
    Res (State × CreditScoreData) := do
  let (s', data) ← s.getOrCreateCreditData sme
  let milestoneCount ← s'.milestoneCountAfter sme record
  let newData ← s'.dataAfter data record milestoneCount
  let window := (s'.history sme).push s'.config.maxPaymentHistory record
  let snapshots := appendScoreSnapshot (s'.scoreHistory sme) ⟨newData.score, invoiceId, s'.now⟩
  return ({ s' with
    history := Function.update s'.history sme window
    paymentRecordScoreVersion := Function.update s'.paymentRecordScoreVersion invoiceId
      (some s'.config.scoring.core.scoreVersion)
    milestoneCount := Function.update s'.milestoneCount sme milestoneCount
    smeLateThreshold := Function.update s'.smeLateThreshold sme (some s'.config.lateThreshold)
    scoreHistory := Function.update s'.scoreHistory sme snapshots
    creditScore := Function.update s'.creditScore sme (some newData)
    invoiceProcessed := Function.update s'.invoiceProcessed invoiceId true }, newData)

/-- The checks of the three calls of the pool; the caller they name is not looked at. -/
def State.asActivePool : Res Unit := do
  requireAuth signers s.config.poolContract
  s.requireNotPaused

def paymentStatus (dueDate paidAt : ℕ) : Res PaymentStatus :=
  if paidAt ≤ dueDate then return .PaidOnTime
  else do
    let limit ← okOr (fitU 64 (dueDate + latePaymentThresholdSecs)) .overflow
    if paidAt ≤ limit then return .PaidLate else return .Defaulted

def paymentRecord (invoiceId : ℕ) (sme : Address) (amount : ℤ) (dueDate paidAt : ℕ) :
    Res PaymentRecord := do
  let status ← paymentStatus dueDate paidAt
  return ⟨invoiceId, sme, amount, dueDate, paidAt, status, calculateDaysLate dueDate paidAt⟩

def State.defaultRecord (invoiceId : ℕ) (sme : Address) (amount : ℤ) (dueDate : ℕ) :
    PaymentRecord :=
  ⟨invoiceId, sme, amount, dueDate, s.now, .Defaulted, calculateDaysLate dueDate s.now⟩

def recordPayment (invoiceId : ℕ) (sme : Address) (amount : ℤ) (dueDate paidAt : ℕ) :
    Res State := do
  s.asActivePool signers
  require (s.invoiceProcessed invoiceId = false) (.error .InvoiceAlreadyProcessed)
  let record ← paymentRecord invoiceId sme amount dueDate paidAt
  let (s', _) ← commitPaymentRecord s sme invoiceId record
  return s'

/-- `record_funding`: an invoice that has been processed is passed over. -/
def recordFunding (invoiceId : ℕ) (sme : Address) (amount : ℤ) : Res State := do
  s.asActivePool signers
  if s.invoiceProcessed invoiceId then return s
  else do
    let (s', data) ← s.getOrCreateCreditData sme
    return { s' with
      creditScore := Function.update s'.creditScore sme
        (some { data with
          totalVolume := saturatingAdd data.totalVolume amount
          lastUpdated := s'.now }) }

def recordDefault (invoiceId : ℕ) (sme : Address) (amount : ℤ) (dueDate : ℕ) : Res State := do
  s.asActivePool signers
  require (s.invoiceProcessed invoiceId = false) (.error .InvoiceAlreadyProcessed)
  let (s', _) ← commitPaymentRecord s sme invoiceId (s.defaultRecord invoiceId sme amount dueDate)
  return s'

/-! ## Queries -/

/-- The trend adjustment of `get_credit_score`; the history is read only when there is enough of
it. -/
def State.trendAdjustment (sme : Address) (data : CreditScoreData) : Res ℤ :=
  if trendWindow ≤ data.totalInvoices then do
    let history ← s.getPaymentHistory sme
    return computeTrendAdjustment history data.totalInvoices data.paidOnTime
  else return 0

def getCreditScore (sme : Address) : Res (State × CreditScoreResponse) := do
  let (s₁, data) ← s.getOrCreateCreditData sme
  let core := s₁.config.scoring.core
  let (s₂, blended) ← s₁.computeBlendedScore sme data.score
  let risk := computeRiskAdjustment (s₂.riskSignal sme)
  let trend ← s₂.trendAdjustment sme data
  let final ← clamp core.minScore core.maxScore (blended + risk + trend)
  return (s₂,
    { sme := data.sme, score := data.score, totalInvoices := data.totalInvoices
      paidOnTime := data.paidOnTime, paidLate := data.paidLate, defaulted := data.defaulted
      totalVolume := data.totalVolume, averagePaymentDays := data.averagePaymentDays
      lastUpdated := data.lastUpdated, scoreVersion := data.scoreVersion
      configVersion := core.scoreVersion, isStale := data.scoreVersion ≠ core.scoreVersion
      blendedScore := blended, riskAdjustmentPts := risk, trendAdjustmentPts := trend
      finalScore := final.toNat })

def listEntry (x : State × List SmeScoreEntry) (i : ℕ) : Res (State × List SmeScoreEntry) :=
  match x.1.smeByIndex i with
  | none => return x
  | some sme => do
      let (s', data) ← x.1.getOrCreateCreditData sme
      return (s', x.2 ++ [⟨sme, data.score⟩])

/-- The page size that `list_all_sme_stats` goes by. -/
def cappedPageSize (pageSize : ℕ) : ℕ :=
  if maxSmePageSize < pageSize then maxSmePageSize else pageSize

def listAllSmeStats (page pageSize : ℕ) : Res (State × List SmeScoreEntry) := do
  let size := cappedPageSize pageSize
  let start ← okOr (fitU 32 (page * size)) .overflow
  if s.smeCount ≤ start then return (s, [])
  else do
    let last ← okOr (fitU 32 (start + size)) .overflow
    (List.range' start (min last s.smeCount - start)).foldlM listEntry (s, [])

def simulateScoreWithAttestations (sme : Address) (hypothetical : List (ℕ × ℕ)) :
    Res (State × ℕ) := do
  let cacheKey := hashAttestationPairs hypothetical (s.attestationGeneration sme)
  let hit := (s.simulateScoreCache sme cacheKey).filter fun entry =>
    s.now < min (entry.cachedAt + simulateCacheTtlSecs) (2 ^ 64 - 1)
  match hit with
  | some entry => return (s, entry.result)
  | none => do
      let (s₁, data) ← s.getOrCreateCreditData sme
      let core := s₁.config.scoring.core
      let (s₂, signals) := s₁.collectActiveAttestationSignals sme
      let external ← computeExternalComponent (signals ++ hypothetical) core.minScore core.maxScore
      let result ← blendScore data.score external s₁.config.scoring.attestation core.minScore
        core.maxScore
      return ({ s₂ with
        simulateScoreCache := Function.update s₂.simulateScoreCache sme
          (Function.update (s₂.simulateScoreCache sme) cacheKey (some ⟨result, s.now⟩)) }, result)

def getAttestation (id : ℕ) : State × Option Attestation := s.loadAttestation id

def listSmeAttestations (sme : Address) : State × List Attestation :=
  (s.smeAttestations sme).foldl (fun x id =>
    let (s', a) := x.1.loadAttestation id
    (s', x.2 ++ a.toList)) (s, [])

def getScoreHistory (sme : Address) : List ScoreSnapshot := s.scoreHistory sme

/-! ## Attestations -/

def validWeight (weightBps : ℕ) : Bool := weightBps ≠ 0 && weightBps ≤ maxWeightBps

def State.attestorInfo (address : Address) (attestorType : AttestorType) (weightBps : ℕ) :
    AttestorInfo := ⟨address, attestorType, true, weightBps, s.now⟩

def registerAttestor (admin address : Address) (attestorType : AttestorType) (weightBps : ℕ) :
    Res State := do
  requireAuth signers admin
  s.requireAdmin admin
  s.requireNotPaused
  require (validWeight weightBps = true) (.error .InvalidAttestorWeight)
  let wasActive := ((s.attestor address).map (·.isActive)).getD false
  return { s with
    attestor := Function.update s.attestor address
      (some (s.attestorInfo address attestorType weightBps))
    activeAttestorList :=
      if wasActive || s.activeAttestorList.contains address then s.activeAttestorList
      else s.activeAttestorList ++ [address] }

/-- The type that `register_attestor_via_ac` reads off a number. -/
def decodeAttestorType : ℕ → Option AttestorType
  | 0 => some .BusinessRegistry
  | 1 => some .CreditBureau
  | 2 => some .ExternalProtocol
  | 3 => some .Manual
  | _ => none

/-- `register_attestor_via_ac`: unlike `register_attestor` it leaves the list of the active
attestors. -/
def registerAttestorViaAc (accessControl address : Address) (attestorType weightBps : ℕ) :
    Res State := do
  requireAuth signers accessControl
  s.requireAccessControl accessControl
  s.requireNotPaused
  require (validWeight weightBps = true) (.error .InvalidAttestorWeight)
  let decodedType ← okOr (decodeAttestorType attestorType) (.error .InvalidAttestorType)
  return { s with
    attestor := Function.update s.attestor address
      (some (s.attestorInfo address decodedType weightBps)) }

def deactivateAttestor (admin address : Address) : Res State := do
  requireAuth signers admin
  s.requireAdmin admin
  s.requireNotPaused
  let info ← okOr (s.attestor address) (.error .AttestorNotFound)
  return { s with
    attestor := Function.update s.attestor address (some { info with isActive := false })
    activeAttestorList := s.activeAttestorList.filter fun a => a ≠ address }

def submitAttestation (attestor sme : Address) (attestationType : AttestorType)
    (scoreContribution : ℕ) (evidenceHash : Bytes) (expiresAt : ℕ) : Res (State × ℕ) := do
  requireAuth signers attestor
  s.requireNotPaused
  let info ← okOr (s.attestor attestor) (.error .AttestorNotFound)
  require (info.isActive = true) (.error .AttestorInactive)
  require (scoreContribution ≤ maxScoreContribution) (.error .InvalidScoreContribution)
  require (s.now < expiresAt) (.error .InvalidAttestationExpiry)
  let horizon ← okOr (fitU 64 (s.now + maxAttestationHorizonSecs)) .overflow
  require (expiresAt ≤ horizon) (.error .InvalidAttestationExpiry)
  let id := s.attestationCount
  let count ← okOr (fitU 64 (id + 1)) .overflow
  let attestation : Attestation :=
    ⟨id, sme, attestor, attestationType, scoreContribution, evidenceHash, s.now, expiresAt, .Active⟩
  return ({ s with
    attestationCount := count
    attestation := Function.update s.attestation id (some attestation)
    smeAttestations := Function.update s.smeAttestations sme (s.smeAttestations sme ++ [id]) }, id)

def disputeAttestation (caller : Address) (attestationId : ℕ) (reasonHash : Bytes) : Res State := do
  requireAuth signers caller
  s.requireNotPaused
  let (s', loaded) := s.loadAttestation attestationId
  let a ← okOr loaded (.error .AttestationNotFound)
  require (caller = a.sme ∨ caller = s'.config.admin) (.error .UnauthorizedDisputeCaller)
  require (a.status = .Active) (.error .AttestationNotActive)
  return { s' with
    attestation := Function.update s'.attestation a.id (some { a with status := .Disputed })
    attestationDisputeReason := Function.update s'.attestationDisputeReason attestationId
      (some reasonHash) }.bumpAttestationGeneration a.sme

def resolveAttestationDispute (admin : Address) (attestationId : ℕ) (upheld : Bool) :
    Res State := do
  requireAuth signers admin
  s.requireAdmin admin
  s.requireNotPaused
  let (s', loaded) := s.loadAttestation attestationId
  let a ← okOr loaded (.error .AttestationNotFound)
  require (a.status = .Disputed) (.error .DisputeNotFound)
  let status := if upheld then AttestationStatus.Active else .Revoked
  return { s' with
    attestation := Function.update s'.attestation a.id (some { a with status := status })
    }.bumpAttestationGeneration a.sme

def submitRiskSignal (admin sme : Address) (debtorConcentrationBps invoiceSizeRiskBps : ℕ) :
    Res State := do
  requireAuth signers admin
  s.requireAdmin admin
  s.requireNotPaused
  require (debtorConcentrationBps ≤ maxWeightBps ∧ invoiceSizeRiskBps ≤ maxWeightBps)
    (.error .InvalidRiskSignal)
  return { s with
    riskSignal := Function.update s.riskSignal sme
      (some (packRiskSignal debtorConcentrationBps invoiceSizeRiskBps)) }

/-! ## Settings -/

def pause (admin : Address) : Res Config := do
  requireAuth signers admin
  s.requireAdmin admin
  return { s.config with paused := true }

def unpause (admin : Address) : Res Config := do
  requireAuth signers admin
  s.requireAdmin admin
  return { s.config with paused := false }

def setPausedViaAc (accessControl : Address) (paused : Bool) : Res Config := do
  requireAuth signers accessControl
  s.requireAccessControl accessControl
  return { s.config with paused := paused }

/-- Thresholds that are strictly decreasing and above the base score. -/
def ScoreThresholds.valid (t : ScoreThresholds) : Bool :=
  t.veryGood < t.excellent && t.good < t.veryGood && t.fair < t.good && baseScore < t.fair

def setScoreThresholds (admin : Address) (thresholds : ScoreThresholds) : Res Config := do
  requireAuth signers admin
  s.requireAdmin admin
  s.requireNotPaused
  require (thresholds.valid = true) (.error .InvalidThresholds)
  return { s.config with scoreThresholds := thresholds }

def setScoreThresholdsViaAc (accessControl : Address) (thresholds : ScoreThresholds) :
    Res Config := do
  requireAuth signers accessControl
  s.requireAccessControl accessControl
  s.requireNotPaused
  require (thresholds.valid = true) (.error .InvalidThresholds)
  return { s.config with scoreThresholds := thresholds }

/-- The checks of `set_scoring_config` on the configuration alone, but for the weights. -/
def ScoringConfig.valid (c : ScoringConfig) : Bool :=
  c.core.minScore ≤ c.core.baseScore && c.core.baseScore ≤ c.core.maxScore &&
    c.averages.avgDaysLt3 < c.averages.avgDaysLt7 &&
    c.bonuses.invBonusThr1 < c.bonuses.invBonusThr2 &&
    c.bonuses.invBonusThr2 < c.bonuses.invBonusThr3 &&
    c.bonuses.volBonusThr1 < c.bonuses.volBonusThr2 &&
    c.bonuses.volBonusThr2 < c.bonuses.volBonusThr3 &&
    c.core.scoreVersion ≠ 0 &&
    0 < c.core.paidOnTimePts && 0 < c.core.paidLatePts && 0 < c.bonuses.invBonusPts &&
    0 < c.bonuses.volBonusPts1 && 0 < c.bonuses.volBonusPts2 && 0 < c.bonuses.volBonusPts3

/-- Weights that make up the whole. -/
def ScoreAttestationConfig.valid (c : ScoreAttestationConfig) : Bool :=
  c.internalWeightBps ≤ maxWeightBps && c.externalWeightBps ≤ maxWeightBps &&
    c.internalWeightBps + c.externalWeightBps = maxWeightBps

def setScoringConfig (admin : Address) (config : ScoringConfig) : Res Config := do
  requireAuth signers admin
  s.requireAdmin admin
  s.requireNotPaused
  require (config.valid = true) (.error .InvalidScoringConfig)
  require (config.attestation.valid = true) (.error .InvalidAttestationConfig)
  require (s.config.scoring.core.scoreVersion < config.core.scoreVersion)
    (.error .InvalidScoringConfig)
  return { s.config with scoring := config }

def setInvoiceContract (admin invoiceContract : Address) : Res Config := do
  requireAuth signers admin
  s.requireAdmin admin
  s.requireNotPaused
  return { s.config with invoiceContract := invoiceContract }

def setPoolContract (admin poolContract : Address) : Res Config := do
  requireAuth signers admin
  s.requireAdmin admin
  s.requireNotPaused
  return { s.config with poolContract := poolContract }

def setLateThreshold (admin : Address) (days : ℤ) : Res Config := do
  requireAuth signers admin
  s.requireAdmin admin
  require (1 ≤ days ∧ days ≤ 365) (.error .InvalidLateThreshold)
  return { s.config with lateThreshold := days }

def setLateThresholdViaAc (accessControl : Address) (days : ℤ) : Res Config := do
  requireAuth signers accessControl
  s.requireAccessControl accessControl
  require (1 ≤ days ∧ days ≤ 365) (.error .InvalidLateThreshold)
  return { s.config with lateThreshold := days }

def setMaxPaymentHistory (admin : Address) (maxHistory : UInt32) : Res Config := do
  requireAuth signers admin
  s.requireAdmin admin
  s.requireNotPaused
  require (maxHistory ≠ 0) (.error .PaymentHistoryLimitZero)
  return { s.config with maxPaymentHistory := maxHistory.toNat }

def setAccessControl (admin accessControl : Address) : Res Config := do
  requireAuth signers admin
  s.requireAdmin admin
  return { s.config with accessControl := some accessControl }

def setAccessControlViaAc (accessControl newAccessControl : Address) : Res Config := do
  requireAuth signers accessControl
  s.requireAccessControl accessControl
  return { s.config with accessControl := some newAccessControl }

/-- `propose_admin_change`; the end of the waiting time, which is part of an event, must fit. -/
def proposeAdminChange (admin newAdmin : Address) : Res Config := do
  requireAuth signers admin
  s.requireNotPaused
  s.requireAdmin admin
  let _ ← okOr (fitU 64 (s.now + adminChangeTimelockSecs)) .overflow
  return { s.config with
    pendingAdmin := some newAdmin
    adminChangeScheduledAt := some s.now }

def finalizeAdminChange (admin : Address) : Res Config := do
  requireAuth signers admin
  s.requireNotPaused
  s.requireAdmin admin
  let scheduledAt ← okOr s.config.adminChangeScheduledAt (.error .NoAdminChangeProposed)
  let due ← okOr (fitU 64 (scheduledAt + adminChangeTimelockSecs)) .overflow
  require (due ≤ s.now) (.error .AdminChangeTimelockNotExpired)
  let newAdmin ← okOr s.config.pendingAdmin (.error .NoAdminChangeProposed)
  return { s.config with admin := newAdmin, pendingAdmin := none, adminChangeScheduledAt := none }

def cancelAdminChange (admin : Address) : Res Config := do
  requireAuth signers admin
  s.requireNotPaused
  s.requireAdmin admin
  require (s.config.pendingAdmin.isSome = true) (.error .NoAdminChangeProposed)
  return { s.config with pendingAdmin := none, adminChangeScheduledAt := none }

end Entrypoints

end Astera.CreditScore
