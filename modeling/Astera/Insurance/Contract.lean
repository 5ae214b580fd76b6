import Astera.Lib.Ledger
import Astera.Insurance.Types

/-!
# The insurance reserve

The storage of the contract and its writing entrypoints.  The neighbours are reached through `Host`;
the reserve calls no neighbour at its own address, which is on the call stack.  The guard against
reentrance, the time-to-live extensions and the events are left out.

`CoverageRecord` keys are used in two storage areas: `coverageRecords` is the persistent one and
`instanceRecords` the one of the instance.
-/

namespace Astera.Insurance

open Fallible Machine

variable {W : Type}

/-- The calls into the neighbours; `none` is an error or a trap. -/
structure Host (W : Type) where
  self : Address
  getCreditScore : W → Address → Address → Option CreditScoreData
  isInvoiceDefaulted : W → Address → ℕ → Option Bool
  getInvoiceVerificationState : W → Address → ℕ → Option (Bool × ℤ)
  getFundedInvoice : W → Address → ℕ → Option (Option FundedInvoiceView)
  getCollateralDeposit : W → Address → ℕ → Option (Option CollateralDepositView)
  receiveInsurancePayout : W → Address → Address → Address → ℕ → ℤ → Option W

structure State (W : Type) where
  now : ℕ
  world : W
  balances : Address → Address → ℤ
  config : Config
  creditScoreContract : Option Address := none
  premiumConfig : Option PremiumConfig := none
  /-- `ReserveFund`; a token without one has the default. -/
  reserveFund : Address → ReserveFund := fun _ => {}
  coverageRecords : Store ℕ CoverageRecord := ∅
  instanceRecords : Store ℕ CoverageRecord := ∅
  paused : Bool := false
  claimHistory : ℕ → List ClaimHistoryItem := fun _ => []
  minReserveAmount : Address → ℤ := fun _ => 0

def initializeInsurance (now : ℕ) (world : W) (balances : Address → Address → ℤ)
    (admin poolContract invoiceContract : Address) : State W where
  now := now
  world := world
  balances := balances
  config := { admin := admin, poolContract := poolContract, invoiceContract := invoiceContract }

def requireAuth (signers : List Address) (a : Address) : Res Unit := require (a ∈ signers) .auth

/-- A neighbour that can be called. -/
def Host.reach (h : Host W) (contract : Address) : Res Unit := require (contract ≠ h.self) .call

namespace State

variable (s : State W)

def requireNotPaused : Res Unit := require (s.paused = false) (.error .ContractPaused)

def requireAdmin (admin : Address) : Res Unit := require (admin = s.config.admin) (.error .Unauthorized)

def asAdmin (signers : List Address) (admin : Address) : Res Unit := do
  requireAuth signers admin
  s.requireAdmin admin

/-- `transfer` of a token. -/
def transfer (token sender receiver : Address) (amount : ℤ) : Res (State W) := do
  let balances ← okOr (Ledger.transfer (s.balances token) sender receiver amount) .token
  return { s with balances := Function.update s.balances token balances }

end State

def resolveRiskMultiplierBps (score : ℕ) (config : PremiumConfig) : ℕ :=
  match config.riskTiers.find? fun tier => tier.minScore ≤ score ∧ score ≤ tier.maxScore with
  | some tier => tier.riskMultiplierBps
  | none => config.defaultRiskMultiplierBps

/-- `calculate_premium_with_multiplier`, on unsigned integers of 128 bits. -/
def calculatePremiumWithMultiplier (principal : ℤ) (riskMultiplierBps invoiceTenorDays : ℕ)
    (config : PremiumConfig) : ℕ :=
  if principal ≤ 0 then 0
  else
    let principal := principal.toNat
    let base := saturatingMulU 128 principal config.baseRateBps / bpsDenom
    let riskAdjusted := saturatingMulU 128 base riskMultiplierBps / bpsDenom
    let tenorExtraBps := saturatingMulU 128 invoiceTenorDays config.tenorBpsPerDay
    let tenorBonus := saturatingMulU 128 riskAdjusted tenorExtraBps / bpsDenom
    let rawPremium := saturatingAddU 128 riskAdjusted tenorBonus
    let minPremium := saturatingMulU 128 principal config.minPremiumBps / bpsDenom
    let maxPremium := saturatingMulU 128 principal config.maxPremiumBps / bpsDenom
    min (max rawPremium minPremium) maxPremium

def calculatePremium (principal : ℤ) (smeCreditScore invoiceTenorDays : ℕ) (config : PremiumConfig) :
    ℕ :=
  calculatePremiumWithMultiplier principal (resolveRiskMultiplierBps smeCreditScore config)
    invoiceTenorDays config

/-- `resolve_credit_score`; a failed call counts as no score. -/
def resolveCreditScore (h : Host W) (s : State W) (sme : Address) : Option ℕ := do
  let contract ← s.creditScoreContract
  guard (contract ≠ h.self)
  let data ← h.getCreditScore s.world contract sme
  return if 0 < data.blendedScore then data.blendedScore else data.score

def pricePremium (h : Host W) (s : State W) (principal : ℤ) (sme : Address) (tenorDays : ℕ)
    (config : PremiumConfig) : Res ℤ :=
  let multiplierBps :=
    match resolveCreditScore h s sme with
    | some score => resolveRiskMultiplierBps score config
    | none => config.defaultRiskMultiplierBps
  okOr (fit (calculatePremiumWithMultiplier principal multiplierBps tenorDays config))
    (.error .AmountOverflow)

def validatePremiumConfig (config : PremiumConfig) : Res Unit := do
  require (config.minPremiumBps ≤ config.maxPremiumBps) (.error .InvalidPremiumConfig)
  require (config.baseRateBps ≤ bpsDenom ∧ config.tenorBpsPerDay ≤ bpsDenom ∧
    config.minPremiumBps ≤ bpsDenom ∧ config.maxPremiumBps ≤ bpsDenom) (.error .InvalidPremiumConfig)
  require (config.defaultRiskMultiplierBps ≠ 0 ∧
    config.defaultRiskMultiplierBps ≤ maxRiskMultiplierBps) (.error .InvalidPremiumConfig)
  require (∀ tier ∈ config.riskTiers, tier.minScore ≤ tier.maxScore ∧ tier.riskMultiplierBps ≠ 0 ∧
    tier.riskMultiplierBps ≤ maxRiskMultiplierBps) (.error .InvalidPremiumConfig)
  -- every failure is the same error, so the order of the two loops does not show
  require (config.riskTiers.Pairwise fun tier other =>
    ¬ (tier.minScore ≤ other.maxScore ∧ other.minScore ≤ tier.maxScore))
    (.error .InvalidPremiumConfig)

def ratioBps (reserves exposure : ℤ) : ℕ :=
  if exposure ≤ 0 then bpsDenom
  else
    match checkedDiv (saturatingMul (max reserves 0) bpsDenom) exposure with
    | some ratio => if 0 ≤ ratio then (min ratio (2 ^ 32 - 1)).toNat else 0
    | none => 0

def ReserveFund.recomputeRatio (reserve : ReserveFund) : ReserveFund :=
  { reserve with coverageRatioBps := ratioBps reserve.totalReserves reserve.totalCoveredExposure }

def coveredExposure (principal : ℤ) (coverageBps : ℕ) : Res ℤ :=
  okOr ((checkedMul principal coverageBps).bind (checkedDiv · bpsDenom)) (.error .AmountOverflow)

def lessExposure (total covered : ℤ) : ℤ := max ((checkedSub total covered).getD 0) 0

def State.setReserve (s : State W) (token : Address) (reserve : ReserveFund) : State W :=
  { s with reserveFund := Function.update s.reserveFund token reserve }

section Settings

variable (signers : List Address) (s : State W)

def setPremiumConfig (admin : Address) (config : PremiumConfig) : Res (State W) := do
  s.asAdmin signers admin
  validatePremiumConfig config
  require (config.defaultCoverageBps ≠ 0 ∧ config.defaultCoverageBps ≤ bpsDenom)
    (.error .InvalidCoverageBps)
  return { s with premiumConfig := some config }

def setMinCoverageRatio (admin token : Address) (minRatioBps : ℕ) : Res (State W) := do
  s.asAdmin signers admin
  require (minRatioBps ≤ bpsDenom) (.error .InvalidMinCoverageRatio)
  return s.setReserve token { s.reserveFund token with minCoverageRatioBps := minRatioBps }

def setCreditScoreContract (admin creditScoreContract : Address) : Res (State W) := do
  s.asAdmin signers admin
  return { s with creditScoreContract := some creditScoreContract }

def pause (admin : Address) : Res (State W) := do
  s.asAdmin signers admin
  return { s with paused := true }

def unpause (admin : Address) : Res (State W) := do
  s.asAdmin signers admin
  return { s with paused := false }

def rotateAdmin (currentAdmin newAdmin : Address) : Res (State W) := do
  requireAuth signers currentAdmin
  requireAuth signers newAdmin
  s.requireAdmin currentAdmin
  return { s with config := { s.config with admin := newAdmin } }

def setMinReserveAmount (admin token : Address) (minAmount : ℤ) : Res (State W) := do
  s.asAdmin signers admin
  require (0 ≤ minAmount) (.error .InvalidAmount)
  return { s with minReserveAmount := Function.update s.minReserveAmount token minAmount }

end Settings

section Entrypoints

variable (h : Host W) (signers : List Address) (s : State W)

def fundReserveFromTreasury (admin token : Address) (amount : ℤ) : Res (State W) := do
  s.asAdmin signers admin
  require (0 < amount) (.error .InvalidAmount)
  let s ← s.transfer token admin h.self amount
  let reserve := s.reserveFund token
  let reserves ← okOr (checkedAdd reserve.totalReserves amount) (.error .AmountOverflow)
  return s.setReserve token { reserve with totalReserves := reserves }.recomputeRatio

def purchaseCoverage (payer : Address) (invoiceId : ℕ) (principal : ℤ) (sme : Address) (dueDate : ℕ)
    (token : Address) : Res (State W) := do
  requireAuth signers payer
  s.requireNotPaused
  require (payer = s.config.poolContract) (.error .Unauthorized)
  require (0 < principal) (.error .InvalidAmount)
  h.reach s.config.invoiceContract
  let _ ← okOr (h.getInvoiceVerificationState s.world s.config.invoiceContract invoiceId) .call
  require (s.coverageRecords.get invoiceId = none) (.error .AlreadyCovered)
  let config ← okOr s.premiumConfig (.error .InvalidPremiumConfig)
  let tenorDays := truncU 32 ((dueDate - s.now) / secsPerDay)
  let premium ← pricePremium h s principal sme tenorDays config
  require (0 < premium) (.error .InvalidAmount)
  let covered ← coveredExposure principal config.defaultCoverageBps
  let reserve := s.reserveFund token
  let newExposure ← okOr (checkedAdd reserve.totalCoveredExposure covered) (.error .AmountOverflow)
  let prospectiveReserves ← okOr (checkedAdd reserve.totalReserves premium) (.error .AmountOverflow)
  require (¬ (0 < newExposure ∧
    ratioBps prospectiveReserves newExposure < reserve.minCoverageRatioBps))
    (.error .CoverageRatioFloorBreached)
  let s ← s.transfer token payer h.self premium
  let premiums ← okOr (checkedAdd reserve.totalPremiumsCollected premium) (.error .AmountOverflow)
  let s := s.setReserve token
    { reserve with
      totalReserves := prospectiveReserves
      totalPremiumsCollected := premiums
      totalCoveredExposure := newExposure }.recomputeRatio
  return { s with
    coverageRecords := s.coverageRecords.set invoiceId {
      invoiceId := invoiceId
      token := token
      principal := principal
      premiumPaid := premium
      coverageBps := config.defaultCoverageBps
      purchasedAt := s.now
      claimed := false
      paidToDate := 0 } }

/-- `release_coverage`, which looks for the record in the instance storage. -/
def releaseCoverage (invoiceId : ℕ) : Res (State W) := do
  s.requireNotPaused
  let record ← okOr (s.instanceRecords.get invoiceId) (.error .NoCoverageFound)
  require (record.claimed = false) (.error .AlreadyClaimed)
  let covered ← coveredExposure record.principal record.coverageBps
  let reserve := s.reserveFund record.token
  let s := s.setReserve record.token
    { reserve with
      totalCoveredExposure := lessExposure reserve.totalCoveredExposure covered }.recomputeRatio
  return { s with
    instanceRecords := s.instanceRecords.set invoiceId { record with claimed := true } }

/-- What is still owed on a defaulted invoice after the collateral, as the pool tells it. -/
def shortfallOf (invoiceId : ℕ) : Res ℤ := do
  h.reach s.config.poolContract
  let view ← okOr (h.getFundedInvoice s.world s.config.poolContract invoiceId) .call
  let funded ← okOr view (.error .FundedInvoiceNotFound)
  let left ← okOr (checkedSub funded.principal funded.repaidAmount) (.error .AmountOverflow)
  let owed := max left 0
  let deposit ← okOr (h.getCollateralDeposit s.world s.config.poolContract invoiceId) .call
  let recovered := ((deposit.filter (·.settled)).map (·.settledPrice)).getD 0
  let rest ← okOr (checkedSub owed recovered) (.error .AmountOverflow)
  return max rest 0

def CoverageRecord.paid (record : CoverageRecord) (nominal paidToDate : ℤ) : CoverageRecord :=
  { record with
    paidToDate := paidToDate
    claimed := if nominal ≤ paidToDate then true else record.claimed }

/-- The reserve after a payout; a record that is paid in full leaves the exposure. -/
def ReserveFund.paid (reserve : ReserveFund) (reserves claims nominal paidToDate : ℤ) : ReserveFund :=
  { reserve with
    totalReserves := reserves
    totalClaimsPaid := claims
    totalCoveredExposure :=
      if nominal ≤ paidToDate then lessExposure reserve.totalCoveredExposure nominal
      else reserve.totalCoveredExposure }.recomputeRatio

def fileClaim (invoiceId : ℕ) : Res (State W) := do
  s.requireNotPaused
  let record ← okOr (s.coverageRecords.get invoiceId) (.error .NoCoverageFound)
  h.reach s.config.invoiceContract
  let defaulted ← okOr (h.isInvoiceDefaulted s.world s.config.invoiceContract invoiceId) .call
  require (defaulted = true) (.error .InvoiceNotDefaulted)
  let shortfall ← shortfallOf h s invoiceId
  require (0 < shortfall) (.error .NoShortfall)
  let nominal ← coveredExposure record.principal record.coverageBps
  let reserve := s.reserveFund record.token
  require (0 < reserve.totalReserves) (.error .InsufficientReserves)
  let payout := max (min (min nominal shortfall) reserve.totalReserves) 0
  require (0 < payout) (.error .NoShortfall)
  let s ← s.transfer record.token h.self s.config.poolContract payout
  let world ← okOr (h.receiveInsurancePayout s.world s.config.poolContract h.self record.token
    invoiceId payout) .call
  let reserves ← okOr (checkedSub reserve.totalReserves payout) (.error .AmountOverflow)
  let claims ← okOr (checkedAdd reserve.totalClaimsPaid payout) (.error .AmountOverflow)
  let paidToDate ← okOr (checkedAdd record.paidToDate payout) (.error .AmountOverflow)
  let history := s.claimHistory invoiceId
  require (history.length + 1 < 2 ^ 32) .overflow
  let s := s.setReserve record.token (reserve.paid reserves claims nominal paidToDate)
  return { s with
    world := world
    coverageRecords := s.coverageRecords.set invoiceId (record.paid nominal paidToDate)
    claimHistory := Function.update s.claimHistory invoiceId (history ++ [{
      invoiceId := invoiceId
      token := record.token
      payout := payout
      shortfalls := shortfall
      timestamp := s.now }]) }

end Entrypoints

end Astera.Insurance
