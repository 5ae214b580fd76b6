import Astera.Pool.Writes

/-!
# The setters of the pool

Most parameters have up to three setters: for the admin, for access control (`_via_ac`) and for
governance (`_gov`, `_via_governance`).  Each function returns the parameters that a setter leaves,
and `Setting` lists them all.  `set_upgrade_timelock` and the upgrade are left out: no modelled
function reads what they write.
-/

namespace Astera.Pool

open Fallible Machine

variable {W : Type}

/-! ## Who may set -/

namespace State

def requireAccessControl (s : State W) (caller : Address) : Res Unit := do
  let configured ← okOr s.params.accessControl (.err .AccessControlNotConfigured)
  require (caller = configured) (.err .Unauthorized)

def requireGovernance (s : State W) (caller : Address) : Res Unit := do
  let configured ← okOr s.params.governance (.err .GovernanceNotConfigured)
  require (caller = configured) (.err .Unauthorized)

def asAdmin (s : State W) (signers : List Address) (admin : Address) : Res Unit := do
  requireAuth signers admin
  s.requireAdmin admin

/-- The first lines of an admin setter that a pause blocks. -/
def asActiveAdmin (s : State W) (signers : List Address) (admin : Address) : Res Unit := do
  requireAuth signers admin
  s.requireNotPaused
  s.requireAdmin admin

/-- The first lines of a `_via_ac` setter. -/
def asAccessControl (s : State W) (signers : List Address) (accessControl : Address) :
    Res Unit := do
  requireAuth signers accessControl
  s.requireAccessControl accessControl

/-- The first lines of a `_via_ac` setter that a pause blocks. -/
def asActiveAccessControl (s : State W) (signers : List Address) (accessControl : Address) :
    Res Unit := do
  s.asAccessControl signers accessControl
  s.requireNotPaused

def asGovernance (s : State W) (signers : List Address) (governance : Address) : Res Unit := do
  requireAuth signers governance
  s.requireGovernance governance

/-- The first lines of a governance setter that a pause blocks. -/
def asActiveGovernance (s : State W) (signers : List Address) (governance : Address) :
    Res Unit := do
  s.asGovernance signers governance
  s.requireNotPaused

/-- The first lines of the governance setters that the admin has to be as well. -/
def asGovernanceAdmin (s : State W) (signers : List Address) (governance : Address) :
    Res Unit := do
  s.asGovernance signers governance
  s.requireAdmin governance

end State

def write (guard : Res Unit) (params : Params) : Res Params := do
  guard
  return params

/-- A setter that takes valid values. -/
def writeIf (guard : Res Unit) (valid : Prop) [Decidable valid] (e : PoolError)
    (params : Params) : Res Params := do
  guard
  require valid (.err e)
  return params

@[simp]
theorem write_eq_ok {guard : Res Unit} {params params' : Params} :
    write guard params = .ok params' ↔ guard = .ok () ∧ params = params' := by
  simp only [write, bind_eq_ok, exists_unit, pure_eq_ok]

@[simp]
theorem writeIf_eq_ok {guard : Res Unit} {valid : Prop} [Decidable valid] {e : PoolError}
    {params params' : Params} :
    writeIf guard valid e params = .ok params' ↔ guard = .ok () ∧ valid ∧ params = params' := by
  simp only [writeIf, bind_eq_ok, exists_unit, require_eq_ok, pure_eq_ok]

def Params.updateConfigField (p : Params) (patch : PoolConfig → PoolConfig) : Params :=
  { p with config := patch p.config }

section Setters

variable (h : Host W) (signers : List Address) (s : State W)

def pause (admin : Address) : Res Params :=
  write (s.asAdmin signers admin) { s.params with paused := true }

def unpause (admin : Address) : Res Params :=
  write (s.asAdmin signers admin) { s.params with paused := false }

def setPausedViaAc (accessControl : Address) (paused : Bool) : Res Params :=
  write (s.asAccessControl signers accessControl) { s.params with paused := paused }

/-- `propose_admin_change`; the time at which the change is ready is computed for the event. -/
def proposeAdminChange (admin newAdmin : Address) : Res Params := do
  s.asActiveAdmin signers admin
  let _ ← okOr (fitU 64 (s.now + adminChangeTimelockSecs)) overflowTrap
  return { s.params with pendingAdmin := some newAdmin, adminChangeScheduledAt := some s.now }

def finalizeAdminChange (admin : Address) : Res Params := do
  s.asActiveAdmin signers admin
  let scheduledAt ← okOr s.params.adminChangeScheduledAt (.err .NoAdminChangeProposed)
  let readyAt ← okOr (fitU 64 (scheduledAt + adminChangeTimelockSecs)) overflowTrap
  require (readyAt ≤ s.now) (.err .AdminChangeTimelockNotExpired)
  let newAdmin ← okOr s.params.pendingAdmin (.err .NoAdminChangeProposed)
  return { s.params with
    config := { s.params.config with admin := newAdmin }
    pendingAdmin := none
    adminChangeScheduledAt := none }

def cancelAdminChange (admin : Address) : Res Params :=
  writeIf (s.asActiveAdmin signers admin) (s.params.pendingAdmin.isSome = true)
    .NoAdminChangeProposed { s.params with pendingAdmin := none, adminChangeScheduledAt := none }

/-! ## Addresses of other contracts -/

def setAccessControl (admin accessControl : Address) : Res Params :=
  write (s.asAdmin signers admin) { s.params with accessControl := some accessControl }

def setGovernanceAddress (admin governance : Address) : Res Params :=
  write (s.asAdmin signers admin) { s.params with governance := some governance }

def setTreasury (admin treasury : Address) : Res Params :=
  write (s.asAdmin signers admin) { s.params with treasury := some treasury }

def setTreasuryViaAc (accessControl treasury : Address) : Res Params :=
  write (s.asAccessControl signers accessControl) { s.params with treasury := some treasury }

def setTreasuryViaGovernance (governance treasury : Address) : Res Params :=
  write (s.asGovernance signers governance) { s.params with treasury := some treasury }

def setOracleContract (admin oracle : Address) : Res Params :=
  write (s.asActiveAdmin signers admin) { s.params with oracleContract := some oracle }

def setOracleContractViaAc (accessControl oracle : Address) : Res Params :=
  write (s.asActiveAccessControl signers accessControl)
    { s.params with oracleContract := some oracle }

def setOracleContractGov (governance oracle : Address) : Res Params :=
  write (s.asActiveGovernance signers governance) { s.params with oracleContract := some oracle }

def setCreditScoreContract (admin contract : Address) : Res Params :=
  write (s.asActiveAdmin signers admin) { s.params with creditScoreContract := some contract }

def setCreditScoreContractGov (governance contract : Address) : Res Params :=
  write (s.asGovernance signers governance) { s.params with creditScoreContract := some contract }

def setInsuranceContract (admin contract : Address) : Res Params :=
  write (s.asActiveAdmin signers admin) { s.params with insuranceContract := some contract }

def setInsuranceContractGov (governance contract : Address) : Res Params :=
  write (s.asGovernance signers governance) { s.params with insuranceContract := some contract }

def setReferralRegistry (admin registry : Address) : Res Params :=
  write (s.asAdmin signers admin) { s.params with referralRegistry := some registry }

def setReferralRegistryGov (governance registry : Address) : Res Params :=
  write (s.asGovernance signers governance) { s.params with referralRegistry := some registry }

def setSecondaryMarketContract (admin contract : Address) : Res Params :=
  write (s.asActiveAdmin signers admin) { s.params with secondaryMarket := some contract }

def setSecondaryMarketGov (governance contract : Address) : Res Params :=
  write (s.asGovernance signers governance) { s.params with secondaryMarket := some contract }

def setRiskContract (admin contract : Address) : Res Params :=
  write (s.asActiveAdmin signers admin) { s.params with riskContract := some contract }

def setRiskContractViaGovernance (governance contract : Address) : Res Params :=
  write (s.asGovernance signers governance) { s.params with riskContract := some contract }

/-! ## Investors and compliance -/

def setKycRequired (admin : Address) (required : Bool) : Res Params :=
  write (s.asAdmin signers admin) { s.params with kycRequired := required }

def setKycRequiredViaAc (accessControl : Address) (required : Bool) : Res Params :=
  write (s.asAccessControl signers accessControl) { s.params with kycRequired := required }

def setKycRequiredViaGovernance (governance : Address) (required : Bool) : Res Params :=
  write (s.asGovernance signers governance) { s.params with kycRequired := required }

/-- The body shared by the setters of an investor's KYC status. -/
def writeInvestorKyc (guard : Res Unit) (investor : Address) (status : KycStatus) : Res Params :=
  writeIf guard
    (investor ≠ s.params.config.admin ∧ investor ≠ h.self ∧
      investor ≠ s.params.config.invoiceContract) .Unauthorized
    { s.params with investorKyc := Function.update s.params.investorKyc investor status }

def setInvestorKyc (admin investor : Address) (approved : Bool) : Res Params :=
  writeInvestorKyc h s (s.asAdmin signers admin) investor
    (if approved then .Approved else .Rejected)

def setInvestorKycViaAc (accessControl investor : Address) (approved : Bool) : Res Params :=
  writeInvestorKyc h s (s.asAccessControl signers accessControl) investor
    (if approved then .Approved else .Rejected)

def approveInvestorKyc (admin investor : Address) : Res Params :=
  writeInvestorKyc h s (s.asAdmin signers admin) investor .Approved

def rejectInvestorKyc (admin investor : Address) : Res Params :=
  writeInvestorKyc h s (s.asAdmin signers admin) investor .Rejected

/-- The compliance gate with another registry; a new gate is not required. -/
def State.gateWithRegistry (registry : Address) : Option ComplianceGateConfig :=
  some { s.params.complianceGate.getD ⟨registry, false⟩ with registry := registry }

def setComplianceRegistry (admin registry : Address) : Res Params :=
  write (s.asAdmin signers admin) { s.params with complianceGate := s.gateWithRegistry registry }

def setComplianceRegistryGov (governance registry : Address) : Res Params :=
  write (s.asGovernance signers governance)
    { s.params with complianceGate := s.gateWithRegistry registry }

def setRequireComplianceCheck (admin : Address) (required : Bool) : Res Params := do
  s.asAdmin signers admin
  let gate ← okOr s.params.complianceGate (.err .ComplianceCheckFailed)
  return { s.params with complianceGate := some { gate with required := required } }

/-- `set_require_compliance_check_gov`: the gate it falls back on is built whether or not one is
stored, from an address string whose checksum is wrong, so the call traps. -/
def setRequireComplianceCheckGov (governance : Address) (_required : Bool) : Res Params := do
  s.asGovernance signers governance
  .error (.trap .host)

/-! ## Fees and limits -/

def setFactoringFee (admin : Address) (factoringFeeBps : ℕ) : Res Params :=
  writeIf (s.asActiveAdmin signers admin) (factoringFeeBps ≤ bpsDenom) .InvalidAmount
    (s.params.updateConfigField ({ · with factoringFeeBps := factoringFeeBps }))

def setFactoringFeeViaGovernance (governance : Address) (factoringFeeBps : ℕ) : Res Params :=
  writeIf (s.asGovernance signers governance) (factoringFeeBps ≤ 5000) .InvalidAmount
    (s.params.updateConfigField ({ · with factoringFeeBps := factoringFeeBps }))

def setMinDeposit (admin : Address) (minAmount : ℤ) : Res Params :=
  writeIf (s.asAdmin signers admin) (0 ≤ minAmount) .InvalidAmount
    (s.params.updateConfigField ({ · with minDepositAmount := minAmount }))

def setMinDepositViaGovernance (governance : Address) (minAmount : ℤ) : Res Params :=
  writeIf (s.asGovernanceAdmin signers governance) (0 < minAmount) .InvalidAmount
    (s.params.updateConfigField ({ · with minDepositAmount := minAmount }))

def setMaxInvestorConcGov (governance : Address) (maxBps : ℕ) : Res Params :=
  writeIf (s.asGovernance signers governance) (maxBps ≤ 10000) .InvalidAmount
    (s.params.updateConfigField ({ · with maxSingleInvestorBps := maxBps }))

def setCompoundInterestGov (governance : Address) (compound : Bool) : Res Params :=
  write (s.asGovernance signers governance)
    (s.params.updateConfigField ({ · with compoundInterest := compound }))

def setMaxUtilization (admin : Address) (maxBps : ℕ) : Res Params :=
  writeIf (s.asActiveAdmin signers admin) (maxBps ≤ 10000) .InvalidAmount
    (s.params.updateConfigField ({ · with maxUtilizationBps := maxBps }))

def setMaxUtilizationViaAc (accessControl : Address) (maxBps : ℕ) : Res Params :=
  writeIf (s.asActiveAccessControl signers accessControl) (maxBps ≤ 10000) .InvalidAmount
    (s.params.updateConfigField ({ · with maxUtilizationBps := maxBps }))

def setMaxUtilizationGov (governance : Address) (maxBps : ℕ) : Res Params :=
  writeIf (s.asActiveGovernance signers governance) (maxBps ≤ 10000) .InvalidAmount
    (s.params.updateConfigField ({ · with maxUtilizationBps := maxBps }))

def setWithdrawalLimits (admin : Address) (maxBps cooldownSecs : ℕ) : Res Params :=
  writeIf (s.asAdmin signers admin) (maxBps ≤ bpsDenom) .InvalidAmount
    (s.params.updateConfigField
      ({ · with maxSingleWithdrawalBps := maxBps, withdrawalCooldownSecs := cooldownSecs }))

/-- `set_withdrawal_limits_gov`: the cooldown stays as it is. -/
def setWithdrawalLimitsGov (governance : Address) (maxBps : ℕ) : Res Params :=
  writeIf (s.asGovernance signers governance) (maxBps ≤ 10000) .InvalidAmount
    (s.params.updateConfigField ({ · with maxSingleWithdrawalBps := maxBps }))

def setMaxWithdrawalQueueAge (admin : Address) (days : ℕ) : Res Params :=
  write (s.asAdmin signers admin)
    (s.params.updateConfigField ({ · with maxWithdrawalQueueAgeDays := days }))

def setMaxWdQueueAgeGov (governance : Address) (days : ℕ) : Res Params :=
  write (s.asGovernance signers governance)
    (s.params.updateConfigField ({ · with maxWithdrawalQueueAgeDays := days }))

def setMaxWithdrawalQueueDepth (admin : Address) (depth : ℕ) : Res Params :=
  write (s.asAdmin signers admin)
    (s.params.updateConfigField ({ · with maxWithdrawalQueueDepth := depth }))

def setMaxWdQueueDepthGov (governance : Address) (depth : ℕ) : Res Params :=
  write (s.asGovernance signers governance)
    (s.params.updateConfigField ({ · with maxWithdrawalQueueDepth := depth }))

/-! ## Prices -/

def setOracleStaleThreshold (admin : Address) (thresholdSecs : ℕ) : Res Params :=
  writeIf (s.asActiveAdmin signers admin) (thresholdSecs ≠ 0) .InvalidThreshold
    { s.params with oracleStaleSecs := thresholdSecs }

def setOracleStaleThreshGov (governance : Address) (thresholdSecs : ℕ) : Res Params :=
  writeIf (s.asActiveGovernance signers governance) (thresholdSecs ≠ 0) .InvalidAmount
    { s.params with oracleStaleSecs := thresholdSecs }

def setFallbackPrice (admin token : Address) (price : ℤ) : Res Params :=
  writeIf (s.asActiveAdmin signers admin) (0 < price) .InvalidAmount
    { s.params with
      fallbackPrice := Function.update s.params.fallbackPrice token (some (price, s.now)) }

def setFallbackPriceGov (governance token : Address) (price : ℤ) : Res Params :=
  writeIf (s.asActiveGovernance signers governance) (0 < price) .InvalidAmount
    { s.params with
      fallbackPrice := Function.update s.params.fallbackPrice token (some (price, s.now)) }

/-- The parameters with other bounds on the exchange rate of a token. -/
def Params.withRateBounds (p : Params) (token : Address) (minBps maxBps : ℕ) : Params :=
  { p with rateBounds := Function.update p.rateBounds token (some ⟨minBps, maxBps⟩) }

def Params.withExchangeRate (p : Params) (token : Address) (rateBps : ℕ) : Params :=
  { p with storedExchangeRate := Function.update p.storedExchangeRate token (some rateBps) }

/-- `set_rate_bounds`: the rate that is stored may lie outside of the new bounds. -/
def setRateBounds (admin token : Address) (minBps maxBps : ℕ) : Res Params := do
  s.asAdmin signers admin
  s.assertAcceptedToken token
  require (minBps ≠ 0 ∧ maxBps ≠ 0) (.err .InvalidAmount)
  require (minBps ≤ maxBps) (.err .InvalidAmount)
  return s.params.withRateBounds token minBps maxBps

def setRateBoundsViaGovernance (governance token : Address) (minBps maxBps : ℕ) : Res Params :=
  writeIf (s.asActiveGovernance signers governance)
    (minBps ≠ 0 ∧ maxBps ≠ 0 ∧ minBps ≤ maxBps) .InvalidAmount
    (s.params.withRateBounds token minBps maxBps)

/-- A rate lies within the bounds stored for a token, if there are any. -/
def Params.WithinBounds (p : Params) (token : Address) (rateBps : ℕ) : Prop :=
  ∀ bounds, p.rateBounds token = some bounds → bounds.minBps ≤ rateBps ∧ rateBps ≤ bounds.maxBps

instance (p : Params) (token : Address) (rateBps : ℕ) : Decidable (p.WithinBounds token rateBps) :=
  match hb : p.rateBounds token with
  | none => .isTrue (by simp [Params.WithinBounds, hb])
  | some bounds => decidable_of_iff (bounds.minBps ≤ rateBps ∧ rateBps ≤ bounds.maxBps)
      (by simp [Params.WithinBounds, hb])

def setExchangeRate (admin token : Address) (rateBps : ℕ) : Res Params := do
  s.asAdmin signers admin
  s.assertAcceptedToken token
  require (rateBps ≠ 0) (.err .InvalidAmount)
  require (s.params.WithinBounds token rateBps) (.err .InvalidAmount)
  return s.params.withExchangeRate token rateBps

/-- `set_exchange_rate_via_governance`: the bounds are not looked at. -/
def setExchangeRateViaGovernance (governance token : Address) (rateBps : ℕ) : Res Params :=
  writeIf (s.asActiveGovernance signers governance) (rateBps ≠ 0) .InvalidAmount
    (s.params.withExchangeRate token rateBps)

/-! ## Collateral, fee tiers and loyalty tiers -/

/-- `set_collateral_config`: the admin has to go through a proposal. -/
def setCollateralConfig (admin : Address) (_threshold : ℤ) (_collateralBps : ℕ) : Res Params := do
  s.asAdmin signers admin
  .error (.err .OperationRequiresProposal)

/-- `set_collateral_config_gov`: the check is not `validate_collateral_config`. -/
def setCollateralConfigGov (governance : Address) (config : CollateralConfig) : Res Params :=
  writeIf (s.asActiveGovernance signers governance)
    (0 < config.threshold ∧ config.collateralBps ≤ 10000) .InvalidAmount
    { s.params with collateralConfig := config }

/-- The body shared by `set_fee_tier` and `set_fee_tier_via_governance`. -/
def writeFeeTier (guard : Res Unit) (tierId : ℕ) (tier : FeeTier) : Res Params :=
  writeIf guard
    (0 ≤ tier.minAmount ∧ tier.minAmount ≤ tier.maxAmount ∧ tier.feeBps ≤ bpsDenom) .InvalidFeeTier
    { s.params with
      feeTierIds :=
        if tierId ∈ s.params.feeTierIds then s.params.feeTierIds
        else s.params.feeTierIds ++ [tierId]
      feeTier := Function.update s.params.feeTier tierId (some tier) }

def setFeeTier (admin : Address) (tierId : ℕ) (tier : FeeTier) : Res Params :=
  writeFeeTier s (s.asActiveAdmin signers admin) tierId tier

def setFeeTierViaGovernance (governance : Address) (tierId : ℕ) (tier : FeeTier) : Res Params :=
  writeFeeTier s (s.asActiveGovernance signers governance) tierId tier

def removeFeeTier (admin : Address) (tierId : ℕ) : Res Params :=
  writeIf (s.asActiveAdmin signers admin) (tierId ∈ s.params.feeTierIds) .FeeTierNotFound
    { s.params with
      feeTierIds := s.params.feeTierIds.filter fun id => id ≠ tierId
      feeTier := Function.update s.params.feeTier tierId none }

/-- The loop over new loyalty tiers; `prevMinDays` is the previous tier's. -/
def validateLoyaltyTiers : (prevMinDays : Option ℕ) → List LoyaltyTier → Res Unit
  | _, [] => return ()
  | prevMinDays, tier :: tiers => do
      require (tier.bonusBps ≤ maxLoyaltyBonusBps) (.err .InvalidLoyaltyTiers)
      require (∀ prev ∈ prevMinDays, prev < tier.minDays) (.err .InvalidLoyaltyTiers)
      validateLoyaltyTiers (some tier.minDays) tiers

/-- The body shared by `set_loyalty_tiers` and `set_loyalty_tiers_via_governance`. -/
def writeLoyaltyTiers (guard : Res Unit) (tiers : List LoyaltyTier) : Res Params := do
  guard
  require (tiers ≠ []) (.err .InvalidLoyaltyTiers)
  validateLoyaltyTiers none tiers
  return { s.params with loyaltyTiers := tiers }

def setLoyaltyTiers (admin : Address) (tiers : List LoyaltyTier) : Res Params :=
  writeLoyaltyTiers s (s.asAdmin signers admin) tiers

def setLoyaltyTiersViaGovernance (governance : Address) (tiers : List LoyaltyTier) : Res Params :=
  writeLoyaltyTiers s (s.asGovernance signers governance) tiers

/-! ## Yield -/

/-- The cooldown since the last yield change, with `u64::saturating_add`. -/
def State.requireYieldCooldown : Res Unit :=
  require (min (s.params.config.lastYieldChangeAt + s.params.config.yieldChangeCooldownSecs)
    (2 ^ 64 - 1) ≤ s.now) (.err .InvalidAmount)

/-- The distance of two rates (`u32::abs_diff`). -/
def absDiff (a b : ℕ) : ℕ := max a b - min a b

def State.requireYieldStep (newYieldBps : ℕ) : Res Unit :=
  require (absDiff newYieldBps s.params.config.yieldBps ≤ s.params.config.maxYieldChangeBps)
    (.err .InvalidAmount)

/-- The body shared by `set_yield` and `set_yield_via_ac`. -/
def writeYield (guard : Res Unit) (newYieldBps : ℕ) : Res Params := do
  guard
  require (newYieldBps ≤ 5000) (.err .InvalidAmount)
  s.requireYieldCooldown
  s.requireYieldStep newYieldBps
  return s.params.updateConfigField
    ({ · with yieldBps := newYieldBps, lastYieldChangeAt := s.now })

def setYield (admin : Address) (newYieldBps : ℕ) : Res Params :=
  writeYield s (s.asActiveAdmin signers admin) newYieldBps

def setYieldViaAc (accessControl : Address) (newYieldBps : ℕ) : Res Params :=
  writeYield s (s.asActiveAccessControl signers accessControl) newYieldBps

/-- `set_yield_via_governance`: neither the cooldown nor the step is checked. -/
def setYieldViaGovernance (governance : Address) (newYieldBps : ℕ) : Res Params :=
  writeIf (s.asActiveGovernance signers governance) (newYieldBps ≤ 5000) .InvalidAmount
    (s.params.updateConfigField ({ · with yieldBps := newYieldBps, lastYieldChangeAt := s.now }))

/-- `propose_yield_change`; the time at which the change is ready is computed for the event. -/
def proposeYieldChange (admin : Address) (newYieldBps : ℕ) : Res Params := do
  s.asAdmin signers admin
  s.requireYieldCooldown
  require (newYieldBps ≤ 5000) (.err .InvalidAmount)
  s.requireYieldStep newYieldBps
  let _ ← okOr (fitU 64 (s.now + s.params.config.yieldTimelockSecs)) overflowTrap
  return s.params.updateConfigField
    ({ · with proposedYieldBps := newYieldBps, yieldProposalAt := s.now })

/-- `execute_yield_change`: anyone may call it, and what it writes is not checked again. -/
def executeYieldChange : Res Params := do
  require (s.params.config.yieldProposalAt ≠ 0) (.err .YieldProposalNotFound)
  let effectiveAt ← okOr
    (fitU 64 (s.params.config.yieldProposalAt + s.params.config.yieldTimelockSecs)) overflowTrap
  require (effectiveAt ≤ s.now) (.err .YieldChangeNotReady)
  return s.params.updateConfigField fun config =>
    { config with
      yieldBps := config.proposedYieldBps
      lastYieldChangeAt := s.now
      proposedYieldBps := 0
      yieldProposalAt := 0 }

def cancelYieldProposal (admin : Address) : Res Params :=
  write (s.asAdmin signers admin)
    (s.params.updateConfigField ({ · with proposedYieldBps := 0, yieldProposalAt := 0 }))

def setYieldChangePolicy (admin : Address) (cooldownSecs maxChangeBps timelockSecs : ℕ) :
    Res Params :=
  writeIf (s.asAdmin signers admin) (cooldownSecs ≠ 0 ∧ maxChangeBps ≠ 0 ∧ 3600 ≤ timelockSecs)
    .InvalidAmount
    (s.params.updateConfigField
      ({ · with
        yieldChangeCooldownSecs := cooldownSecs
        maxYieldChangeBps := maxChangeBps
        yieldTimelockSecs := timelockSecs }))

/-- `set_yield_change_policy_gov`: only the cooldown, and any value of it. -/
def setYieldChangePolicyGov (governance : Address) (cooldownSecs : ℕ) : Res Params :=
  write (s.asGovernance signers governance)
    (s.params.updateConfigField ({ · with yieldChangeCooldownSecs := cooldownSecs }))

/-! ## Rate model and operation delay -/

def validateRateModelConfig (config : RateModelConfig) : Res Unit := do
  require (config.optimalUtilizationBps ≠ 0 ∧ config.optimalUtilizationBps ≤ bpsDenom)
    (.err .InvalidRateModelConfig)
  require (config.maxRateBps ≠ 0 ∧ config.maxRateBps ≤ maxRateBpsCap) (.err .InvalidRateModelConfig)
  require (config.baseRateBps ≤ config.maxRateBps) (.err .InvalidRateModelConfig)
  require (config.slope1Bps ≤ maxRateBpsCap ∧ config.slope2Bps ≤ maxRateBpsCap)
    (.err .InvalidRateModelConfig)

/-- How long a rate model waits when it is proposed. -/
def State.rateModelDelay : ℕ := max s.params.config.yieldTimelockSecs s.params.operationDelay

/-- `propose_rate_model_change`: a proposal replaces the one that is pending, and its time saturates
at the end of `u64`. -/
def proposeRateModelChange (admin token : Address) (newConfig : RateModelConfig) :
    Res Params := do
  s.asAdmin signers admin
  validateRateModelConfig newConfig
  require (min (s.params.rateModelChangedAt token + s.params.config.yieldChangeCooldownSecs)
    (2 ^ 64 - 1) ≤ s.now) (.err .InvalidAmount)
  return { s.params with
    pendingRateModel := Function.update s.params.pendingRateModel token
      (some ⟨newConfig, s.now, min (s.now + s.rateModelDelay) (2 ^ 64 - 1)⟩) }

/-- `execute_rate_model_change`, up to the sample it records. -/
def executeRateModelChange (token : Address) : Res Params := do
  let proposal ← okOr (s.params.pendingRateModel token) (.err .RateModelProposalNotFound)
  require (proposal.executeAfter ≤ s.now) (.err .RateModelChangeNotReady)
  return { s.params with
    rateModel := Function.update s.params.rateModel token (some proposal.config)
    pendingRateModel := Function.update s.params.pendingRateModel token none
    rateModelChangedAt := Function.update s.params.rateModelChangedAt token s.now }

def cancelRateModelChange (admin token : Address) : Res Params :=
  write (s.asAdmin signers admin)
    { s.params with pendingRateModel := Function.update s.params.pendingRateModel token none }

def setOperationDelay (admin : Address) (secs : ℕ) : Res Params :=
  writeIf (s.asAdmin signers admin) (minOperationDelaySecs ≤ secs) .InvalidOperationDelay
    { s.params with operationDelay := secs }

def setOperationDelayGov (governance : Address) (secs : ℕ) : Res Params :=
  writeIf (s.asGovernanceAdmin signers governance) (3600 ≤ secs) .InvalidOperationDelay
    { s.params with operationDelay := secs }

end Setters
/-- The setters, and the entrypoints that move a parameter in two steps. -/
inductive Setting
  | pause (admin : Address)
  | unpause (admin : Address)
  | setPausedViaAc (accessControl : Address) (paused : Bool)
  | proposeAdminChange (admin newAdmin : Address)
  | finalizeAdminChange (admin : Address)
  | cancelAdminChange (admin : Address)
  | setAccessControl (admin accessControl : Address)
  | setGovernanceAddress (admin governance : Address)
  | setTreasury (admin treasury : Address)
  | setTreasuryViaAc (accessControl treasury : Address)
  | setTreasuryViaGovernance (governance treasury : Address)
  | setOracleContract (admin oracle : Address)
  | setOracleContractViaAc (accessControl oracle : Address)
  | setOracleContractGov (governance oracle : Address)
  | setCreditScoreContract (admin contract : Address)
  | setCreditScoreContractGov (governance contract : Address)
  | setInsuranceContract (admin contract : Address)
  | setInsuranceContractGov (governance contract : Address)
  | setReferralRegistry (admin registry : Address)
  | setReferralRegistryGov (governance registry : Address)
  | setSecondaryMarketContract (admin contract : Address)
  | setSecondaryMarketGov (governance contract : Address)
  | setRiskContract (admin contract : Address)
  | setRiskContractViaGovernance (governance contract : Address)
  | setKycRequired (admin : Address) (required : Bool)
  | setKycRequiredViaAc (accessControl : Address) (required : Bool)
  | setKycRequiredViaGovernance (governance : Address) (required : Bool)
  | setInvestorKyc (admin investor : Address) (approved : Bool)
  | setInvestorKycViaAc (accessControl investor : Address) (approved : Bool)
  | approveInvestorKyc (admin investor : Address)
  | rejectInvestorKyc (admin investor : Address)
  | setComplianceRegistry (admin registry : Address)
  | setComplianceRegistryGov (governance registry : Address)
  | setRequireComplianceCheck (admin : Address) (required : Bool)
  | setRequireComplianceCheckGov (governance : Address) (required : Bool)
  | setFactoringFee (admin : Address) (factoringFeeBps : ℕ)
  | setFactoringFeeViaGovernance (governance : Address) (factoringFeeBps : ℕ)
  | setMinDeposit (admin : Address) (minAmount : ℤ)
  | setMinDepositViaGovernance (governance : Address) (minAmount : ℤ)
  | setMaxInvestorConcGov (governance : Address) (maxBps : ℕ)
  | setCompoundInterestGov (governance : Address) (compound : Bool)
  | setMaxUtilization (admin : Address) (maxBps : ℕ)
  | setMaxUtilizationViaAc (accessControl : Address) (maxBps : ℕ)
  | setMaxUtilizationGov (governance : Address) (maxBps : ℕ)
  | setWithdrawalLimits (admin : Address) (maxBps cooldownSecs : ℕ)
  | setWithdrawalLimitsGov (governance : Address) (maxBps : ℕ)
  | setMaxWithdrawalQueueAge (admin : Address) (days : ℕ)
  | setMaxWdQueueAgeGov (governance : Address) (days : ℕ)
  | setMaxWithdrawalQueueDepth (admin : Address) (depth : ℕ)
  | setMaxWdQueueDepthGov (governance : Address) (depth : ℕ)
  | setOracleStaleThreshold (admin : Address) (thresholdSecs : ℕ)
  | setOracleStaleThreshGov (governance : Address) (thresholdSecs : ℕ)
  | setFallbackPrice (admin token : Address) (price : ℤ)
  | setFallbackPriceGov (governance token : Address) (price : ℤ)
  | setRateBounds (admin token : Address) (minBps maxBps : ℕ)
  | setRateBoundsViaGovernance (governance token : Address) (minBps maxBps : ℕ)
  | setExchangeRate (admin token : Address) (rateBps : ℕ)
  | setExchangeRateViaGovernance (governance token : Address) (rateBps : ℕ)
  | setCollateralConfig (admin : Address) (threshold : ℤ) (collateralBps : ℕ)
  | setCollateralConfigGov (governance : Address) (config : CollateralConfig)
  | setFeeTier (admin : Address) (tierId : ℕ) (tier : FeeTier)
  | setFeeTierViaGovernance (governance : Address) (tierId : ℕ) (tier : FeeTier)
  | removeFeeTier (admin : Address) (tierId : ℕ)
  | setLoyaltyTiers (admin : Address) (tiers : List LoyaltyTier)
  | setLoyaltyTiersViaGovernance (governance : Address) (tiers : List LoyaltyTier)
  | setYield (admin : Address) (newYieldBps : ℕ)
  | setYieldViaAc (accessControl : Address) (newYieldBps : ℕ)
  | setYieldViaGovernance (governance : Address) (newYieldBps : ℕ)
  | proposeYieldChange (admin : Address) (newYieldBps : ℕ)
  | executeYieldChange
  | cancelYieldProposal (admin : Address)
  | setYieldChangePolicy (admin : Address) (cooldownSecs maxChangeBps timelockSecs : ℕ)
  | setYieldChangePolicyGov (governance : Address) (cooldownSecs : ℕ)
  | proposeRateModelChange (admin token : Address) (newConfig : RateModelConfig)
  | executeRateModelChange (token : Address)
  | cancelRateModelChange (admin token : Address)
  | setOperationDelay (admin : Address) (secs : ℕ)
  | setOperationDelayGov (governance : Address) (secs : ℕ)

def applySetting (h : Host W) (signers : List Address) (s : State W) : Setting → Res Params
  | .pause admin => pause signers s admin
  | .unpause admin => unpause signers s admin
  | .setPausedViaAc accessControl paused => setPausedViaAc signers s accessControl paused
  | .proposeAdminChange admin newAdmin => proposeAdminChange signers s admin newAdmin
  | .finalizeAdminChange admin => finalizeAdminChange signers s admin
  | .cancelAdminChange admin => cancelAdminChange signers s admin
  | .setAccessControl admin accessControl => setAccessControl signers s admin accessControl
  | .setGovernanceAddress admin governance => setGovernanceAddress signers s admin governance
  | .setTreasury admin treasury => setTreasury signers s admin treasury
  | .setTreasuryViaAc accessControl treasury => setTreasuryViaAc signers s accessControl treasury
  | .setTreasuryViaGovernance governance treasury =>
    setTreasuryViaGovernance signers s governance treasury
  | .setOracleContract admin oracle => setOracleContract signers s admin oracle
  | .setOracleContractViaAc accessControl oracle =>
    setOracleContractViaAc signers s accessControl oracle
  | .setOracleContractGov governance oracle => setOracleContractGov signers s governance oracle
  | .setCreditScoreContract admin contract => setCreditScoreContract signers s admin contract
  | .setCreditScoreContractGov governance contract =>
    setCreditScoreContractGov signers s governance contract
  | .setInsuranceContract admin contract => setInsuranceContract signers s admin contract
  | .setInsuranceContractGov governance contract =>
    setInsuranceContractGov signers s governance contract
  | .setReferralRegistry admin registry => setReferralRegistry signers s admin registry
  | .setReferralRegistryGov governance registry =>
    setReferralRegistryGov signers s governance registry
  | .setSecondaryMarketContract admin contract =>
    setSecondaryMarketContract signers s admin contract
  | .setSecondaryMarketGov governance contract =>
    setSecondaryMarketGov signers s governance contract
  | .setRiskContract admin contract => setRiskContract signers s admin contract
  | .setRiskContractViaGovernance governance contract =>
    setRiskContractViaGovernance signers s governance contract
  | .setKycRequired admin required => setKycRequired signers s admin required
  | .setKycRequiredViaAc accessControl required =>
    setKycRequiredViaAc signers s accessControl required
  | .setKycRequiredViaGovernance governance required =>
    setKycRequiredViaGovernance signers s governance required
  | .setInvestorKyc admin investor approved => setInvestorKyc h signers s admin investor approved
  | .setInvestorKycViaAc accessControl investor approved =>
    setInvestorKycViaAc h signers s accessControl investor approved
  | .approveInvestorKyc admin investor => approveInvestorKyc h signers s admin investor
  | .rejectInvestorKyc admin investor => rejectInvestorKyc h signers s admin investor
  | .setComplianceRegistry admin registry => setComplianceRegistry signers s admin registry
  | .setComplianceRegistryGov governance registry =>
    setComplianceRegistryGov signers s governance registry
  | .setRequireComplianceCheck admin required => setRequireComplianceCheck signers s admin required
  | .setRequireComplianceCheckGov governance required =>
    setRequireComplianceCheckGov signers s governance required
  | .setFactoringFee admin factoringFeeBps => setFactoringFee signers s admin factoringFeeBps
  | .setFactoringFeeViaGovernance governance factoringFeeBps =>
    setFactoringFeeViaGovernance signers s governance factoringFeeBps
  | .setMinDeposit admin minAmount => setMinDeposit signers s admin minAmount
  | .setMinDepositViaGovernance governance minAmount =>
    setMinDepositViaGovernance signers s governance minAmount
  | .setMaxInvestorConcGov governance maxBps => setMaxInvestorConcGov signers s governance maxBps
  | .setCompoundInterestGov governance compound =>
    setCompoundInterestGov signers s governance compound
  | .setMaxUtilization admin maxBps => setMaxUtilization signers s admin maxBps
  | .setMaxUtilizationViaAc accessControl maxBps =>
    setMaxUtilizationViaAc signers s accessControl maxBps
  | .setMaxUtilizationGov governance maxBps => setMaxUtilizationGov signers s governance maxBps
  | .setWithdrawalLimits admin maxBps cooldownSecs =>
    setWithdrawalLimits signers s admin maxBps cooldownSecs
  | .setWithdrawalLimitsGov governance maxBps => setWithdrawalLimitsGov signers s governance maxBps
  | .setMaxWithdrawalQueueAge admin days => setMaxWithdrawalQueueAge signers s admin days
  | .setMaxWdQueueAgeGov governance days => setMaxWdQueueAgeGov signers s governance days
  | .setMaxWithdrawalQueueDepth admin depth => setMaxWithdrawalQueueDepth signers s admin depth
  | .setMaxWdQueueDepthGov governance depth => setMaxWdQueueDepthGov signers s governance depth
  | .setOracleStaleThreshold admin thresholdSecs =>
    setOracleStaleThreshold signers s admin thresholdSecs
  | .setOracleStaleThreshGov governance thresholdSecs =>
    setOracleStaleThreshGov signers s governance thresholdSecs
  | .setFallbackPrice admin token price => setFallbackPrice signers s admin token price
  | .setFallbackPriceGov governance token price =>
    setFallbackPriceGov signers s governance token price
  | .setRateBounds admin token minBps maxBps => setRateBounds signers s admin token minBps maxBps
  | .setRateBoundsViaGovernance governance token minBps maxBps =>
    setRateBoundsViaGovernance signers s governance token minBps maxBps
  | .setExchangeRate admin token rateBps => setExchangeRate signers s admin token rateBps
  | .setExchangeRateViaGovernance governance token rateBps =>
    setExchangeRateViaGovernance signers s governance token rateBps
  | .setCollateralConfig admin threshold collateralBps =>
    setCollateralConfig signers s admin threshold collateralBps
  | .setCollateralConfigGov governance config => setCollateralConfigGov signers s governance config
  | .setFeeTier admin tierId tier => setFeeTier signers s admin tierId tier
  | .setFeeTierViaGovernance governance tierId tier =>
    setFeeTierViaGovernance signers s governance tierId tier
  | .removeFeeTier admin tierId => removeFeeTier signers s admin tierId
  | .setLoyaltyTiers admin tiers => setLoyaltyTiers signers s admin tiers
  | .setLoyaltyTiersViaGovernance governance tiers =>
    setLoyaltyTiersViaGovernance signers s governance tiers
  | .setYield admin newYieldBps => setYield signers s admin newYieldBps
  | .setYieldViaAc accessControl newYieldBps => setYieldViaAc signers s accessControl newYieldBps
  | .setYieldViaGovernance governance newYieldBps =>
    setYieldViaGovernance signers s governance newYieldBps
  | .proposeYieldChange admin newYieldBps => proposeYieldChange signers s admin newYieldBps
  | .executeYieldChange => executeYieldChange s
  | .cancelYieldProposal admin => cancelYieldProposal signers s admin
  | .setYieldChangePolicy admin cooldownSecs maxChangeBps timelockSecs =>
    setYieldChangePolicy signers s admin cooldownSecs maxChangeBps timelockSecs
  | .setYieldChangePolicyGov governance cooldownSecs =>
    setYieldChangePolicyGov signers s governance cooldownSecs
  | .proposeRateModelChange admin token newConfig =>
    proposeRateModelChange signers s admin token newConfig
  | .executeRateModelChange token => executeRateModelChange s token
  | .cancelRateModelChange admin token => cancelRateModelChange signers s admin token
  | .setOperationDelay admin secs => setOperationDelay signers s admin secs
  | .setOperationDelayGov governance secs => setOperationDelayGov signers s governance secs

end Astera.Pool
