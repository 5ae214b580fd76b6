import Astera.Invoices.State

/-!
# The setters of the invoice contract

Each function returns the configuration that a setter leaves, and `Setting` lists them all.  Many
parameters have a second setter for governance (`_gov`, `_via_governance`), a few a third
(`_via_ac`).  The setters of times to live and of the metadata image, the upgrade and the migration
counter are left out: no modelled function reads what they write.
-/

namespace Astera.Invoices

open Fallible Machine

variable {W : Type}

/-! ## Who may set -/

namespace State

def requireAccessControl (s : State W) (caller : Address) : Res Unit := do
  let configured ← okOr s.config.accessControl (.error .AccessControlNotConfigured)
  require (configured = caller) (.error .Unauthorized)

/-- `require_governance`: a missing governance contract is reported as a missing access control. -/
def requireGovernance (s : State W) (caller : Address) : Res Unit := do
  let configured ← okOr s.config.governance (.error .AccessControlNotConfigured)
  require (configured = caller) (.error .Unauthorized)

def asAdmin (s : State W) (signers : List Address) (admin : Address) : Res Unit := do
  requireAuth signers admin
  s.requireAdmin admin

/-- The first lines of an admin setter that a pause blocks. -/
def asActiveAdmin (s : State W) (signers : List Address) (admin : Address) : Res Unit := do
  requireAuth signers admin
  s.requireNotPaused
  s.requireAdmin admin

/-- The first lines of a `_via_ac` setter. -/
def asAccessControl (s : State W) (signers : List Address) (accessControl : Address) :
    Res Unit := do
  requireAuth signers accessControl
  s.requireAccessControl accessControl

/-- The first lines of a `_via_ac` setter that a pause blocks. -/
def asActiveAccessControl (s : State W) (signers : List Address) (accessControl : Address) :
    Res Unit := do
  s.asAccessControl signers accessControl
  s.requireNotPaused

def asGovernance (s : State W) (signers : List Address) (governance : Address) : Res Unit := do
  requireAuth signers governance
  s.requireGovernance governance

/-- The first lines of a governance setter that a pause blocks. -/
def asActiveGovernance (s : State W) (signers : List Address) (governance : Address) :
    Res Unit := do
  s.asGovernance signers governance
  s.requireNotPaused

/-- The stored secondary oracle.  A stored `None` is not an address. -/
def secondaryOracle (s : State W) : Res (Option Address) :=
  match s.config.oracleSecondary with
  | none => return none
  | some (some oracle) => return some oracle
  | some none => .error .decode

end State

def write (guard : Res Unit) (config : Config) : Res Config := do
  guard
  return config

/-- A setter that takes valid values. -/
def writeIf (guard : Res Unit) (valid : Prop) [Decidable valid] (e : InvoiceError)
    (config : Config) : Res Config := do
  guard
  require valid (.error e)
  return config

section Setters

variable (signers : List Address) (s : State W)

def pause (admin : Address) : Res Config :=
  write (s.asAdmin signers admin) { s.config with paused := true }

def unpause (admin : Address) : Res Config :=
  write (s.asAdmin signers admin) { s.config with paused := false }

def setPausedViaAc (accessControl : Address) (paused : Bool) : Res Config :=
  write (s.asAccessControl signers accessControl) { s.config with paused := paused }

/-- `propose_admin_change`; the time at which the change is ready is computed for the event. -/
def proposeAdminChange (admin newAdmin : Address) : Res Config := do
  s.asActiveAdmin signers admin
  let _ ← okOr (fitU 64 (s.now + adminChangeTimelockSecs)) .overflow
  return { s.config with pendingAdmin := some newAdmin, adminChangeScheduledAt := some s.now }

def finalizeAdminChange (admin : Address) : Res Config := do
  s.asActiveAdmin signers admin
  let scheduledAt ← okOr s.config.adminChangeScheduledAt (.error .NoAdminChangeProposed)
  let readyAt ← okOr (fitU 64 (scheduledAt + adminChangeTimelockSecs)) .overflow
  require (readyAt ≤ s.now) (.error .AdminChangeTimelockNotExpired)
  let newAdmin ← okOr s.config.pendingAdmin (.error .NoAdminChangeProposed)
  return { s.config with admin := newAdmin, pendingAdmin := none, adminChangeScheduledAt := none }

def cancelAdminChange (admin : Address) : Res Config :=
  writeIf (s.asActiveAdmin signers admin) (s.config.pendingAdmin.isSome = true)
    .NoAdminChangeProposed { s.config with pendingAdmin := none, adminChangeScheduledAt := none }

def setAccessControl (admin accessControl : Address) : Res Config :=
  write (s.asAdmin signers admin) { s.config with accessControl := some accessControl }

def setAccessControlViaAc (accessControl newAccessControl : Address) : Res Config :=
  write (s.asAccessControl signers accessControl)
    { s.config with accessControl := some newAccessControl }

def setGovernanceAddress (admin governance : Address) : Res Config :=
  write (s.asAdmin signers admin) { s.config with governance := some governance }

def setPool (admin pool : Address) : Res Config :=
  write (s.asActiveAdmin signers admin) { s.config with pool := pool }

def setArbitrationContract (admin arbitration : Address) : Res Config :=
  write (s.asAdmin signers admin) { s.config with arbitrationContract := some arbitration }

def setArbitrationContractViaGovernance (governance arbitration : Address) : Res Config :=
  write (s.asGovernance signers governance)
    { s.config with arbitrationContract := some arbitration }

/-! ## Oracles -/

def setOracle (admin oracle : Address) : Res Config :=
  write (s.asActiveAdmin signers admin) { s.config with oracle := some oracle }

def setOracleViaAc (accessControl oracle : Address) : Res Config :=
  write (s.asActiveAccessControl signers accessControl) { s.config with oracle := some oracle }

def setOracleViaGovernance (governance oracle : Address) : Res Config :=
  write (s.asActiveGovernance signers governance) { s.config with oracle := some oracle }

/-- `set_secondary_oracle`: the old value is read for the event, so that a stored `None` is never
replaced. -/
def setSecondaryOracle (admin : Address) (oracleSecondary : Option Address) : Res Config := do
  s.asActiveAdmin signers admin
  let _ ← s.secondaryOracle
  return { s.config with oracleSecondary := some oracleSecondary }

def setSecondaryOracleViaGovernance (governance : Address) (oracleSecondary : Option Address) :
    Res Config := do
  s.asActiveGovernance signers governance
  let _ ← s.secondaryOracle
  return { s.config with oracleSecondary := some oracleSecondary }

def setOracleRegistry (admin registry : Address) : Res Config :=
  write (s.asActiveAdmin signers admin) { s.config with oracleRegistry := some registry }

def setOracleRegistryViaGovernance (governance registry : Address) : Res Config :=
  write (s.asActiveGovernance signers governance) { s.config with oracleRegistry := some registry }

def setConsensusRequired (admin : Address) (required : Bool) : Res Config :=
  write (s.asActiveAdmin signers admin) { s.config with requireConsensusVerification := required }

def setConsensusRequiredViaGovernance (governance : Address) (required : Bool) : Res Config :=
  write (s.asActiveGovernance signers governance)
    { s.config with requireConsensusVerification := required }

def setOracleVerifiedFundingOnly (admin : Address) (required : Bool) : Res Config :=
  write (s.asAdmin signers admin) { s.config with requireOracleVerification := required }

def setOracleVerifiedFundingOnlyViaGovernance (governance : Address) (required : Bool) :
    Res Config :=
  write (s.asGovernance signers governance)
    { s.config with requireOracleVerification := required }

/-! ## Compliance, debtors and keepers -/

def setComplianceRegistry (admin registry : Address) : Res Config :=
  write (s.asActiveAdmin signers admin) { s.config with complianceRegistry := some registry }

def setComplianceRegistryViaGovernance (governance registry : Address) : Res Config :=
  write (s.asActiveGovernance signers governance)
    { s.config with complianceRegistry := some registry }

def setRequireComplianceCheck (admin : Address) (required : Bool) : Res Config :=
  write (s.asActiveAdmin signers admin) { s.config with requireComplianceCheck := required }

def setRequireComplianceCheckViaGovernance (governance : Address) (required : Bool) :
    Res Config :=
  write (s.asActiveGovernance signers governance)
    { s.config with requireComplianceCheck := required }

def setRequireRegisteredDebtor (admin : Address) (required : Bool) : Res Config :=
  write (s.asAdmin signers admin) { s.config with requireRegisteredDebtor := required }

def setRequireRegisteredDebtorViaGovernance (governance : Address) (required : Bool) :
    Res Config :=
  write (s.asGovernance signers governance) { s.config with requireRegisteredDebtor := required }

def withKeeper (keeperIds : List Address) (keeper : Address) : List Address :=
  if keeperIds.contains keeper then keeperIds else keeperIds ++ [keeper]

def addKeeper (admin keeper : Address) : Res Config :=
  write (s.asActiveAdmin signers admin)
    { s.config with keeperIds := withKeeper s.config.keeperIds keeper }

def addKeeperViaAc (accessControl keeper : Address) : Res Config :=
  write (s.asActiveAccessControl signers accessControl)
    { s.config with keeperIds := withKeeper s.config.keeperIds keeper }

def removeKeeper (admin keeper : Address) : Res Config :=
  write (s.asActiveAdmin signers admin)
    { s.config with keeperIds := s.config.keeperIds.filter fun k => k ≠ keeper }

/-! ## Limits -/

def setGracePeriod (admin : Address) (days : ℕ) : Res Config :=
  writeIf (s.asAdmin signers admin) (days ≤ 90) .InvalidConfig
    { s.config with gracePeriodDays := days }

def setGracePeriodViaGovernance (governance : Address) (days : ℕ) : Res Config :=
  writeIf (s.asGovernance signers governance) (days ≤ maxGracePeriodOverrideDays) .InvalidAmount
    { s.config with gracePeriodDays := days }

def setMaxInvoiceAmount (admin : Address) (maxInvoiceAmount : ℤ) : Res Config :=
  writeIf (s.asActiveAdmin signers admin) (0 < maxInvoiceAmount) .InvalidAmount
    { s.config with maxInvoiceAmount := maxInvoiceAmount }

def setMaxInvoiceAmountGov (governance : Address) (maxInvoiceAmount : ℤ) : Res Config :=
  writeIf (s.asActiveGovernance signers governance) (0 < maxInvoiceAmount) .InvalidAmount
    { s.config with maxInvoiceAmount := maxInvoiceAmount }

def setMaxSmeOutstanding (admin : Address) (max : ℤ) : Res Config :=
  writeIf (s.asActiveAdmin signers admin) (0 < max) .InvalidAmount
    { s.config with maxOutstandingPerSme := max }

def setMaxSmeOutstandingViaGovernance (governance : Address) (max : ℤ) : Res Config :=
  writeIf (s.asActiveGovernance signers governance) (0 < max) .InvalidAmount
    { s.config with maxOutstandingPerSme := max }

def setExpirationDuration (admin : Address) (expirationDurationSecs : ℕ) : Res Config := do
  s.asActiveAdmin signers admin
  require (expirationDurationSecs ≠ 0) (.error .InvalidConfig)
  require (expirationDurationSecs ≤ maxExpirationDurationSecs) (.error .ArithmeticOverflow)
  return { s.config with expirationDurationSecs := expirationDurationSecs }

def setExpirationDurationViaGovernance (governance : Address) (expirationDurationSecs : ℕ) :
    Res Config :=
  writeIf (s.asActiveGovernance signers governance)
    (expirationDurationSecs ≠ 0 ∧ expirationDurationSecs ≤ maxExpirationDurationSecs)
    .ArithmeticOverflow { s.config with expirationDurationSecs := expirationDurationSecs }

def setDailyInvoiceLimit (admin : Address) (limit : ℕ) : Res Config :=
  writeIf (s.asActiveAdmin signers admin) (limit ≠ 0 ∧ limit ≤ maxDailyInvoiceLimit) .InvalidConfig
    { s.config with dailyInvoiceLimit := limit }

/-- `set_daily_invoice_limit_via_governance`: unlike the admin's setter it takes zero. -/
def setDailyInvoiceLimitViaGovernance (governance : Address) (limit : ℕ) : Res Config :=
  writeIf (s.asActiveGovernance signers governance) (limit ≤ maxDailyInvoiceLimit) .InvalidAmount
    { s.config with dailyInvoiceLimit := limit }

def setMinDueDateWindow (admin : Address) (windowSecs : ℕ) : Res Config :=
  write (s.asAdmin signers admin) { s.config with minDueDateWindowSecs := windowSecs }

def setMinDueDateWindowViaGovernance (governance : Address) (windowSecs : ℕ) : Res Config :=
  write (s.asGovernance signers governance) { s.config with minDueDateWindowSecs := windowSecs }

def setDisputeWindow (admin : Address) (window : ℕ) : Res Config :=
  write (s.asAdmin signers admin) { s.config with disputeResolutionWindow := window }

/-- `set_dispute_window_via_governance`: the governance contract has to be the admin as well. -/
def setDisputeWindowViaGovernance (governance : Address) (window : ℕ) : Res Config := do
  s.asGovernance signers governance
  s.requireAdmin governance
  return { s.config with disputeResolutionWindow := window }

def setDisputeValueThreshold (admin : Address) (threshold : ℤ) : Res Config :=
  writeIf (s.asAdmin signers admin) (0 ≤ threshold) .InvalidAmount
    { s.config with disputeValueThreshold := threshold }

/-- `set_dispute_value_threshold_via_governance`: any value. -/
def setDisputeValueThresholdViaGovernance (governance : Address) (threshold : ℤ) : Res Config :=
  write (s.asGovernance signers governance) { s.config with disputeValueThreshold := threshold }

end Setters

inductive Setting
  | pause (admin : Address)
  | unpause (admin : Address)
  | setPausedViaAc (accessControl : Address) (paused : Bool)
  | proposeAdminChange (admin newAdmin : Address)
  | finalizeAdminChange (admin : Address)
  | cancelAdminChange (admin : Address)
  | setAccessControl (admin accessControl : Address)
  | setAccessControlViaAc (accessControl newAccessControl : Address)
  | setGovernanceAddress (admin governance : Address)
  | setPool (admin pool : Address)
  | setArbitrationContract (admin arbitration : Address)
  | setArbitrationContractViaGovernance (governance arbitration : Address)
  | setOracle (admin oracle : Address)
  | setOracleViaAc (accessControl oracle : Address)
  | setOracleViaGovernance (governance oracle : Address)
  | setSecondaryOracle (admin : Address) (oracleSecondary : Option Address)
  | setSecondaryOracleViaGovernance (governance : Address) (oracleSecondary : Option Address)
  | setOracleRegistry (admin registry : Address)
  | setOracleRegistryViaGovernance (governance registry : Address)
  | setConsensusRequired (admin : Address) (required : Bool)
  | setConsensusRequiredViaGovernance (governance : Address) (required : Bool)
  | setOracleVerifiedFundingOnly (admin : Address) (required : Bool)
  | setOracleVerifiedFundingOnlyViaGovernance (governance : Address) (required : Bool)
  | setComplianceRegistry (admin registry : Address)
  | setComplianceRegistryViaGovernance (governance registry : Address)
  | setRequireComplianceCheck (admin : Address) (required : Bool)
  | setRequireComplianceCheckViaGovernance (governance : Address) (required : Bool)
  | setRequireRegisteredDebtor (admin : Address) (required : Bool)
  | setRequireRegisteredDebtorViaGovernance (governance : Address) (required : Bool)
  | addKeeper (admin keeper : Address)
  | addKeeperViaAc (accessControl keeper : Address)
  | removeKeeper (admin keeper : Address)
  | setGracePeriod (admin : Address) (days : ℕ)
  | setGracePeriodViaGovernance (governance : Address) (days : ℕ)
  | setMaxInvoiceAmount (admin : Address) (maxInvoiceAmount : ℤ)
  | setMaxInvoiceAmountGov (governance : Address) (maxInvoiceAmount : ℤ)
  | setMaxSmeOutstanding (admin : Address) (max : ℤ)
  | setMaxSmeOutstandingViaGovernance (governance : Address) (max : ℤ)
  | setExpirationDuration (admin : Address) (expirationDurationSecs : ℕ)
  | setExpirationDurationViaGovernance (governance : Address) (expirationDurationSecs : ℕ)
  | setDailyInvoiceLimit (admin : Address) (limit : ℕ)
  | setDailyInvoiceLimitViaGovernance (governance : Address) (limit : ℕ)
  | setMinDueDateWindow (admin : Address) (windowSecs : ℕ)
  | setMinDueDateWindowViaGovernance (governance : Address) (windowSecs : ℕ)
  | setDisputeWindow (admin : Address) (window : ℕ)
  | setDisputeWindowViaGovernance (governance : Address) (window : ℕ)
  | setDisputeValueThreshold (admin : Address) (threshold : ℤ)
  | setDisputeValueThresholdViaGovernance (governance : Address) (threshold : ℤ)

def applySetting (signers : List Address) (s : State W) : Setting → Res Config
  | .pause admin => pause signers s admin
  | .unpause admin => unpause signers s admin
  | .setPausedViaAc accessControl paused => setPausedViaAc signers s accessControl paused
  | .proposeAdminChange admin newAdmin => proposeAdminChange signers s admin newAdmin
  | .finalizeAdminChange admin => finalizeAdminChange signers s admin
  | .cancelAdminChange admin => cancelAdminChange signers s admin
  | .setAccessControl admin accessControl => setAccessControl signers s admin accessControl
  | .setAccessControlViaAc accessControl newAccessControl =>
    setAccessControlViaAc signers s accessControl newAccessControl
  | .setGovernanceAddress admin governance => setGovernanceAddress signers s admin governance
  | .setPool admin pool => setPool signers s admin pool
  | .setArbitrationContract admin arbitration =>
    setArbitrationContract signers s admin arbitration
  | .setArbitrationContractViaGovernance governance arbitration =>
    setArbitrationContractViaGovernance signers s governance arbitration
  | .setOracle admin oracle => setOracle signers s admin oracle
  | .setOracleViaAc accessControl oracle => setOracleViaAc signers s accessControl oracle
  | .setOracleViaGovernance governance oracle => setOracleViaGovernance signers s governance oracle
  | .setSecondaryOracle admin oracleSecondary =>
    setSecondaryOracle signers s admin oracleSecondary
  | .setSecondaryOracleViaGovernance governance oracleSecondary =>
    setSecondaryOracleViaGovernance signers s governance oracleSecondary
  | .setOracleRegistry admin registry => setOracleRegistry signers s admin registry
  | .setOracleRegistryViaGovernance governance registry =>
    setOracleRegistryViaGovernance signers s governance registry
  | .setConsensusRequired admin required => setConsensusRequired signers s admin required
  | .setConsensusRequiredViaGovernance governance required =>
    setConsensusRequiredViaGovernance signers s governance required
  | .setOracleVerifiedFundingOnly admin required =>
    setOracleVerifiedFundingOnly signers s admin required
  | .setOracleVerifiedFundingOnlyViaGovernance governance required =>
    setOracleVerifiedFundingOnlyViaGovernance signers s governance required
  | .setComplianceRegistry admin registry => setComplianceRegistry signers s admin registry
  | .setComplianceRegistryViaGovernance governance registry =>
    setComplianceRegistryViaGovernance signers s governance registry
  | .setRequireComplianceCheck admin required =>
    setRequireComplianceCheck signers s admin required
  | .setRequireComplianceCheckViaGovernance governance required =>
    setRequireComplianceCheckViaGovernance signers s governance required
  | .setRequireRegisteredDebtor admin required =>
    setRequireRegisteredDebtor signers s admin required
  | .setRequireRegisteredDebtorViaGovernance governance required =>
    setRequireRegisteredDebtorViaGovernance signers s governance required
  | .addKeeper admin keeper => addKeeper signers s admin keeper
  | .addKeeperViaAc accessControl keeper => addKeeperViaAc signers s accessControl keeper
  | .removeKeeper admin keeper => removeKeeper signers s admin keeper
  | .setGracePeriod admin days => setGracePeriod signers s admin days
  | .setGracePeriodViaGovernance governance days =>
    setGracePeriodViaGovernance signers s governance days
  | .setMaxInvoiceAmount admin maxInvoiceAmount =>
    setMaxInvoiceAmount signers s admin maxInvoiceAmount
  | .setMaxInvoiceAmountGov governance maxInvoiceAmount =>
    setMaxInvoiceAmountGov signers s governance maxInvoiceAmount
  | .setMaxSmeOutstanding admin max => setMaxSmeOutstanding signers s admin max
  | .setMaxSmeOutstandingViaGovernance governance max =>
    setMaxSmeOutstandingViaGovernance signers s governance max
  | .setExpirationDuration admin expirationDurationSecs =>
    setExpirationDuration signers s admin expirationDurationSecs
  | .setExpirationDurationViaGovernance governance expirationDurationSecs =>
    setExpirationDurationViaGovernance signers s governance expirationDurationSecs
  | .setDailyInvoiceLimit admin limit => setDailyInvoiceLimit signers s admin limit
  | .setDailyInvoiceLimitViaGovernance governance limit =>
    setDailyInvoiceLimitViaGovernance signers s governance limit
  | .setMinDueDateWindow admin windowSecs => setMinDueDateWindow signers s admin windowSecs
  | .setMinDueDateWindowViaGovernance governance windowSecs =>
    setMinDueDateWindowViaGovernance signers s governance windowSecs
  | .setDisputeWindow admin window => setDisputeWindow signers s admin window
  | .setDisputeWindowViaGovernance governance window =>
    setDisputeWindowViaGovernance signers s governance window
  | .setDisputeValueThreshold admin threshold =>
    setDisputeValueThreshold signers s admin threshold
  | .setDisputeValueThresholdViaGovernance governance threshold =>
    setDisputeValueThresholdViaGovernance signers s governance threshold

end Astera.Invoices
